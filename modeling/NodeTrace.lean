import NodeTrace.Main
import NodeTrace.Proofs.EdgeStatistics
import NodeTrace.Proofs.RoundTrip
import NodeTrace.Proofs.Truncation
import NodeTrace.Proofs.Schedules
import NodeTrace.Proofs.Failures
import NodeTrace.Proofs.Shape
import NodeTrace.Proofs.Dispatch
import NodeTrace.Proofs.Output
import NodeTrace.Proofs.Tallies
import NodeTrace.Proofs.Traversals
import NodeTrace.Proofs.Agreement
import NodeTrace.Proofs.Reorderings
import NodeTrace.Proofs.Interleavings
import NodeTrace.Proofs.PartialOutput
import NodeTrace.Proofs.FullSinks
import NodeTrace.Proofs.Canonical
import NodeTrace.Proofs.Insertions
import NodeTrace.Proofs.Labels
import NodeTrace.Proofs.Telling
import NodeTrace.Proofs.GraphText
import NodeTrace.Proofs.Quoting
import NodeTrace.Proofs.Showing
import NodeTrace.Proofs.Registrations
import NodeTrace.Proofs.Means
import NodeTrace.Proofs.Conservation
import NodeTrace.Proofs.ElapsedTime
import NodeTrace.Proofs.ClockOrigins
import NodeTrace.Proofs.Calls
import NodeTrace.Proofs.Offsets
import NodeTrace.Proofs.Progress
import NodeTrace.Proofs.PayloadLimits
import NodeTrace.Proofs.WriteSteps
import NodeTrace.Proofs.UnknownEvents
import NodeTrace.Proofs.Catalogues
import NodeTrace.Proofs.CompactLines
import NodeTrace.Proofs.HumanRecords
import NodeTrace.Proofs.Reports
import NodeTrace.Proofs.Dumps
import NodeTrace.Proofs.IdSets
import NodeTrace.Proofs.Skipping
