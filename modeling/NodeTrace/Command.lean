import NodeTrace.Analysis
import NodeTrace.Options
import NodeTrace.Text.Quoted

/-!
# Commands

Options ask for one of three things: a list of the output modes, a list of the metrics, or a job, which is
the analysis of one trace file.
-/

namespace NodeTrace

/-- One analysis of one trace file. -/
structure Job where
  analysis : Analysis
  /-- Show ids by their names. -/
  resolveNames : Bool := true
  /-- A names file that adds to the built-in names. -/
  namesFile : Option String := none
  payloadLimit : Nat := Format.defaultPayloadLimit
  traceFile : String
  deriving DecidableEq, Repr

/-- What options ask for. -/
inductive Command where
  | listModes
  | listMetrics
  | run (job : Job)
  deriving DecidableEq, Repr

/-- Why options ask for nothing that can be done. -/
inductive CommandError where
  | unknownMode (name : String)
  | unknownMetric (name : String)
  | noTraceFile
  deriving DecidableEq, Repr

/-- The wording of a command error. -/
def CommandError.message : CommandError → String
  | .unknownMode name =>
    "output mode " ++ Text.quoted name ++ " not found, use list or ? to display available modes"
  | .unknownMetric name =>
    "graph metric " ++ Text.quoted name ++ " not found, use list or ? to display available metrics"
  | .noTraceFile => "expected a trace file"

namespace Options

/-- A name that asks for the list of the names that there are. -/
def asksForList (name : String) : Bool := name = "list" ∨ name = "?"

/-- The command that options ask for.  The output mode is looked at first, then the metric, then the trace
file. -/
def command (o : Options) : Except CommandError Command := do
  if asksForList o.output then return .listModes
  let some mode := Mode.ofName? o.output | throw (.unknownMode o.output)
  let job (metric : Option Metric) : Except CommandError Command := do
    let some traceFile := o.traceFile | throw .noTraceFile
    return .run {
      analysis := { mode, metric, human := o.human }
      resolveNames := !o.noNames
      namesFile := o.namesFile
      payloadLimit := o.payloadLimit
      traceFile }
  match o.metric with
  | none => job none
  | some name =>
    if asksForList name then return .listMetrics
    match Metric.ofName? name with
    | none => throw (.unknownMetric name)
    | some metric => job metric

end Options

end NodeTrace
