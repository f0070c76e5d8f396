import NodeTrace.Binary64

/-!
# Scopes

The scope of an event says when and where it was recorded: at a time of the simulation, on a node at a time
of its own clocks, or neither.  `kinds` tells which of the other fields count; the accessors
`simulation?` and `node?` hide the fields that do not.
-/

namespace NodeTrace

/-- Which kinds of scope element a scope was made from.  Only these three flags of the mask are represented: its other
five bits have no name, nothing sets them, and nothing reads them. -/
structure ScopeKinds where
  /-- At least one element had a tag without a meaning. -/
  unknown : Bool := false
  simulation : Bool := false
  node : Bool := false
  deriving DecidableEq, Repr

/-- Processor cycles and milliseconds since a node booted. -/
structure NodeTime where
  cycles : UInt64 := 0
  millis : Binary64 := .zero
  deriving DecidableEq, Repr

/-- When and where an event was recorded. -/
structure Scope where
  kinds : ScopeKinds := {}
  /-- Microseconds of simulated time, if `kinds.simulation`. -/
  simMicros : UInt64 := 0
  /-- The node, if `kinds.node`. -/
  nodeId : UInt16 := 0
  /-- The clocks of the node, if `kinds.node`. -/
  nodeTime : NodeTime := {}
  deriving DecidableEq, Repr

namespace Scope

/-- The simulated time, if the scope has one. -/
def simulation? (s : Scope) : Option UInt64 :=
  if s.kinds.simulation then some s.simMicros else none

/-- The node and its clocks, if the scope has them. -/
def node? (s : Scope) : Option (UInt16 × NodeTime) :=
  if s.kinds.node then some (s.nodeId, s.nodeTime) else none

/-- Add a simulation element; it replaces the simulated time of an earlier one. -/
def withSimulation (s : Scope) (micros : UInt64) : Scope :=
  { s with simMicros := micros, kinds := { s.kinds with simulation := true } }

/-- Add a node element; it replaces the node and the clocks of an earlier one. -/
def withNode (s : Scope) (id : UInt16) (time : NodeTime) : Scope :=
  { s with nodeId := id, nodeTime := time, kinds := { s.kinds with node := true } }

/-- Add an element whose tag has no meaning. -/
def withUnknown (s : Scope) : Scope :=
  { s with kinds := { s.kinds with unknown := true } }

end Scope

end NodeTrace
