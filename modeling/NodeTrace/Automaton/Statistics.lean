import NodeTrace.Event

/-!
# Statistics of a transition

Each time a transition is taken, the time that passed on it is a sample: the difference between the scope in
which its source was entered and the scope in which its destination is entered.  Simulated time is compared
if both scopes have it, the clocks of a node if both scopes are on the same node.  `Aggregate` keeps the sum,
the least, the greatest and the number of the samples of one quantity.
-/

namespace NodeTrace

/-- A quantity whose samples are aggregated.  Whole numbers add up modulo 2 ^ 64. -/
class Sample (α : Type) where
  add : α → α → α
  less : α → α → Bool
  toDouble : α → Binary64

instance : Sample UInt64 := ⟨(· + ·), fun x y => x < y, .ofUInt64⟩

instance : Sample Binary64 := ⟨(· + ·), Binary64.lt, id⟩

/-- Sum, least, greatest and number of the samples of one quantity. -/
structure Aggregate (α : Type) where
  sum : α
  min : α
  max : α
  samples : UInt64
  deriving DecidableEq, Repr

namespace Aggregate

variable {α : Type} [Sample α]

/-- The aggregate of one sample. -/
def single (x : α) : Aggregate α := ⟨x, x, x, 1⟩

/-- Add a sample. -/
def add (a : Aggregate α) (x : α) : Aggregate α where
  sum := Sample.add a.sum x
  min := if Sample.less x a.min then x else a.min
  max := if Sample.less a.max x then x else a.max
  samples := a.samples + 1

/-- Add a sample to an aggregate that exists once there is a sample. -/
def record (a : Option (Aggregate α)) (x : α) : Option (Aggregate α) :=
  some (a.elim (single x) (·.add x))

/-- The mean of the samples. -/
def mean (a : Aggregate α) : Binary64 := Sample.toDouble a.sum / .ofUInt64 a.samples

/-- The aggregate of a list of samples, in their order. -/
def ofList (samples : List α) : Option (Aggregate α) := samples.foldl record none

@[simp] theorem ofList_nil : ofList ([] : List α) = none := rfl

theorem ofList_concat (samples : List α) (x : α) :
    ofList (samples ++ [x]) = record (ofList samples) x := by
  simp [ofList, List.foldl_append]

theorem isSome_record (a : Option (Aggregate α)) (x : α) : (record a x).isSome := rfl

end Aggregate

/-- What is known of a transition: how often it was taken, and the times that passed on it. -/
structure Statistics where
  count : UInt64 := 0
  simMicros : Option (Aggregate UInt64) := none
  nodeMillis : Option (Aggregate Binary64) := none
  cycles : Option (Aggregate UInt64) := none
  deriving DecidableEq, Repr

namespace Statistics

/-- The simulated time that passed between two scopes, if both have one. -/
def simulationDelta (source destination : Scope) : Option UInt64 :=
  match source.simulation?, destination.simulation? with
  | some start, some stop => some (stop - start)
  | _, _ => none

/-- The clocks of two scopes on the same node.  Clocks of different nodes are not compared. -/
def nodeClocks (source destination : Scope) : Option (NodeTime × NodeTime) :=
  match source.node?, destination.node? with
  | some (here, start), some (there, stop) => if here = there then some (start, stop) else none
  | _, _ => none

/-- The milliseconds that passed on a node between two scopes. -/
def millisDelta (source destination : Scope) : Option Binary64 :=
  (nodeClocks source destination).map fun (start, stop) => stop.millis - start.millis

/-- The cycles that passed on a node between two scopes. -/
def cyclesDelta (source destination : Scope) : Option UInt64 :=
  (nodeClocks source destination).map fun (start, stop) => stop.cycles - start.cycles

/-- Add a sample, if there is one. -/
def record? {α : Type} [Sample α] (a : Option (Aggregate α)) (x : Option α) : Option (Aggregate α) :=
  x.elim a (Aggregate.record a)

/-- The transition is taken between two scopes. -/
def take (s : Statistics) (source destination : Scope) : Statistics where
  count := s.count + 1
  simMicros := record? s.simMicros (simulationDelta source destination)
  nodeMillis := record? s.nodeMillis (millisDelta source destination)
  cycles := record? s.cycles (cyclesDelta source destination)

end Statistics

end NodeTrace
