import NodeTrace.Automaton.Statistics

/-!
# Metrics

A metric picks one quantity from the statistics of a transition and words it as a label.
-/

namespace NodeTrace

/-- The quantity that labels transitions. -/
inductive Metric where
  | simMicros
  | cycles
  | nodeMillis
  | count
  deriving DecidableEq, Repr

namespace Metric

/-- Every metric, in the order in which they are listed. -/
def all : List Metric := [.simMicros, .cycles, .nodeMillis, .count]

/-- The name by which a metric is chosen. -/
def name : Metric → String
  | .simMicros => "sim_us"
  | .cycles => "cycles"
  | .nodeMillis => "node_ms"
  | .count => "count"

/-- What a metric measures. -/
def description : Metric → String
  | .simMicros => "Simulation time in microseconds"
  | .cycles => "Node time in cycles"
  | .nodeMillis => "Node time in milliseconds"
  | .count => "Number of transitions"

/-- The metric of a name. -/
def ofName? (name : String) : Option Metric := all.find? (·.name = name)

/-- How many places of a mean and of a time in milliseconds are shown. -/
def decimals : Nat := 3

/-- The least sample, the mean and the greatest sample, or that there are none. -/
def aggregateLabel {α : Type} [Sample α] (text : α → String) : Option (Aggregate α) → String
  | none => "n/a"
  | some a => "min=" ++ text a.min ++ " avg=" ++ a.mean.fixed decimals ++ " max=" ++ text a.max

/-- The label of a transition. -/
def label (metric : Metric) (s : Statistics) : String :=
  let whole (n : UInt64) := Digits.decimal n.toNat
  match metric with
  | .simMicros => aggregateLabel whole s.simMicros
  | .cycles => aggregateLabel whole s.cycles
  | .nodeMillis => aggregateLabel (Binary64.fixed decimals) s.nodeMillis
  | .count => "count=" ++ whole s.count

theorem mem_all (metric : Metric) : metric ∈ all := by cases metric <;> decide

theorem ofName?_name (metric : Metric) : ofName? metric.name = some metric := by
  cases metric <;> decide

end Metric

end NodeTrace
