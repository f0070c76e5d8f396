import NodeTrace.Proofs.Dispatch
import NodeTrace.Proofs.Rescoping
import NodeTrace.Proofs.Shape

/-!
# Where clocks begin to count

A clock may begin to count anywhere, since all that is kept of it are differences.  The simulated time of each context
may have an origin of its own, and so may the cycles that a context reads of each node: only readings of one node are
compared, and only where both scopes have them.  Differences and readings are taken modulo 2 ^ 64.
-/

namespace NodeTrace

/-- How far clocks are set forward: the simulated time of a context, and the cycles that a context reads of a node. -/
structure Origins where
  simulation : UInt16 → UInt64
  cycles : UInt16 → UInt16 → UInt64

/-- The clocks with this many more cycles. -/
def NodeTime.after (t : NodeTime) (n : UInt64) : NodeTime := { t with cycles := t.cycles + n }

namespace Origins

/-- The scope by clocks that are set forward; what the scope does not have is not changed. -/
def scope (o : Origins) (context : UInt16) (s : Scope) : Scope :=
  { s with
    simMicros := if s.kinds.simulation then s.simMicros + o.simulation context else s.simMicros
    nodeTime := if s.kinds.node then s.nodeTime.after (o.cycles context s.nodeId) else s.nodeTime }

/-- The frame by clocks that are set forward, if it reports a state change; other frames are not changed. -/
def frame (o : Origins) (f : Frame) : Frame := { f with scope := f.context?.elim f.scope (o.scope · f.scope) }

variable (o : Origins) (context : UInt16)

theorem simulationDelta_scope (source destination : Scope) :
    Statistics.simulationDelta (o.scope context source) (o.scope context destination) =
      Statistics.simulationDelta source destination := by
  have hdelta : (destination.simMicros + o.simulation context) - (source.simMicros + o.simulation context) =
      destination.simMicros - source.simMicros := by
    grind
  unfold Statistics.simulationDelta Scope.simulation? scope
  by_cases h₁ : source.kinds.simulation = true <;> by_cases h₂ : destination.kinds.simulation = true <;>
    simp [h₁, h₂, hdelta]

/-- Readings of one node are set forward by one constant, readings of two nodes are not compared. -/
theorem nodeClocks_scope (source destination : Scope) :
    Statistics.nodeClocks (o.scope context source) (o.scope context destination) =
      (Statistics.nodeClocks source destination).map
        (Prod.map (·.after (o.cycles context source.nodeId)) (·.after (o.cycles context source.nodeId))) := by
  rw [Statistics.nodeClocks_eq, Statistics.nodeClocks_eq]
  unfold scope
  dsimp only
  by_cases h : source.kinds.node = true ∧ destination.kinds.node = true ∧ source.nodeId = destination.nodeId
  · rw [if_pos h, if_pos h, if_pos h.1, if_pos h.2.1, ← h.2.2]
    rfl
  · rw [if_neg h, if_neg h]
    rfl

theorem cyclesDelta_scope (source destination : Scope) :
    Statistics.cyclesDelta (o.scope context source) (o.scope context destination) =
      Statistics.cyclesDelta source destination := by
  have hdelta (start stop : NodeTime) (n : UInt64) :
      (stop.after n).cycles - (start.after n).cycles = stop.cycles - start.cycles := by
    unfold NodeTime.after
    grind
  unfold Statistics.cyclesDelta
  rw [nodeClocks_scope, Option.map_map]
  congr 1
  funext clocks
  exact hdelta clocks.1 clocks.2 _

theorem millisDelta_scope (source destination : Scope) :
    Statistics.millisDelta (o.scope context source) (o.scope context destination) =
      Statistics.millisDelta source destination := by
  unfold Statistics.millisDelta
  rw [nodeClocks_scope, Option.map_map]
  rfl

theorem keepsTimes_scope : Scope.KeepsTimes (o.scope context) where
  take s source destination := by
    unfold Statistics.take
    rw [simulationDelta_scope, millisDelta_scope, cyclesDelta_scope]
  initial := rfl

theorem visit?_frame (f : Frame) :
    (o.frame f).visit? context = (f.visit? context).map (Visit.rescope (o.scope context)) := by
  unfold frame Frame.visit? Frame.context?
  cases f.event with
  | monitorState change =>
    dsimp only
    by_cases h : change.context = context
    · rw [if_pos h, if_pos h, ← h]
      rfl
    · rw [if_neg h, if_neg h]
      rfl
  | _ => rfl

theorem contexts_map_frame (frames : List Frame) : contexts (frames.map o.frame) = contexts frames := by
  unfold contexts
  rw [List.filterMap_map]
  rfl

theorem visits_map_frame (frames : List Frame) :
    visits context (frames.map o.frame) = (visits context frames).map (Visit.rescope (o.scope context)) := by
  unfold visits
  rw [List.filterMap_map, List.map_filterMap]
  exact List.filterMap_congr fun f _ => o.visit?_frame context f

end Origins

/-- Clocks that are set forward, in each context by constants of its own and each node by its own, leave the same
automata: the same contexts, states and transitions in the same order, with the same counts and the same times.  Only the
scopes in which states were entered last are told by the other clocks.  So all graphs are the same. -/
theorem origins_irrelevant (o : Origins) (frames : List Frame) : ∃ m,
    Automata.handler.handleAll .endOfStream 0 frames {} = (.ok frames.length, m) ∧
    Automata.handler.handleAll .endOfStream 0 (frames.map o.frame) {} = (.ok frames.length, m.rescope o.scope) ∧
    ∀ names metric, (m.rescope o.scope).lines names metric = m.lines names metric := by
  have hmoved : Automata.observed (frames.map o.frame) = (Automata.observed frames).rescope o.scope :=
    Automata.observed_rescope o.keepsTimes_scope (o.contexts_map_frame frames) fun context =>
      o.visits_map_frame context frames
  have hruns := Handler.handleAll_endOfStream Automata.handle_observed (frames.map o.frame)
  rw [List.length_map] at hruns
  rw [hmoved] at hruns
  exact ⟨_, Handler.handleAll_endOfStream Automata.handle_observed frames, hruns, fun names metric =>
    Automata.lines_rescope names metric o.scope _⟩

end NodeTrace
