import Mathlib.Data.List.Nodup
import Mathlib.Data.Prod.Basic
import NodeTrace.Proofs.EdgeStatistics

/-!
# The shape of automata

The contexts, the states of a context and the successors of a state stand in the order in which they first came, and none
of them stands twice.  The transitions are, in another order, the distinct moves from one state to the next
(`Automaton.edges_perm`), so they start and end in states of their automaton (`Automaton.Shape`).  All of this holds
after any frames whatever, since observing never fails (`automata_shape`).
-/

namespace NodeTrace

/-- The states of each visit but the last and of the visit that comes next. -/
def moves (vs : List Visit) : List (UInt16 × UInt16) := (steps vs).map fun t => (t.1.state, t.2.state)

/-- The transitions of an automaton, each by its source and its destination. -/
def Automaton.edges (a : Automaton) : List (UInt16 × UInt16) :=
  a.states.flatMap fun n => n.transitions.map fun t => (n.state, t.destination)

/-! ## Moves -/

section Moves

variable {vs : List Visit} {source destination : UInt16}

theorem mem_moves : (source, destination) ∈ moves vs ↔ destination ∈ successors source vs := by
  unfold moves successors
  simp only [List.mem_map, List.mem_filter, decide_eq_true_eq, Prod.mk.injEq]
  constructor
  · rintro ⟨t, ht, hsource, hdestination⟩
    exact ⟨t, ⟨ht, hsource⟩, hdestination⟩
  · rintro ⟨t, ⟨ht, hsource⟩, hdestination⟩
    exact ⟨t, ht, hsource, hdestination⟩

/-- A move is from a state that was visited to a state that was visited. -/
theorem mem_states_of_mem_moves (h : (source, destination) ∈ moves vs) :
    source ∈ vs.map (·.state) ∧ destination ∈ vs.map (·.state) := by
  obtain ⟨t, ht, heq⟩ := List.mem_map.1 h
  obtain ⟨rfl, rfl⟩ := Prod.mk.inj heq
  obtain ⟨h₁, h₂⟩ := mem_of_mem_steps ht
  exact ⟨List.mem_map_of_mem h₁, List.mem_map_of_mem h₂⟩

/-- As many moves between two states as steps between them. -/
theorem length_traversals (source destination : UInt16) (vs : List Visit) :
    (traversals source destination vs).length = (moves vs).count (source, destination) := by
  unfold traversals moves
  rw [List.count, List.countP_map, List.countP_eq_length_filter]
  congr 1
  refine List.filter_congr fun t _ => ?_
  simp only [Bool.decide_and, Function.comp_apply]
  rfl

end Moves

namespace Automaton

variable {context : UInt16} {vs : List Visit}

/-! ## Transitions -/

theorem edges_ofVisits (context : UInt16) (vs : List Visit) : (ofVisits context vs).edges =
    (vs.map (·.state)).eraseDups.flatMap fun source =>
      (successors source vs).eraseDups.map fun destination => (source, destination) := by
  unfold edges ofVisits StateNode.ofVisits
  rw [List.flatMap_map]
  simp only [List.map_map]
  rfl

theorem length_edges (a : Automaton) : a.edges.length = a.transitionCount := by
  unfold edges transitionCount
  rw [List.length_flatMap, List.length_flatMap]
  simp only [List.length_map]

/-- The transitions are the distinct moves, though not in the order of these. -/
theorem edges_perm (context : UInt16) (vs : List Visit) :
    (ofVisits context vs).edges.Perm (moves vs).eraseDups := by
  rw [edges_ofVisits]
  refine (List.perm_ext_iff_of_nodup ?_ (Keyed.nodup_eraseDups (moves vs))).2 ?_
  · -- transitions of one state differ in their destination, those of two states in their source
    refine List.nodup_flatMap.2 ⟨fun source _ => ?_, (Keyed.nodup_eraseDups (vs.map (·.state))).imp ?_⟩
    · exact (Keyed.nodup_eraseDups (successors source vs)).map (Prod.mk_right_injective source)
    · intro p q hne e he he'
      obtain ⟨_, -, rfl⟩ := List.mem_map.1 he
      obtain ⟨_, -, heq⟩ := List.mem_map.1 he'
      exact hne (congrArg Prod.fst heq).symm
  · rintro ⟨source, destination⟩
    simp only [List.mem_flatMap, List.mem_map, List.mem_eraseDups, Prod.mk.injEq]
    constructor
    · rintro ⟨p, -, q, hq, rfl, rfl⟩
      exact mem_moves.2 hq
    · intro h
      have hsource := (mem_states_of_mem_moves h).1
      exact ⟨source, List.mem_map.1 hsource, destination, mem_moves.1 h, rfl, rfl⟩

theorem transitionCount_ofVisits (context : UInt16) (vs : List Visit) :
    (ofVisits context vs).transitionCount = (moves vs).eraseDups.length := by
  rw [← length_edges]
  exact (edges_perm context vs).length_eq

/-- What holds of the statistics of the steps between any two states, where there are some, holds of every
transition. -/
theorem forall_statistics_ofVisits {P : Statistics → Prop} (context : UInt16)
    (h : ∀ source destination, traversals source destination vs ≠ [] →
      P (.ofSteps (traversals source destination vs))) :
    ∀ n ∈ (ofVisits context vs).states, ∀ t ∈ n.transitions, P t.statistics := by
  intro n hn t ht
  obtain ⟨source, -, rfl⟩ := List.mem_map.1 hn
  obtain ⟨destination, hd, rfl⟩ := List.mem_map.1 ht
  exact h source destination (mem_successors.1 (List.mem_eraseDups.1 hd))

/-! ## States -/

theorem map_state_ofVisits (context : UInt16) (vs : List Visit) :
    (ofVisits context vs).states.map (·.state) = (vs.map (·.state)).eraseDups := by
  unfold ofVisits
  rw [List.map_map]
  exact List.map_id _

/-- What an automaton looks like after the visits of its context. -/
structure Shape (a : Automaton) (vs : List Visit) : Prop where
  /-- The states are those of the visits, in the order in which they were first entered. -/
  states : a.states.map (·.state) = (vs.map (·.state)).eraseDups
  states_nodup : (a.states.map (·.state)).Nodup
  /-- The transitions of a state lead to its successors, in the order in which they were first taken. -/
  transitions : ∀ n ∈ a.states, n.transitions.map (·.destination) = (successors n.state vs).eraseDups
  transitions_nodup : ∀ n ∈ a.states, (n.transitions.map (·.destination)).Nodup
  /-- A transition leads to a state. -/
  closed : ∀ n ∈ a.states, ∀ t ∈ n.transitions, t.destination ∈ a.states.map (·.state)
  /-- The automaton is in the state of the last visit, which remembers the scope of that visit. -/
  last : ∃ v n, vs.getLast? = some v ∧ a.lastState = some v.state ∧ n ∈ a.states ∧ n.state = v.state ∧
    n.lastScope = v.scope
  /-- There are as many transitions as distinct moves. -/
  transitionCount : a.transitionCount = (moves vs).eraseDups.length

theorem shape_ofVisits (context : UInt16) (hvs : vs ≠ []) : (ofVisits context vs).Shape vs where
  states := map_state_ofVisits context vs
  states_nodup := by
    rw [map_state_ofVisits]
    exact Keyed.nodup_eraseDups _
  transitions n hn := by
    obtain ⟨state, -, rfl⟩ := List.mem_map.1 hn
    unfold StateNode.ofVisits
    rw [List.map_map]
    exact List.map_id _
  transitions_nodup n hn := by
    obtain ⟨state, -, rfl⟩ := List.mem_map.1 hn
    unfold StateNode.ofVisits
    rw [List.map_map]
    exact (Keyed.nodup_eraseDups _).map Function.injective_id
  closed n hn t ht := by
    obtain ⟨state, -, rfl⟩ := List.mem_map.1 hn
    obtain ⟨destination, hd, rfl⟩ := List.mem_map.1 ht
    have hmove := mem_moves.2 (List.mem_eraseDups.1 hd)
    rw [map_state_ofVisits, List.mem_eraseDups]
    exact (mem_states_of_mem_moves hmove).2
  last := by
    obtain ⟨v, hv⟩ := List.getLast?_isSome.2 hvs |> Option.isSome_iff_exists.1
    have hmem : v.state ∈ (vs.map (·.state)).eraseDups :=
      List.mem_eraseDups.2 (List.mem_map_of_mem (List.mem_of_getLast? hv))
    refine ⟨v, StateNode.ofVisits vs v.state, hv, ?_, List.mem_map_of_mem hmem, rfl, StateNode.lastScope_last hv⟩
    unfold ofVisits
    rw [hv]
    rfl
  transitionCount := transitionCount_ofVisits context vs

end Automaton

/-! ## All contexts -/

/-- A context with a state change has a visit. -/
theorem visits_ne_nil {context : UInt16} {frames : List Frame} (h : context ∈ contexts frames) :
    visits context frames ≠ [] := by
  obtain ⟨f, hf, hc⟩ := List.mem_filterMap.1 h
  unfold visits
  intro hnil
  have hnone := List.filterMap_eq_nil_iff.1 hnil f hf
  unfold Frame.context? at hc
  unfold Frame.visit? at hnone
  cases he : f.event with
  | monitorState change =>
    rw [he] at hc hnone
    dsimp only at hc hnone
    rw [if_pos (Option.some.inj hc)] at hnone
    cases hnone
  | _ =>
    rw [he] at hc
    cases hc

theorem Automata.map_context_observed (frames : List Frame) :
    (observed frames).automata.map (·.context) = (contexts frames).eraseDups := by
  unfold observed
  rw [List.map_map]
  exact List.map_id _

/-- Handling one more frame is having observed one more frame. -/
theorem Automata.handle_observed (frames : List Frame) (f : Frame) :
    handler.handle f (observed frames) = .ok () (observed (frames ++ [f])) := by
  rw [handle_eq, add_observed]

/-- After any frames, no action of the handler fails; the contexts stand in the order of their first state changes, none
of them twice; and each automaton has the shape that the visits of its context give it. -/
theorem automata_shape (frames : List Frame) : ∃ m, Automata.ofFrames frames = .ok m ∧
    (∀ f, ∃ m', Automata.handler.handle f m = .ok () m' ∧ Automata.ofFrames (frames ++ [f]) = .ok m') ∧
    m.automata.map (·.context) = (contexts frames).eraseDups ∧ (m.automata.map (·.context)).Nodup ∧
    ∀ a ∈ m.automata, a.Shape (visits a.context frames) := by
  refine ⟨_, Automata.ofFrames_eq frames, fun f => ?_, Automata.map_context_observed frames, ?_, ?_⟩
  · exact ⟨_, Automata.handle_observed frames f, Automata.ofFrames_eq (frames ++ [f])⟩
  · rw [Automata.map_context_observed]
    exact Keyed.nodup_eraseDups _
  · intro a ha
    obtain ⟨context, hc, rfl⟩ := List.mem_map.1 ha
    exact Automaton.shape_ofVisits context (visits_ne_nil (List.mem_eraseDups.1 hc))

end NodeTrace
