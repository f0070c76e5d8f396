import Mathlib.Data.Nat.ModEq
import Mathlib.Logic.Relation
import NodeTrace.Proofs.Traversals

/-!
# An automaton is a walk

The states that a context visits are a walk along the transitions of its automaton, from the first state to the last.  So
every state lies between these two (`Automaton.reaches_ofVisits`), and what is counted on the transitions into a state and
on those out of it is how often the state was visited, but for the two ends of the walk (`Automaton.balanced_ofVisits`).
A self loop counts on both sides.  The counts balance as long as no counter has run over, and modulo 2 ^ 64 in any case.
-/

namespace NodeTrace

/-- How often transitions to a state were taken. -/
def Automaton.takenInto (state : UInt16) (a : Automaton) : Nat := a.takenAlong fun e => e.2 = state

/-- How often transitions from a state were taken. -/
def Automaton.takenOutOf (state : UInt16) (a : Automaton) : Nat := a.takenAlong fun e => e.1 = state

/-- A way along transitions leads from one state to another. -/
def Automaton.Reaches (a : Automaton) : UInt16 → UInt16 → Prop :=
  Relation.ReflTransGen fun source destination => (source, destination) ∈ a.edges

/-- The counts of the transitions are those of a walk through the states of `vs`, where `same` compares numbers. -/
structure Automaton.Balanced (same : Nat → Nat → Prop) (a : Automaton) (vs : List Visit) (first last : UInt16) : Prop where
  into : ∀ state, same ((vs.map (·.state)).count state) (a.takenInto state + if first = state then 1 else 0)
  outOf : ∀ state, same ((vs.map (·.state)).count state) (a.takenOutOf state + if last = state then 1 else 0)
  all : same vs.length (a.taken + 1)

/-- How many samples an aggregate has; without one there are none. -/
def Aggregate.samplesOf {α : Type} (a : Option (Aggregate α)) : UInt64 := a.elim 0 (·.samples)

/-- There are at most as many samples as traversals, and the clocks of a node are sampled together. -/
structure Statistics.Sampled (s : Statistics) : Prop where
  taken : 1 ≤ s.count
  simMicros : Aggregate.samplesOf s.simMicros ≤ s.count
  together : Aggregate.samplesOf s.nodeMillis = Aggregate.samplesOf s.cycles
  cycles : Aggregate.samplesOf s.cycles ≤ s.count

/-! ## The walk -/

section Walk

variable {vs : List Visit} {first last : Visit}

/-- One more visit makes one more move. -/
theorem moves_concat {u : Visit} (h : vs.getLast? = some u) (v : Visit) :
    moves (vs ++ [v]) = moves vs ++ [(u.state, v.state)] := by
  unfold moves
  rw [steps_concat h, List.map_append]
  rfl

/-- A state is visited once for each move to it, and once more if the walk starts there; once for each move from it, and
once more if the walk ends there. -/
theorem count_states (hfirst : vs.head? = some first) (hlast : vs.getLast? = some last) (state : UInt16) :
    (vs.map (·.state)).count state =
        (moves vs).countP (fun e => e.2 = state) + (if first.state = state then 1 else 0) ∧
      (vs.map (·.state)).count state =
        (moves vs).countP (fun e => e.1 = state) + (if last.state = state then 1 else 0) := by
  induction vs using List.reverseRecOn generalizing last with
  | nil => cases hfirst
  | append_singleton vs v ih =>
    obtain rfl : v = last := Option.some.inj (List.getLast?_concat.symm.trans hlast)
    cases hu : vs.getLast? with
    | none =>
      obtain rfl := List.getLast?_eq_none_iff.1 hu
      obtain rfl : v = first := Option.some.inj hfirst
      have hmoves : moves [v] = [] := rfl
      simp only [List.nil_append, List.map_cons, List.map_nil, List.count_singleton, hmoves, List.countP_nil,
        Nat.zero_add, beq_iff_eq, and_self]
    | some u =>
      have hne : vs ≠ [] := List.ne_nil_of_mem (List.mem_of_getLast? hu)
      rw [List.head?_append_of_ne_nil _ hne] at hfirst
      obtain ⟨hinto, houtOf⟩ := ih hfirst hu
      rw [moves_concat hu, List.map_append, List.count_append, List.countP_append, List.countP_append]
      simp only [List.map_cons, List.map_nil, List.count_singleton, List.countP_singleton, beq_iff_eq, decide_eq_true_eq]
      omega

/-- Every visited state lies between the first and the last. -/
theorem reaches_moves (hfirst : vs.head? = some first) (hlast : vs.getLast? = some last) {state : UInt16}
    (hstate : state ∈ vs.map (·.state)) :
    Relation.ReflTransGen (fun s d => (s, d) ∈ moves vs) first.state state ∧
      Relation.ReflTransGen (fun s d => (s, d) ∈ moves vs) state last.state := by
  induction vs using List.reverseRecOn generalizing last state with
  | nil => cases hfirst
  | append_singleton vs v ih =>
    obtain rfl : v = last := Option.some.inj (List.getLast?_concat.symm.trans hlast)
    cases hu : vs.getLast? with
    | none =>
      obtain rfl := List.getLast?_eq_none_iff.1 hu
      obtain rfl : v = first := Option.some.inj hfirst
      obtain rfl : state = v.state := List.mem_singleton.1 hstate
      exact ⟨.refl, .refl⟩
    | some u =>
      have hmem : u ∈ vs := List.mem_of_getLast? hu
      rw [List.head?_append_of_ne_nil _ (List.ne_nil_of_mem hmem)] at hfirst
      have hmoves := moves_concat hu v
      have hstep : (u.state, v.state) ∈ moves (vs ++ [v]) := by
        rw [hmoves]
        exact List.mem_concat_self
      have hlift {s d : UInt16} (h : Relation.ReflTransGen (fun s d => (s, d) ∈ moves vs) s d) :
          Relation.ReflTransGen (fun s d => (s, d) ∈ moves (vs ++ [v])) s d := by
        refine Relation.ReflTransGen.mono (fun _ _ hmem => ?_) _ _ h
        rw [hmoves]
        exact List.mem_append_left _ hmem
      rw [List.map_append] at hstate
      rcases List.mem_append.1 hstate with hpast | hnew
      · obtain ⟨hfrom, hto⟩ := ih hfirst hu hpast
        exact ⟨hlift hfrom, (hlift hto).tail hstep⟩
      · obtain rfl : state = v.state := List.mem_singleton.1 hnew
        obtain ⟨hfrom, -⟩ := ih hfirst hu (List.mem_map_of_mem hmem)
        exact ⟨(hlift hfrom).tail hstep, .refl⟩

end Walk

/-! ## Automata of visits -/

namespace Automaton

variable {vs : List Visit} {first last : Visit}

theorem mem_edges_ofVisits {context : UInt16} {e : UInt16 × UInt16} : e ∈ (ofVisits context vs).edges ↔ e ∈ moves vs := by
  rw [(edges_perm context vs).mem_iff, List.mem_eraseDups]

theorem reaches_ofVisits (context : UInt16) (hfirst : vs.head? = some first) (hlast : vs.getLast? = some last) :
    ∀ n ∈ (ofVisits context vs).states,
      (ofVisits context vs).Reaches first.state n.state ∧ (ofVisits context vs).Reaches n.state last.state := by
  intro n hn
  have hstate : n.state ∈ (ofVisits context vs).states.map (·.state) := List.mem_map_of_mem hn
  rw [map_state_ofVisits, List.mem_eraseDups] at hstate
  unfold Reaches
  simp only [mem_edges_ofVisits]
  exact reaches_moves hfirst hlast hstate

/-- If the transitions count the moves, the counts balance. -/
theorem balanced_ofVisits {same : Nat → Nat → Prop} (hsame : ∀ {n k}, same n k → ∀ c, same (n + c) (k + c))
    {context : UInt16} (htaken : ∀ p, same ((moves vs).countP p) ((ofVisits context vs).takenAlong p))
    (hfirst : vs.head? = some first) (hlast : vs.getLast? = some last) :
    (ofVisits context vs).Balanced same vs first.state last.state where
  into state := by
    rw [(count_states hfirst hlast state).1]
    exact hsame (htaken _) _
  outOf state := by
    rw [(count_states hfirst hlast state).2]
    exact hsame (htaken _) _
  all := by
    have hmoves := length_moves vs
    have hpos : 0 < vs.length := List.length_pos_of_mem (List.mem_of_getLast? hlast)
    have hlen : vs.length = (moves vs).countP (fun _ => true) + 1 := by
      rw [List.countP_true]
      omega
    rw [hlen, ← takenAlong_true]
    exact hsame (htaken _) 1

end Automaton

/-! ## Samples -/

theorem Aggregate.samplesOf_ofList {α : Type} [Sample α] (xs : List α) :
    samplesOf (ofList xs) = UInt64.ofNat xs.length := by
  cases h : ofList xs with
  | none =>
    rw [ofList_eq_none_iff.1 h]
    rfl
  | some g => exact ofList_samples h

theorem Statistics.sampled_ofSteps {ts : List (Visit × Visit)} (hne : ts ≠ []) (hlen : ts.length < UInt64.size) :
    (Statistics.ofSteps ts).Sampled := by
  have hofNat {n : Nat} (h : n ≤ ts.length) : UInt64.ofNat n ≤ UInt64.ofNat ts.length := by
    rw [UInt64.le_iff_toNat_le, UInt64.toNat_ofNat_of_lt' (by omega), UInt64.toNat_ofNat_of_lt' hlen]
    exact h
  have hsim : (simulationTimes ts).length ≤ ts.length := by
    rw [simulationTimes, List.length_map]
    exact List.length_filter_le _ _
  have hnode : (onOneNode ts).length ≤ ts.length := List.length_filter_le _ _
  have hcycles : (cycleTimes ts).length = (onOneNode ts).length := List.length_map _
  have hmillis : (millisTimes ts).length = (onOneNode ts).length := List.length_map _
  rw [ofSteps_eq]
  constructor
  · exact hofNat (List.length_pos_iff.2 hne)
  · rw [Aggregate.samplesOf_ofList]
    exact hofNat hsim
  · rw [Aggregate.samplesOf_ofList, Aggregate.samplesOf_ofList, hcycles, hmillis]
  · rw [Aggregate.samplesOf_ofList, hcycles]
    exact hofNat hnode

theorem Automaton.sampled_ofVisits (context : UInt16) {vs : List Visit} (hlen : vs.length ≤ UInt64.size) :
    ∀ n ∈ (ofVisits context vs).states, ∀ t ∈ n.transitions, t.statistics.Sampled := by
  refine forall_statistics_ofVisits context fun source destination hne => Statistics.sampled_ofSteps hne ?_
  rw [length_traversals]
  exact count_moves_lt hlen _

/-! ## Contexts -/

/-- Observing state changes never fails.  In every context every state can be reached from the first state and reaches
the last, along transitions.  A state is visited as often as transitions into it were taken, and once more if it is the
first; as often as transitions out of it were taken, and once more if it is the last; and all transitions together were
taken once less than states were visited.  This holds modulo 2 ^ 64, and of the numbers themselves if the context has at
most 2 ^ 64 visits; then also every transition was taken, and at most as many times were sampled on it. -/
theorem traversals_conserved (frames : List Frame) : ∃ m, Automata.ofFrames frames = .ok m ∧
    ∀ (context : UInt16) (first last : Visit),
      (visits context frames).head? = some first → (visits context frames).getLast? = some last →
      ∃ a, m.automaton? context = some a ∧
        (∀ n ∈ a.states, a.Reaches first.state n.state ∧ a.Reaches n.state last.state) ∧
        a.Balanced (Nat.ModEq UInt64.size) (visits context frames) first.state last.state ∧
        ((visits context frames).length ≤ UInt64.size →
          a.Balanced Eq (visits context frames) first.state last.state ∧
          ∀ n ∈ a.states, ∀ t ∈ n.transitions, t.statistics.Sampled) := by
  refine ⟨_, Automata.ofFrames_eq frames, fun context first last hfirst hlast => ?_⟩
  have hcontext : context ∈ contexts frames := by
    by_contra hnot
    rw [visits_of_not_mem hnot] at hfirst
    cases hfirst
  refine ⟨.ofVisits context (visits context frames), ?_, Automaton.reaches_ofVisits context hfirst hlast, ?_, fun hlen => ?_⟩
  · rw [Automata.automaton?_observed, if_pos hcontext]
  · refine Automaton.balanced_ofVisits (fun h c => Nat.ModEq.add_right c h) (fun p => ?_) hfirst hlast
    exact (Automaton.takenAlong_mod p context _).symm
  · refine ⟨Automaton.balanced_ofVisits (fun h c => congrArg (· + c) h) (fun p => ?_) hfirst hlast,
      Automaton.sampled_ofVisits context hlen⟩
    exact (Automaton.takenAlong_ofVisits p context hlen).symm

/-- A walk from state 5 to state 6, round the loop at 6 and back to 5, with another context on the way. -/
def walkFrames : List Frame :=
  [⟨{ kinds := { simulation := true }, simMicros := 10 }, .monitorState ⟨1, 0, 5⟩⟩,
    ⟨{ kinds := { simulation := true }, simMicros := 12 }, .monitorState ⟨1, 0, 6⟩⟩,
    ⟨{}, .monitorState ⟨2, 0, 5⟩⟩,
    ⟨{}, .monitorState ⟨1, 0, 6⟩⟩,
    ⟨{}, .monitorState ⟨1, 0, 5⟩⟩]

theorem traversals_conserved_walk : ∃ m a, Automata.ofFrames walkFrames = .ok m ∧ m.automaton? 1 = some a ∧
    (∀ n ∈ a.states, a.Reaches 5 n.state ∧ a.Reaches n.state 5) ∧ a.Balanced Eq (visits 1 walkFrames) 5 5 ∧
    a.takenInto 6 = 2 ∧ a.takenOutOf 6 = 2 ∧ a.takenInto 5 = 1 ∧ a.taken = 3 ∧
    ∀ n ∈ a.states, ∀ t ∈ n.transitions, t.statistics.Sampled := by
  obtain ⟨m, hm, hcontexts⟩ := traversals_conserved walkFrames
  obtain ⟨a, ha, hreaches, -, hunwrapped⟩ :=
    hcontexts 1 ⟨{ kinds := { simulation := true }, simMicros := 10 }, 5⟩ ⟨{}, 5⟩ rfl rfl
  obtain ⟨hbalanced, hsampled⟩ := hunwrapped (by decide)
  refine ⟨m, a, hm, ha, hreaches, hbalanced, ?_, ?_, ?_, ?_, hsampled⟩
  · exact (hbalanced.into 6).symm
  · exact (hbalanced.outOf 6).symm
  · exact Nat.succ_injective (hbalanced.into 5).symm
  · exact Nat.succ_injective hbalanced.all.symm

end NodeTrace
