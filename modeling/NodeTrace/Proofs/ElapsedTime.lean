import Mathlib.Data.Nat.ModEq
import NodeTrace.Proofs.Interleavings
import NodeTrace.Proofs.Means
import NodeTrace.Proofs.Traversals

/-!
# No time is lost and none is counted twice

Every step of a context belongs to one transition, so the sums of all transitions come to what passes on all steps
(`Automaton.sumsOf_ofVisits`).  A step begins where the one before it has ended, whichever transitions the two belong to.
So what passes on all steps is what a clock shows in the end less what it showed at first (`total_elapsed`).  Both hold
modulo 2 ^ 64, as sums and differences are kept.
-/

namespace NodeTrace

/-- What the sums of a quantity on all transitions come to; a transition without samples adds nothing. -/
def Automaton.sumsOf (quantity : Statistics → Option (Aggregate UInt64)) (a : Automaton) : Nat :=
  ((a.states.flatMap (·.transitions)).map fun t => (quantity t.statistics).elim 0 (·.sum.toNat)).sum

/-- A quantity has samples on every transition, and its sums come to the time from one reading of a clock to another. -/
structure Automaton.Elapses (quantity : Statistics → Option (Aggregate UInt64)) (start stop : UInt64) (a : Automaton) :
    Prop where
  sampled : ∀ n ∈ a.states, ∀ t ∈ n.transitions, (quantity t.statistics).isSome
  sum : a.sumsOf quantity ≡ (stop - start).toNat [MOD UInt64.size]

/-- What passes by a clock on the steps with `p`. -/
def elapsed (p : Visit × Visit → Bool) (reading : Visit → UInt64) (ts : List (Visit × Visit)) : List UInt64 :=
  (ts.filter p).map fun t => reading t.2 - reading t.1

/-! ## Lists in groups -/

/-- The groups of a list by a key have together what the list has. -/
theorem Keyed.flatMap_filter_perm {κ α : Type} [inst : BEq κ] [LawfulBEq κ] [DecidableEq α] (key : α → κ)
    (xs : List α) : ((xs.map key).eraseDups.flatMap fun k => xs.filter (key · == k)).Perm xs := by
  have : DecidableEq κ := instDecidableEqOfLawfulBEq
  -- there is only one lawful test for equality
  obtain rfl : inst = instBEqOfDecidableEq := lawful_beq_subsingleton inst instBEqOfDecidableEq
  refine List.perm_iff_count.2 fun x => ?_
  have hother : ∀ k, k ≠ key x → k ∈ (xs.map key).eraseDups → (xs.filter (key · == k)).count x = 0 := by
    intro k hk _
    refine List.count_eq_zero.2 fun hmem => hk ?_
    exact (eq_of_beq (List.mem_filter.1 hmem).2).symm
  have hown : (xs.filter (key · == key x)).count x = xs.count x := List.count_filter (beq_self_eq_true (key x))
  rw [List.count_flatMap, Function.comp_def, List.sum_map_eq_nsmul_single (key x) _ hother, hown, Nat.nsmul_eq_mul]
  by_cases hx : x ∈ xs
  · have hmem : key x ∈ (xs.map key).eraseDups := List.mem_eraseDups.2 (List.mem_map_of_mem hx)
    rw [List.count_eq_one_of_mem (nodup_eraseDups _) hmem, Nat.one_mul]
  · rw [List.count_eq_zero.2 hx, Nat.mul_zero]

theorem total_flatMap {α : Type} (f : α → List UInt64) (xs : List α) :
    total (xs.flatMap f) = (xs.map fun x => total (f x)).sum := by
  induction xs with
  | nil => rfl
  | cons x xs ih => rw [List.flatMap_cons, total_append, ih, List.map_cons, List.sum_cons]

theorem total_perm {xs ys : List UInt64} (h : xs.Perm ys) : total xs = total ys := (h.map UInt64.toNat).sum_nat

/-! ## Transitions -/

theorem Aggregate.sum_ofList (xs : List UInt64) : (ofList xs).elim 0 (·.sum.toNat) = total xs % UInt64.size := by
  cases h : ofList xs with
  | none =>
    rw [ofList_eq_none_iff.1 h]
    rfl
  | some g => exact (averages_ofList h).sum

/-- The steps between two states are those with this move. -/
theorem traversals_eq (vs : List Visit) (e : UInt16 × UInt16) :
    traversals e.1 e.2 vs = (steps vs).filter fun t => (t.1.state, t.2.state) == e := by
  unfold traversals
  refine List.filter_congr fun t _ => ?_
  rw [Bool.decide_and]
  rfl

namespace Statistics

theorem simMicros_ofSteps (ts : List (Visit × Visit)) : (ofSteps ts).simMicros = Aggregate.ofList
    (elapsed (fun t => t.1.scope.kinds.simulation ∧ t.2.scope.kinds.simulation) (·.scope.simMicros) ts) := by
  rw [ofSteps_eq]
  rfl

theorem cycles_ofSteps (ts : List (Visit × Visit)) : (ofSteps ts).cycles = Aggregate.ofList
    (elapsed (fun t => t.1.scope.kinds.node ∧ t.2.scope.kinds.node ∧ t.1.scope.nodeId = t.2.scope.nodeId)
      (·.scope.nodeTime.cycles) ts) := by
  rw [ofSteps_eq]
  rfl

end Statistics

section Sums

variable {quantity : Statistics → Option (Aggregate UInt64)} {p : Visit × Visit → Bool} {reading : Visit → UInt64}

/-- The sums of all transitions come to what passes on all steps. -/
theorem Automaton.sumsOf_ofVisits
    (hquantity : ∀ ts, quantity (Statistics.ofSteps ts) = Aggregate.ofList (elapsed p reading ts)) (context : UInt16)
    (vs : List Visit) : (ofVisits context vs).sumsOf quantity ≡ total (elapsed p reading (steps vs)) [MOD UInt64.size] := by
  have htransitions : (ofVisits context vs).sumsOf quantity = ((ofVisits context vs).edges.map fun e =>
      total (elapsed p reading (traversals e.1 e.2 vs)) % UInt64.size).sum := by
    unfold sumsOf edges ofVisits StateNode.ofVisits
    simp only [List.flatMap_map, List.map_flatMap, List.map_map, Function.comp_def, hquantity, Aggregate.sum_ofList]
  have hgroups : total (elapsed p reading (steps vs)) =
      ((moves vs).eraseDups.map fun e => total (elapsed p reading (traversals e.1 e.2 vs))).sum := by
    have hperm := Keyed.flatMap_filter_perm (fun t : Visit × Visit => (t.1.state, t.2.state)) (steps vs)
    have htotal := total_perm ((hperm.filter p).map fun t => reading t.2 - reading t.1)
    rw [List.filter_flatMap, List.map_flatMap, total_flatMap] at htotal
    simp only [traversals_eq]
    exact htotal.symm
  have hmod := List.sum_nat_mod ((moves vs).eraseDups.map fun e => total (elapsed p reading (traversals e.1 e.2 vs)))
    UInt64.size
  rw [List.map_map] at hmod
  rw [htransitions, ((edges_perm context vs).map _).sum_nat, hgroups]
  exact hmod.symm

/-- If all steps are sampled, every transition has samples. -/
theorem Automaton.sampled_of_forall
    (hquantity : ∀ ts, quantity (Statistics.ofSteps ts) = Aggregate.ofList (elapsed p reading ts)) (context : UInt16)
    {vs : List Visit} (hp : ∀ t ∈ steps vs, p t) :
    ∀ n ∈ (ofVisits context vs).states, ∀ t ∈ n.transitions, (quantity t.statistics).isSome := by
  refine forall_statistics_ofVisits (P := fun s => (quantity s).isSome) context fun source destination hne => ?_
  obtain ⟨step, hstep⟩ := List.exists_mem_of_ne_nil _ hne
  have hsampled : step ∈ (traversals source destination vs).filter p :=
    List.mem_filter.2 ⟨hstep, hp step (List.mem_filter.1 hstep).1⟩
  rw [Option.isSome_iff_ne_none, hquantity, Ne, Aggregate.ofList_eq_none_iff]
  exact List.ne_nil_of_mem (List.mem_map_of_mem hsampled)

end Sums

/-! ## Clocks -/

/-- What passes on all steps is the time from the first reading to the last. -/
theorem total_elapsed (reading : Visit → UInt64) {vs : List Visit} {first last : Visit} (hfirst : vs.head? = some first)
    (hlast : vs.getLast? = some last) :
    total ((steps vs).map fun t => reading t.2 - reading t.1) ≡ (reading last - reading first).toNat
      [MOD UInt64.size] := by
  induction vs using List.reverseRecOn generalizing last with
  | nil => cases hfirst
  | append_singleton vs v ih =>
    obtain rfl : v = last := Option.some.inj (List.getLast?_concat.symm.trans hlast)
    cases hu : vs.getLast? with
    | none =>
      obtain rfl := List.getLast?_eq_none_iff.1 hu
      obtain rfl : v = first := Option.some.inj hfirst
      rw [UInt64.sub_self]
      rfl
    | some u =>
      rw [List.head?_append_of_ne_nil _ (List.ne_nil_of_mem (List.mem_of_getLast? hu))] at hfirst
      have hpast := ih hfirst hu
      have hsplit : reading v - reading first = (reading u - reading first) + (reading v - reading u) := by
        grind
      rw [steps_concat hu, List.map_append, total_append, hsplit, UInt64.toNat_add]
      exact (Nat.ModEq.add_right _ hpast).trans (Nat.mod_modEq _ _).symm

/-- If all steps of a walk are sampled, the sums of the transitions come to the time that passes on the walk. -/
theorem Automaton.elapses_ofVisits {quantity : Statistics → Option (Aggregate UInt64)} {p : Visit × Visit → Bool}
    {reading : Visit → UInt64}
    (hquantity : ∀ ts, quantity (Statistics.ofSteps ts) = Aggregate.ofList (elapsed p reading ts)) (context : UInt16)
    {vs : List Visit} {first last : Visit} (hfirst : vs.head? = some first) (hlast : vs.getLast? = some last)
    (hp : ∀ t ∈ steps vs, p t) : (ofVisits context vs).Elapses quantity (reading first) (reading last) where
  sampled := sampled_of_forall hquantity context hp
  sum := by
    have hall : elapsed p reading (steps vs) = (steps vs).map fun t => reading t.2 - reading t.1 := by
      unfold elapsed
      rw [List.filter_eq_self.2 hp]
    have htotal := total_elapsed reading hfirst hlast
    rw [← hall] at htotal
    exact (sumsOf_ofVisits hquantity context vs).trans htotal

/-! ## Contexts -/

/-- Observing state changes never fails.  If every scope of a context tells the simulated time, every transition of the
context has samples of it, and the sums of all of them come to the time from the first state change of the context to the
last, modulo 2 ^ 64.  If every scope of the context tells the clocks of one and the same node, so do the sums of the
cycles. -/
theorem elapsed_conserved (frames : List Frame) : ∃ m, Automata.ofFrames frames = .ok m ∧
    ∀ (context : UInt16) (first last : Visit),
      (visits context frames).head? = some first → (visits context frames).getLast? = some last →
      ∃ a, m.automaton? context = some a ∧
        ((∀ v ∈ visits context frames, v.scope.kinds.simulation) →
          a.Elapses (·.simMicros) first.scope.simMicros last.scope.simMicros) ∧
        ∀ node, (∀ v ∈ visits context frames, v.scope.kinds.node ∧ v.scope.nodeId = node) →
          a.Elapses (·.cycles) first.scope.nodeTime.cycles last.scope.nodeTime.cycles := by
  refine ⟨_, Automata.ofFrames_eq frames, fun context first last hfirst hlast => ?_⟩
  have hne : visits context frames ≠ [] := List.ne_nil_of_mem (List.mem_of_getLast? hlast)
  refine ⟨.ofVisits context (visits context frames), ?_, fun hall => ?_, fun node hall => ?_⟩
  · rw [Automata.automaton?_eq, if_neg hne]
  · refine Automaton.elapses_ofVisits Statistics.simMicros_ofSteps context hfirst hlast fun t ht => ?_
    obtain ⟨h₁, h₂⟩ := mem_of_mem_steps ht
    exact decide_eq_true ⟨hall _ h₁, hall _ h₂⟩
  · refine Automaton.elapses_ofVisits Statistics.cycles_ofSteps context hfirst hlast fun t ht => ?_
    obtain ⟨h₁, h₂⟩ := mem_of_mem_steps ht
    obtain ⟨hkind₁, hnode₁⟩ := hall _ h₁
    obtain ⟨hkind₂, hnode₂⟩ := hall _ h₂
    exact decide_eq_true ⟨hkind₁, hkind₂, hnode₁.trans hnode₂.symm⟩

/-- A state change at a simulated time on a node that has counted this many cycles. -/
def timed (context state : UInt16) (micros : UInt64) (node : UInt16) (cycles : UInt64) : Frame where
  scope := { kinds := { simulation := true, node := true }, simMicros := micros, nodeId := node, nodeTime := { cycles } }
  event := .monitorState ⟨context, 0, state⟩

/-- A state that is left, entered twice in a row and left again, with another context in between.  Both clocks pass
2 ^ 64 on the way, and the clock of the simulation is set back once. -/
def wrappingFrames : List Frame :=
  [timed 1 5 18446744073709551000 3 100, timed 1 6 18446744073709551600 3 18446744073709551615, timed 2 6 7 4 9,
    timed 1 5 400 3 20, timed 1 5 300 3 25, timed 1 6 900 3 60]

theorem elapsed_conserved_wrapping : ∃ m a, Automata.ofFrames wrappingFrames = .ok m ∧ m.automaton? 1 = some a ∧
    a.sumsOf (·.simMicros) ≡ 1516 [MOD UInt64.size] ∧
    a.sumsOf (·.cycles) ≡ (60 - 100 : UInt64).toNat [MOD UInt64.size] := by
  obtain ⟨m, hm, hcontext⟩ := elapsed_conserved wrappingFrames
  obtain ⟨a, ha, hsimulation, hcycles⟩ := hcontext 1
    ⟨(timed 1 5 18446744073709551000 3 100).scope, 5⟩ ⟨(timed 1 6 900 3 60).scope, 6⟩ rfl rfl
  exact ⟨m, a, hm, ha, (hsimulation (by decide)).sum, (hcycles 3 (by decide)).sum⟩

end NodeTrace
