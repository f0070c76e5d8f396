import Mathlib.Algebra.BigOperators.Group.List.Lemmas
import Mathlib.Algebra.GroupWithZero.Nat
import Mathlib.Data.List.Dedup
import NodeTrace.Proofs.Shape

/-!
# How often transitions were taken

Each transition counts the moves from its source to its destination modulo 2 ^ 64.  So the counts of some transitions come
to the moves along them (`Automaton.takenAlong_mod`, `Automaton.takenAlong_ofVisits`).  A context makes one move less than
it has visits: the counts of all transitions of an automaton come to its visits but one (`Automaton.taken_ofVisits`), and
the counts of all automata, with one more for each of them, to the state changes (`Automata.taken_observed`).
-/

namespace NodeTrace

/-- How often transitions of the automaton were taken, by their statistics. -/
def Automaton.taken (a : Automaton) : Nat :=
  ((a.states.flatMap (·.transitions)).map (·.statistics.count.toNat)).sum

/-- How often transitions of any automaton were taken. -/
def Automata.taken (m : Automata) : Nat := (m.automata.map (·.taken)).sum

/-- How often transitions between states with `p` were taken. -/
def Automaton.takenAlong (p : UInt16 × UInt16 → Bool) (a : Automaton) : Nat :=
  (a.states.flatMap fun n =>
    (n.transitions.filter fun t => p (n.state, t.destination)).map (·.statistics.count.toNat)).sum

theorem Automaton.takenAlong_true (a : Automaton) : a.takenAlong (fun _ => true) = a.taken := by
  unfold takenAlong taken
  simp only [List.filter_true, List.map_flatMap]

/-- Each key with `p` as often as it stands in the list: together they are the keys with `p` in it. -/
theorem Keyed.sum_count_filter_eraseDups {κ : Type} [inst : BEq κ] [LawfulBEq κ] (p : κ → Bool) (ks : List κ) :
    ((ks.eraseDups.filter p).map fun k => ks.count k).sum = ks.countP p := by
  have : DecidableEq κ := instDecidableEqOfLawfulBEq
  have hdedup : ks.eraseDups.Perm ks.dedup := by
    refine (List.perm_ext_iff_of_nodup (Keyed.nodup_eraseDups ks) ks.nodup_dedup).2 fun k => ?_
    rw [List.mem_eraseDups, List.mem_dedup]
  rw [((hdedup.filter p).map _).sum_nat]
  -- there is only one lawful test for equality
  obtain rfl : inst = instBEqOfDecidableEq := lawful_beq_subsingleton inst instBEqOfDecidableEq
  exact List.sum_map_count_dedup_filter_eq_countP p ks

theorem Keyed.sum_count_eraseDups {κ : Type} [BEq κ] [LawfulBEq κ] (ks : List κ) :
    (ks.eraseDups.map fun k => ks.count k).sum = ks.length := by
  have hall := sum_count_filter_eraseDups (fun _ => true) ks
  rwa [List.filter_true, List.countP_true] at hall

/-! ## One context -/

theorem length_moves (vs : List Visit) : (moves vs).length = vs.length - 1 := by
  unfold moves steps
  rw [List.length_map, List.length_zip, List.length_tail]
  omega

namespace Automaton

variable {context : UInt16} {vs : List Visit}

/-- The statistics of a transition count the moves between its states. -/
theorem takenAlong_ofVisits_eq (p : UInt16 × UInt16 → Bool) (context : UInt16) (vs : List Visit) :
    (ofVisits context vs).takenAlong p =
      (((moves vs).eraseDups.filter p).map fun e => (moves vs).count e % UInt64.size).sum := by
  have hcounts : (ofVisits context vs).takenAlong p =
      (((ofVisits context vs).edges.filter p).map fun e => (moves vs).count e % UInt64.size).sum := by
    unfold takenAlong edges ofVisits StateNode.ofVisits
    simp only [List.flatMap_map, List.filter_flatMap, List.map_flatMap, List.filter_map, List.map_map]
    refine congrArg List.sum (List.flatMap_congr fun source _ => List.map_congr_left fun destination _ => ?_)
    simp only [Function.comp_apply, Statistics.ofSteps_eq, length_traversals, UInt64.toNat_ofNat']
  rw [hcounts]
  exact (((edges_perm context vs).filter p).map _).sum_nat

/-- Together they count the moves, but for what the counters have run over. -/
theorem takenAlong_mod (p : UInt16 × UInt16 → Bool) (context : UInt16) (vs : List Visit) :
    (ofVisits context vs).takenAlong p % UInt64.size = (moves vs).countP p % UInt64.size := by
  have hsum := List.sum_nat_mod (((moves vs).eraseDups.filter p).map fun e => (moves vs).count e) UInt64.size
  rw [List.map_map, Keyed.sum_count_filter_eraseDups] at hsum
  rw [takenAlong_ofVisits_eq, hsum]
  rfl

theorem count_moves_lt (hlen : vs.length ≤ UInt64.size) (e : UInt16 × UInt16) : (moves vs).count e < UInt64.size := by
  have hle : (moves vs).count e ≤ (moves vs).length := List.count_le_length
  have hmoves := length_moves vs
  have hsize : 0 < UInt64.size := by decide
  omega

theorem takenAlong_ofVisits (p : UInt16 × UInt16 → Bool) (context : UInt16) (hlen : vs.length ≤ UInt64.size) :
    (ofVisits context vs).takenAlong p = (moves vs).countP p := by
  rw [takenAlong_ofVisits_eq]
  simp only [Nat.mod_eq_of_lt (count_moves_lt hlen _)]
  exact Keyed.sum_count_filter_eraseDups p (moves vs)

theorem taken_mod (context : UInt16) (vs : List Visit) :
    (ofVisits context vs).taken % UInt64.size = (vs.length - 1) % UInt64.size := by
  rw [← takenAlong_true, takenAlong_mod, List.countP_true, length_moves]

theorem taken_ofVisits (context : UInt16) (hlen : vs.length ≤ UInt64.size) :
    (ofVisits context vs).taken = vs.length - 1 := by
  rw [← takenAlong_true, takenAlong_ofVisits _ _ hlen, List.countP_true, length_moves]

end Automaton

/-! ## All contexts -/

theorem Automata.taken_add_length (frames : List Frame) : (observed frames).taken + (observed frames).automata.length =
    ((contexts frames).eraseDups.map fun context =>
      (Automaton.ofVisits context (visits context frames)).taken + 1).sum := by
  unfold taken observed
  rw [List.map_map, List.length_map, List.sum_map_add, List.map_const', List.sum_replicate_nat, Nat.mul_one]
  rfl

/-- The visits of all contexts are the state changes. -/
theorem sum_length_visits (frames : List Frame) :
    ((contexts frames).eraseDups.map fun context => (visits context frames).length).sum = (contexts frames).length := by
  simp only [length_visits]
  exact Keyed.sum_count_eraseDups (contexts frames)

theorem length_visits_pos {context : UInt16} {frames : List Frame} (h : context ∈ (contexts frames).eraseDups) :
    0 < (visits context frames).length :=
  List.length_pos_iff.2 (visits_ne_nil (List.mem_eraseDups.1 h))

theorem Automata.taken_mod (frames : List Frame) :
    ((observed frames).taken + (observed frames).automata.length) % UInt64.size =
      (contexts frames).length % UInt64.size := by
  have heach : ∀ context ∈ (contexts frames).eraseDups,
      ((Automaton.ofVisits context (visits context frames)).taken + 1) % UInt64.size =
        (visits context frames).length % UInt64.size := by
    intro context hc
    have hpos := length_visits_pos hc
    rw [Nat.add_mod, Automaton.taken_mod, ← Nat.add_mod, Nat.sub_add_cancel hpos]
  have hmap := List.map_congr_left heach
  rw [taken_add_length, ← sum_length_visits, List.sum_nat_mod, List.map_map,
    List.sum_nat_mod ((contexts frames).eraseDups.map fun context => (visits context frames).length), List.map_map]
  exact congrArg (·.sum % UInt64.size) hmap

theorem Automata.taken_observed {frames : List Frame} (hlen : (contexts frames).length < UInt64.size) :
    (observed frames).taken + (observed frames).automata.length = (contexts frames).length := by
  rw [taken_add_length, ← sum_length_visits]
  refine congrArg List.sum (List.map_congr_left fun context hc => ?_)
  have hpos := length_visits_pos hc
  have hle := length_visits_le context frames
  rw [Automaton.taken_ofVisits context (by omega), Nat.sub_add_cancel hpos]

end NodeTrace
