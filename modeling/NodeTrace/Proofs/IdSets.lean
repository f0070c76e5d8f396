import Mathlib.Data.Finset.Card
import Mathlib.Data.Nat.Bitwise
import NodeTrace.IdSet

/-!
# A set of ids is a finite set

Marking ids one after the other keeps the bits of a set at those of the ids that were marked (`IdSet.Holds`), so that the
set answers as the finite set of these ids does (`IdSet.StandsFor`), and each mark tells whether its id is new
(`marks_finite_set`).  The bits may as well be kept in words of 64 each: an id is one bit of one word, a mark changes no
other, and size and members are those of the bits that are set in all words (`IdSet.InWords`).
-/

namespace NodeTrace

namespace IdSet

/-! ## Marking -/

/-- Mark ids one after the other: whether each was new, and the set behind the last. -/
def markAll (s : IdSet) : List UInt16 → List Bool × IdSet
  | [] => ([], s)
  | id :: rest =>
    let (known, s') := s.containsThenInsert id
    let (fresh, s'') := s'.markAll rest
    ((!known) :: fresh, s'')

/-- The bits of the set are those of the ids. -/
structure Holds (s : IdSet) (ids : Finset UInt16) : Prop where
  contains : ∀ id, s.contains id = true ↔ id ∈ ids
  small : ∀ i, s.bits.testBit i = true → i < UInt16.size

section Marking

variable {s : IdSet} {ids : Finset UInt16}

theorem holds_empty : empty.Holds ∅ where
  contains id := by simp [contains, empty]
  small i hi := by simp [empty] at hi

theorem Holds.insert (h : s.Holds ids) (id : UInt16) : (s.insert id).Holds (ids ∪ {id}) where
  contains id' := by
    rw [contains_insert, Bool.or_eq_true, decide_eq_true_eq, h.contains, Finset.mem_union, Finset.mem_singleton]
  small i hi := by
    rw [insert_eq, Nat.testBit_or, Nat.one_shiftLeft, Nat.testBit_two_pow, Bool.or_eq_true, decide_eq_true_eq] at hi
    rcases hi with hi | rfl
    · exact h.small i hi
    · exact id.toNat_lt

/-- The run of some marks: the set has their ids besides those it had, and each mark was told that its id is new if neither
the set had it nor a mark before. -/
theorem Holds.markAll (h : s.Holds ids) (marks : List UInt16) :
    (s.markAll marks).2.Holds (ids ∪ marks.toFinset) ∧ (s.markAll marks).1.length = marks.length ∧
      ∀ i id, marks[i]? = some id → (s.markAll marks).1[i]? = some (decide (id ∉ ids ∧ id ∉ marks.take i)) := by
  induction marks generalizing s ids with
  | nil =>
    refine ⟨?_, rfl, fun i id hid => by simp at hid⟩
    rwa [List.toFinset_nil, Finset.union_empty]
  | cons first rest ih =>
    obtain ⟨hrest, hlength, hfresh⟩ := ih (h.insert first)
    refine ⟨?_, congrArg (· + 1) hlength, fun i id hid => ?_⟩
    · rw [List.toFinset_cons, Finset.insert_eq, ← Finset.union_assoc]
      exact hrest
    · cases i with
      | zero =>
        cases hid
        have hknown : s.contains first = decide (first ∈ ids) := by
          rw [Bool.eq_iff_iff, h.contains, decide_eq_true_eq]
        show some (!s.contains first) = _
        rw [hknown]
        simp
      | succ i =>
        have hmem : (id ∉ ids ∪ {first} ∧ id ∉ rest.take i) ↔ (id ∉ ids ∧ id ∉ (first :: rest).take (i + 1)) := by
          rw [List.take_succ_cons, Finset.mem_union, Finset.mem_singleton, List.mem_cons]
          tauto
        exact (hfresh i id hid).trans (congrArg some (decide_eq_decide.2 hmem))

end Marking

/-! ## Answers -/

/-- The set answers as the finite set of ids does. -/
structure StandsFor (s : IdSet) (ids : Finset UInt16) : Prop where
  contains : ∀ id, s.contains id = true ↔ id ∈ ids
  size : s.size = ids.card
  isEmpty : s.isEmpty = true ↔ ids = ∅
  ascending : s.members.Pairwise (· < ·)
  members : ∀ id, id ∈ s.members ↔ id ∈ ids
  length_members : s.members.length = s.size

section Answers

variable {s : IdSet} {ids : Finset UInt16}

theorem Holds.isEmpty (h : s.Holds ids) : s.isEmpty = true ↔ ids = ∅ := by
  unfold IdSet.isEmpty
  rw [decide_eq_true_eq, Finset.eq_empty_iff_forall_notMem]
  constructor
  · intro hbits id hid
    have hset := (h.contains id).2 hid
    unfold IdSet.contains at hset
    rw [hbits, Nat.zero_testBit] at hset
    cases hset
  · intro hnone
    refine Nat.zero_of_testBit_eq_false fun i => ?_
    by_contra hset
    rw [Bool.not_eq_false] at hset
    have hi : (UInt16.ofNat i).toNat = i := UInt16.toNat_ofNat_of_lt' (h.small i hset)
    refine hnone (UInt16.ofNat i) ((h.contains _).1 ?_)
    unfold IdSet.contains
    rwa [hi]

theorem Holds.standsFor (h : s.Holds ids) : s.StandsFor ids where
  contains := h.contains
  size := by
    have hmembers : s.members.toFinset = ids := by
      ext id
      rw [List.mem_toFinset, mem_members, h.contains]
    rw [← IdSet.length_members, ← hmembers, List.toFinset_card_of_nodup s.pairwise_members.nodup]
  isEmpty := h.isEmpty
  ascending := s.pairwise_members
  members id := (s.mem_members id).trans (h.contains id)
  length_members := s.length_members

end Answers

/-! ## Words -/

/-- The bits of 64 ids, those of the first word before those of the second. -/
def word (s : IdSet) (k : Nat) : UInt64 := UInt64.ofNat (s.bits >>> (64 * k))

/-- The word of an id. -/
def place (id : UInt16) : Nat := (id / 64).toNat

/-- The bit of an id in its word. -/
def mask (id : UInt16) : UInt64 := 1 <<< (id % 64).toUInt64

/-- All ids in ascending order. -/
def allIds : List UInt16 := (List.range UInt16.size).map UInt16.ofNat

/-- The set is kept in 1024 words of 64 bits.  An id is one bit of one word, and to mark it sets this bit and changes no
other, in this word or in another.  The bits that are set in all words are counted for the size and searched from the
least on for the members, and there is none in a set without members. -/
structure InWords (s : IdSet) : Prop where
  contains : ∀ id, s.contains id = true ↔ s.word (place id) &&& mask id ≠ 0
  insert : ∀ id k, (s.insert id).word k = if k = place id then s.word k ||| mask id else s.word k
  size : s.size = ((List.range 1024).map fun k => countBits 6 (s.word k).toNat).sum
  isEmpty : s.isEmpty = true ↔ ∀ k < 1024, s.word k = 0
  members : s.members = allIds.filter fun id => s.word (place id) &&& mask id ≠ 0

theorem testBit_word (s : IdSet) (k i : Nat) :
    (s.word k).toNat.testBit i = (decide (i < 64) && s.bits.testBit (64 * k + i)) := by
  unfold word
  rw [UInt64.toNat_ofNat', Nat.testBit_mod_two_pow, Nat.testBit_shiftRight]

theorem place_add (id : UInt16) : 64 * place id + id.toNat % 64 = id.toNat := Nat.div_add_mod id.toNat 64

theorem toNat_mask (id : UInt16) : (mask id).toNat = 2 ^ (id.toNat % 64) := by
  have hbit : id.toNat % 64 < 64 := Nat.mod_lt _ (by decide)
  have hshift : ((id % 64).toUInt64).toNat = id.toNat % 64 := by
    rw [UInt16.toNat_toUInt64, UInt16.toNat_mod]
    rfl
  unfold mask
  rw [UInt64.toNat_shiftLeft, hshift, Nat.mod_eq_of_lt hbit, UInt64.toNat_one, Nat.one_shiftLeft,
    Nat.mod_eq_of_lt (Nat.pow_lt_pow_right (by decide) hbit)]

theorem contains_iff_word (s : IdSet) (id : UInt16) :
    s.contains id = true ↔ s.word (place id) &&& mask id ≠ 0 := by
  have hbit : id.toNat % 64 < 64 := Nat.mod_lt _ (by decide)
  have hword : (s.word (place id)).toNat.testBit (id.toNat % 64) = s.contains id := by
    rw [testBit_word, decide_eq_true hbit, Bool.true_and, place_add]
    rfl
  rw [Ne, ← UInt64.toNat_inj, UInt64.toNat_and, toNat_mask, Nat.and_two_pow, hword]
  cases s.contains id <;> simp

theorem word_insert (s : IdSet) (id : UInt16) (k : Nat) :
    (s.insert id).word k = if k = place id then s.word k ||| mask id else s.word k := by
  have hplace := place_add id
  have hbit : id.toNat % 64 < 64 := Nat.mod_lt _ (by decide)
  have hbits (i : Nat) : ((s.insert id).word k).toNat.testBit i =
      ((s.word k).toNat.testBit i || decide (i < 64 ∧ id.toNat = 64 * k + i)) := by
    rw [testBit_word, testBit_word, insert_eq, Nat.testBit_or, Nat.one_shiftLeft, Nat.testBit_two_pow,
      Bool.and_or_distrib_left, Bool.decide_and]
  apply UInt64.toNat_inj.1
  apply Nat.eq_of_testBit_eq
  intro i
  rw [hbits]
  split
  · rename_i hk
    have hown : (i < 64 ∧ id.toNat = 64 * k + i) ↔ id.toNat % 64 = i := by omega
    rw [UInt64.toNat_or, Nat.testBit_or, toNat_mask, Nat.testBit_two_pow, decide_eq_decide.2 hown]
  · rename_i hk
    have hother : ¬(i < 64 ∧ id.toNat = 64 * k + i) := by omega
    rw [decide_eq_false hother, Bool.or_false]

theorem countBits_eq_countP (depth n : Nat) :
    countBits depth n = (List.range (2 ^ depth)).countP fun i => n.testBit i := by
  induction depth generalizing n with
  | zero =>
    unfold countBits
    rw [Nat.pow_zero, List.range_one, List.countP_singleton, Nat.testBit_zero]
    rcases Nat.mod_two_eq_zero_or_one n with h | h <;> simp [h]
  | succ depth ih =>
    have hlow (i : Nat) (hi : i ∈ List.range (2 ^ depth)) :
        (n % 2 ^ 2 ^ depth).testBit i = n.testBit i := by
      rw [Nat.testBit_mod_two_pow, decide_eq_true (List.mem_range.1 hi), Bool.true_and]
    unfold countBits
    split
    · rename_i hn
      subst hn
      simp
    · rw [Nat.pow_succ, Nat.mul_two, List.range_add, List.countP_append, List.countP_map]
      simp only [ih, Nat.one_shiftLeft]
      congr 1
      · exact List.countP_congr fun i hi => by rw [hlow i hi]
      · simp only [Nat.testBit_shiftRight]
        rfl

/-- There are no more members than ids. -/
theorem size_le (s : IdSet) : s.size ≤ UInt16.size := by
  have hle := List.countP_le_length (p := fun i => s.bits.testBit i) (l := List.range (2 ^ idBits))
  rw [List.length_range] at hle
  unfold size
  rwa [countBits_eq_countP]

/-- Counting in a range is counting in its parts of equal length. -/
theorem countP_range_mul (p : Nat → Bool) (width count : Nat) : (List.range (width * count)).countP p =
    ((List.range count).map fun k => (List.range width).countP fun i => p (width * k + i)).sum := by
  induction count with
  | zero => rfl
  | succ count ih =>
    rw [Nat.mul_succ, List.range_add, List.countP_append, ih, List.range_succ, List.map_append, List.sum_append,
      List.countP_map]
    simp [Function.comp_def]

theorem size_eq_sum (s : IdSet) : s.size = ((List.range 1024).map fun k => countBits 6 (s.word k).toNat).sum := by
  have hword (k : Nat) : countBits 6 (s.word k).toNat = (List.range 64).countP fun i => s.bits.testBit (64 * k + i) := by
    rw [countBits_eq_countP]
    refine List.countP_congr fun i hi => ?_
    have hlt : i < 64 := List.mem_range.1 hi
    rw [testBit_word, decide_eq_true hlt, Bool.true_and]
  have hids : 2 ^ idBits = 64 * 1024 := rfl
  unfold size
  rw [countBits_eq_countP, hids, countP_range_mul]
  simp only [hword]

theorem pairwise_allIds : allIds.Pairwise (· < ·) := by
  unfold allIds
  rw [List.pairwise_map]
  refine List.pairwise_lt_range.imp_of_mem fun hi hj hlt => UInt16.lt_iff_toNat_lt.2 ?_
  rwa [UInt16.toNat_ofNat_of_lt' (List.mem_range.1 hi), UInt16.toNat_ofNat_of_lt' (List.mem_range.1 hj)]

theorem mem_allIds (id : UInt16) : id ∈ allIds :=
  List.mem_map.2 ⟨id.toNat, List.mem_range.2 id.toNat_lt, UInt16.ofNat_toNat⟩

/-- The members are those of all ids, in their order, whose bit is set. -/
theorem members_eq_filter (s : IdSet) : s.members = allIds.filter fun id => s.word (place id) &&& mask id ≠ 0 := by
  have hsorted := pairwise_allIds.filter fun id => s.word (place id) &&& mask id ≠ 0
  refine List.Perm.eq_of_pairwise (fun _ _ _ _ hlt hgt => absurd hlt (UInt16.lt_asymm hgt)) s.pairwise_members hsorted
    ((List.perm_ext_iff_of_nodup s.pairwise_members.nodup hsorted.nodup).2 fun id => ?_)
  rw [s.mem_members, contains_iff_word, List.mem_filter, decide_eq_true_eq]
  exact (and_iff_right (mem_allIds id)).symm

/-- A set of ids has all its bits in the words. -/
theorem Holds.isEmpty_iff_word {s : IdSet} {ids : Finset UInt16} (h : s.Holds ids) :
    s.isEmpty = true ↔ ∀ k < 1024, s.word k = 0 := by
  constructor
  · intro hempty k _
    have hbits : s.bits = 0 := of_decide_eq_true hempty
    unfold word
    rw [hbits, Nat.zero_shiftRight]
    rfl
  · intro hzero
    refine h.isEmpty.2 (Finset.eq_empty_iff_forall_notMem.2 fun id hid => ?_)
    have hplace : place id < 1024 := by
      have hadd := place_add id
      have hlt := id.toNat_lt
      omega
    have hset := (s.contains_iff_word id).1 ((h.contains id).2 hid)
    rw [hzero _ hplace, UInt64.zero_and] at hset
    exact hset rfl

theorem Holds.inWords {s : IdSet} {ids : Finset UInt16} (h : s.Holds ids) : s.InWords :=
  ⟨s.contains_iff_word, s.word_insert, s.size_eq_sum, h.isEmpty_iff_word, s.members_eq_filter⟩

end IdSet

/-- A new set on which ids are marked one after the other is the finite set of these ids: each mark tells whether its id was
not marked before, the set has these ids and no others, and lists each of them once in ascending order.  To mark an id
changes the answer for no other, and no other bit of the words that the set is kept in. -/
theorem marks_finite_set (ids : List UInt16) : ∃ (fresh : List Bool) (s : IdSet),
    IdSet.empty.markAll ids = (fresh, s) ∧ fresh.length = ids.length ∧
    (∀ i id, ids[i]? = some id → fresh[i]? = some (decide (id ∉ ids.take i))) ∧
    s.StandsFor ids.toFinset ∧
    (∀ id id', id' ≠ id → (s.containsThenInsert id).2.contains id' = s.contains id') ∧ s.InWords := by
  obtain ⟨hholds, hlength, hfresh⟩ := IdSet.holds_empty.markAll ids
  rw [Finset.empty_union] at hholds
  refine ⟨_, _, rfl, hlength, fun i id hid => ?_, hholds.standsFor, fun id id' hne => ?_, hholds.inWords⟩
  · have hnew : (id ∉ (∅ : Finset UInt16) ∧ id ∉ ids.take i) ↔ id ∉ ids.take i := and_iff_right (Finset.notMem_empty id)
    rw [hfresh i id hid, decide_eq_decide.2 hnew]
  · show (IdSet.insert _ id).contains id' = _
    rw [IdSet.contains_insert, decide_eq_false hne, Bool.or_false]

/-- Ids at both ends of words, one of them marked twice. -/
example : IdSet.empty.markAll [64, 0xffff, 63, 64] = ([true, true, true, false], (IdSet.empty.markAll [63, 64, 0xffff]).2) ∧
    (IdSet.empty.markAll [64, 0xffff, 63, 64]).2.members = [63, 64, 0xffff] := by
  decide +kernel

end NodeTrace
