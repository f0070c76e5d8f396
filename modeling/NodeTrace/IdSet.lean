import NodeTrace.Digits

/-!
# Sets of ids

A set of ids is a number: the id `i` is a member iff bit `i` is set.  Inserting an id sets its bit; whether it
was set before tells the first sight of an id from all later ones.  The members are found by halving the
number again and again, so that a set of few ids is searched quickly.
-/

namespace NodeTrace

/-- A set of ids. -/
structure IdSet where
  bits : Nat := 0
  deriving DecidableEq, Repr

namespace IdSet

/-- The set has no member yet. -/
def empty : IdSet := {}

instance : Inhabited IdSet := ⟨empty⟩

/-- The id is a member. -/
def contains (s : IdSet) (id : UInt16) : Bool := s.bits.testBit id.toNat

/-- Make an id a member. -/
def insert (s : IdSet) (id : UInt16) : IdSet :=
  if s.contains id then s else ⟨s.bits ||| 1 <<< id.toNat⟩

/-- Make an id a member and tell whether it was one before. -/
def containsThenInsert (s : IdSet) (id : UInt16) : Bool × IdSet := (s.contains id, s.insert id)

/-- The bits that are set among the lowest `2 ^ depth` of a number, in ascending order and counted from
`base`.  Halves without a bit are passed over. -/
def bitsFrom : (depth base n : Nat) → List Nat
  | 0, base, n => if n % 2 = 1 then [base] else []
  | depth + 1, base, n =>
    if n = 0 then []
    else
      let half := 1 <<< depth
      bitsFrom depth base (n % (1 <<< half)) ++ bitsFrom depth (base + half) (n >>> half)

/-- How many of the lowest `2 ^ depth` bits of a number are set. -/
def countBits : (depth n : Nat) → Nat
  | 0, n => n % 2
  | depth + 1, n =>
    if n = 0 then 0
    else
      let half := 1 <<< depth
      countBits depth (n % (1 <<< half)) + countBits depth (n >>> half)

/-- The binary logarithm of the number of ids. -/
def idBits : Nat := 16

/-- The members in ascending order. -/
def members (s : IdSet) : List UInt16 := (bitsFrom idBits 0 s.bits).map UInt16.ofNat

/-- The number of members. -/
def size (s : IdSet) : Nat := countBits idBits s.bits

/-- The set has no member. -/
def isEmpty (s : IdSet) : Bool := s.bits = 0

/-- The members in ascending order, between braces. -/
def text (s : IdSet) : String :=
  "\x7b" ++ ", ".intercalate (s.members.map fun id => Digits.decimal id.toNat) ++ "\x7d"

/-- Inserting an id sets its bit, which may be set already. -/
theorem insert_eq (s : IdSet) (id : UInt16) : s.insert id = ⟨s.bits ||| 1 <<< id.toNat⟩ := by
  unfold insert
  split
  · rename_i h
    have hbits : s.bits ||| 1 <<< id.toNat = s.bits := by
      apply Nat.eq_of_testBit_eq
      intro i
      rw [Nat.testBit_or, Nat.one_shiftLeft, Nat.testBit_two_pow]
      by_cases hi : id.toNat = i
      · subst hi
        have hset : s.bits.testBit id.toNat = true := h
        simp [hset]
      · simp [hi]
    rw [hbits]
  · rfl

theorem contains_insert (s : IdSet) (id id' : UInt16) :
    (s.insert id).contains id' = (s.contains id' || id' = id) := by
  simp only [insert_eq, contains, Nat.testBit_or, Nat.shiftLeft_eq, Nat.one_mul, Nat.testBit_two_pow,
    ← UInt16.toNat_inj, eq_comm]

theorem mem_bitsFrom (depth base n i : Nat) :
    i ∈ bitsFrom depth base n ↔ base ≤ i ∧ i < base + 1 <<< depth ∧ n.testBit (i - base) := by
  induction depth generalizing base n with
  | zero =>
    by_cases hi : i = base
    · subst hi; simp [bitsFrom, Nat.testBit_zero]
    · have hout : ¬(base ≤ i ∧ i < base + 1) := by omega
      by_cases hn : n % 2 = 1 <;> simp [bitsFrom, hn, hi] <;> omega
  | succ depth ih =>
    unfold bitsFrom
    split
    · subst_vars; simp
    · have hpow : 2 ^ (depth + 1) = 2 ^ depth + 2 ^ depth := by omega
      simp only [List.mem_append, ih, Nat.one_shiftLeft, Nat.testBit_mod_two_pow,
        Nat.testBit_shiftRight, Bool.and_eq_true, decide_eq_true_eq, hpow]
      constructor
      · rintro (⟨h1, h2, h3, h4⟩ | ⟨h1, h2, h3⟩)
        · exact ⟨h1, by omega, h4⟩
        · exact ⟨by omega, by omega, by rwa [show i - base = 2 ^ depth + (i - (base + 2 ^ depth)) by omega]⟩
      · rintro ⟨h1, h2, h3⟩
        by_cases h : i < base + 2 ^ depth
        · exact .inl ⟨h1, h, by omega, h3⟩
        · exact .inr ⟨by omega, by omega,
            by rwa [show 2 ^ depth + (i - (base + 2 ^ depth)) = i - base by omega]⟩

theorem length_bitsFrom (depth base n : Nat) : (bitsFrom depth base n).length = countBits depth n := by
  induction depth generalizing base n with
  | zero =>
    unfold bitsFrom countBits
    split
    · simp; omega
    · simp; omega
  | succ depth ih =>
    unfold bitsFrom countBits
    split
    · rfl
    · simp [ih]

theorem length_members (s : IdSet) : s.members.length = s.size := by
  simp [members, size, length_bitsFrom]

theorem mem_members (s : IdSet) (id : UInt16) : id ∈ s.members ↔ s.contains id = true := by
  have hlt : id.toNat < 65536 := id.toNat_lt
  simp only [members, List.mem_map, mem_bitsFrom, contains, idBits]
  constructor
  · rintro ⟨i, ⟨-, hi, hbit⟩, rfl⟩
    rwa [UInt16.toNat_ofNat_of_lt' (by simpa [UInt16.size] using hi)]
  · intro h
    exact ⟨id.toNat, ⟨by omega, by omega, h⟩, by simp⟩

theorem pairwise_bitsFrom (depth base n : Nat) : (bitsFrom depth base n).Pairwise (· < ·) := by
  induction depth generalizing base n with
  | zero =>
    unfold bitsFrom
    split
    · exact List.pairwise_singleton _ _
    · exact List.Pairwise.nil
  | succ depth ih =>
    unfold bitsFrom
    split
    · exact List.Pairwise.nil
    · refine List.pairwise_append.2 ⟨ih _ _, ih _ _, fun i hi j hj => ?_⟩
      have hlow := ((mem_bitsFrom _ _ _ _).1 hi).2.1
      have hhigh := ((mem_bitsFrom _ _ _ _).1 hj).1
      omega

/-- The members are listed in ascending order. -/
theorem pairwise_members (s : IdSet) : s.members.Pairwise (· < ·) := by
  have hsmall : ∀ i ∈ bitsFrom idBits 0 s.bits, i < UInt16.size := fun i hi => by
    have hlt := ((mem_bitsFrom _ _ _ _).1 hi).2.1
    rwa [Nat.zero_add] at hlt
  unfold members
  refine List.pairwise_map.2 ((pairwise_bitsFrom idBits 0 s.bits).imp_of_mem fun hi hj hlt => ?_)
  rw [UInt16.lt_iff_toNat_lt, UInt16.toNat_ofNat_of_lt' (hsmall _ hi), UInt16.toNat_ofNat_of_lt' (hsmall _ hj)]
  exact hlt

end IdSet

end NodeTrace
