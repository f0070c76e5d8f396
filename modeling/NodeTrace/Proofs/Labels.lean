import Mathlib.Data.Nat.Digits.Defs
import Mathlib.Order.Bounds.Basic
import NodeTrace.Automaton.Metric
import NodeTrace.Names.Registry

/-!
# Numbers and labels as text

Digits are read back as the number that they write (`Digits.value_padded`), so different counts have different labels
and different ids are shown differently where they have no name (`hexId_injective`).  Numbers of all kinds are written
with few characters (`Numeral`), so that they and the labels of metrics are plain: they can stand between double quotes
as they are (`Metric.plain_label`).  A column is as wide as the longest text in it (`isGreatest_foldl_max`).
-/

namespace NodeTrace

/-! ## Digits -/

namespace Digits

/-- The digits up to base 16. -/
def all : List Char := "0123456789abcdef".toList

/-- The number that digits write. -/
def value (base : Nat) (digits : List Char) : Nat := digits.foldl (fun n c => n * base + all.idxOf c) 0

theorem mem_toDigits {base : Nat} (hb : 1 < base) (hle : base ≤ 16) (n : Nat) : ∀ c ∈ Nat.toDigits base n, c ∈ all := by
  have hdigit : ∀ d < 16, d.digitChar ∈ all := by decide
  induction n using Nat.strongRecOn with
  | ind n ih =>
    rw [Nat.toDigits_eq_if hb]
    split
    · exact List.forall_mem_singleton.2 (hdigit n (by omega))
    · rename_i hge
      have hmod : n % base < base := Nat.mod_lt n (by omega)
      intro c hc
      rcases List.mem_append.1 hc with hc | hc
      · exact ih (n / base) (Nat.div_lt_self (by omega) hb) c hc
      · rw [List.mem_singleton.1 hc]
        exact hdigit _ (by omega)

theorem mem_padded {base : Nat} (hb : 1 < base) (hle : base ≤ 16) (width n : Nat) :
    ∀ c ∈ padded base width n, c ∈ all := by
  intro c hc
  unfold padded List.leftpad at hc
  rcases List.mem_append.1 hc with hc | hc
  · rw [List.eq_of_mem_replicate hc]
    decide
  · exact mem_toDigits hb hle n c hc

theorem value_concat (base : Nat) (digits : List Char) (c : Char) :
    value base (digits ++ [c]) = value base digits * base + all.idxOf c := by
  unfold value
  rw [List.foldl_append, List.foldl_cons, List.foldl_nil]

theorem value_toDigits {base : Nat} (hb : 1 < base) (hle : base ≤ 16) (n : Nat) :
    value base (Nat.toDigits base n) = n := by
  have hdigit : ∀ d < 16, all.idxOf d.digitChar = d := by decide
  induction n using Nat.strongRecOn with
  | ind n ih =>
    rw [Nat.toDigits_eq_if hb]
    split
    · unfold value
      rw [List.foldl_cons, List.foldl_nil, hdigit n (by omega), Nat.zero_mul, Nat.zero_add]
    · rename_i hge
      have hmod : n % base < base := Nat.mod_lt n (by omega)
      rw [value_concat, ih (n / base) (Nat.div_lt_self (by omega) hb), hdigit _ (by omega), Nat.mul_comm]
      exact Nat.div_add_mod n base

/-- Zeros in front do not count. -/
theorem value_padded {base : Nat} (hb : 1 < base) (hle : base ≤ 16) (width n : Nat) :
    value base (padded base width n) = n := by
  have hzeros (k : Nat) : (List.replicate k '0').foldl (fun n c => n * base + all.idxOf c) 0 = 0 := by
    have hzero : all.idxOf '0' = 0 := by decide
    induction k with
    | zero => rfl
    | succ k ih => rw [List.replicate_succ, List.foldl_cons, hzero, Nat.zero_mul, ih]
  have hvalue := value_toDigits hb hle n
  unfold value at hvalue ⊢
  unfold padded List.leftpad
  rw [List.foldl_append, hzeros, hvalue]

/-- Different numbers have different digits. -/
theorem padded_injective {base : Nat} (hb : 1 < base) (hle : base ≤ 16) (width : Nat) :
    Function.Injective (padded base width) :=
  Function.LeftInverse.injective (g := value base) (value_padded hb hle width)

theorem decimal_injective : Function.Injective decimal := by
  have hdigits : Function.Injective (Nat.toDigits 10) :=
    Function.LeftInverse.injective (g := value 10) (value_toDigits (by decide) (by decide))
  exact fun n n' h => hdigits (String.ofList_injective h)

/-- A number that the digits are enough for is padded to exactly as many. -/
theorem length_padded {base width n : Nat} (hw : 0 < width) (h : n < base ^ width) :
    (padded base width n).length = width := by
  have hle : (Nat.toDigits base n).length ≤ width := Nat.toDigits_length base n width hw h
  unfold padded List.leftpad
  rw [List.length_append, List.length_replicate]
  omega

theorem mem_hex (width n : Nat) : ∀ c ∈ (hex width n).toList, c ∈ all := by
  unfold hex
  rw [String.toList_ofList]
  exact mem_padded (by decide) (by decide) width n

theorem value_hex (width n : Nat) : value 16 (hex width n).toList = n := by
  unfold hex
  rw [String.toList_ofList]
  exact value_padded (by decide) (by decide) width n

theorem length_hex {width n : Nat} (hw : 0 < width) (h : n < 16 ^ width) : (hex width n).toList.length = width := by
  unfold hex
  rw [String.toList_ofList]
  exact length_padded hw h

theorem hex_injective (width : Nat) : Function.Injective (hex width) :=
  Function.LeftInverse.injective (g := fun text : String => value 16 text.toList) (value_hex width)

/-- Different numbers have different digits in upper case too. -/
theorem hexUpper_injective (width : Nat) : Function.Injective (hexUpper width) := by
  have hlower : all.map (Char.toLower ∘ Char.toUpper) = all.map id := by decide
  have hback (n : Nat) : ((padded 16 width n).map Char.toUpper).map Char.toLower = padded 16 width n := by
    have hall : ∀ c ∈ padded 16 width n, (Char.toLower ∘ Char.toUpper) c = id c := fun c hc =>
      List.map_inj_left.1 hlower c (mem_padded (by decide) (by decide) width n c hc)
    rw [List.map_map, List.map_congr_left hall, List.map_id]
  intro n n' h
  have hdigits := congrArg (List.map Char.toLower) (String.ofList_injective h)
  rw [hback, hback] at hdigits
  exact padded_injective (by decide) (by decide) width hdigits

end Digits

theorem hexId_injective : Function.Injective hexId := fun _ _ h => UInt16.toNat_inj.1 (Digits.hex_injective 4 h)

/-! ## Plain text -/

/-- The text has no double quote, no backslash and no line feed. -/
def Plain (text : String) : Prop := ∀ c ∈ text.toList, c ≠ '"' ∧ c ≠ '\\' ∧ c ≠ '\n'

instance (text : String) : Decidable (Plain text) := List.decidableBAll _ text.toList

theorem Plain.append {text text' : String} (h : Plain text) (h' : Plain text') : Plain (text ++ text') := by
  intro c hc
  rw [String.toList_append] at hc
  exact (List.mem_append.1 hc).elim (h c) (h' c)

/-! ## Numerals -/

/-- The characters of numbers in either case, with sign and point and of the words for what is no number. -/
def Digits.numerals : List Char := all ++ "ABCDEF-.inN".toList

/-- The text is made of characters that numbers are written with. -/
def Numeral (text : String) : Prop := ∀ c ∈ text.toList, c ∈ Digits.numerals

instance (text : String) : Decidable (Numeral text) := List.decidableBAll _ text.toList

namespace Numeral

variable {text text' : String}

theorem append (h : Numeral text) (h' : Numeral text') : Numeral (text ++ text') := by
  intro c hc
  rw [String.toList_append] at hc
  exact (List.mem_append.1 hc).elim (h c) (h' c)

theorem ofDigits {digits : List Char} (h : ∀ c ∈ digits, c ∈ Digits.all) : Numeral (String.ofList digits) := by
  intro c hc
  rw [String.toList_ofList] at hc
  exact List.mem_append_left _ (h c hc)

theorem hex (width n : Nat) : Numeral (Digits.hex width n) :=
  fun c hc => List.mem_append_left _ (Digits.mem_hex width n c hc)

/-- What holds of every character that numbers are written with holds of those of a numeral. -/
theorem forall_mem {p : Char → Prop} (h : Numeral text) (hp : ∀ c ∈ (String.ofList Digits.numerals).toList, p c) :
    ∀ c ∈ text.toList, p c := by
  rw [String.toList_ofList] at hp
  exact fun c hc => hp c (h c hc)

theorem plain (h : Numeral text) : Plain text := by
  have hall : Plain (String.ofList Digits.numerals) := by decide
  exact h.forall_mem hall

end Numeral

theorem Digits.numeral_decimal (n : Nat) : Numeral (decimal n) :=
  .ofDigits (mem_toDigits (by decide) (by decide) n)

theorem numeral_hexId (id : UInt16) : Numeral (hexId id) := .hex 4 id.toNat

theorem Decimal.numeral_fixed (places units : Nat) : Numeral (fixed places units) :=
  ((Digits.numeral_decimal _).append (by decide)).append
    (.ofDigits (Digits.mem_padded (by decide) (by decide) places _))

theorem Binary64.numeral_fixed (places : Nat) (x : Binary64) : Numeral (x.fixed places) := by
  have hsign (negative : Bool) : Numeral (if negative then "-" else "") := by
    cases negative <;> decide
  unfold Binary64.fixed
  dsimp only
  split
  · decide
  · exact (hsign _).append (by decide)
  · exact (hsign _).append (Decimal.numeral_fixed places _)

/-! ## Text without a character -/

/-- The character does not occur in the text. -/
def Without (c : Char) (text : String) : Prop := c ∉ text.toList

instance (c : Char) (text : String) : Decidable (Without c text) := inferInstanceAs (Decidable (¬_))

theorem Numeral.without {c : Char} {text : String} (h : Numeral text) (hc : c ∉ Digits.numerals) : Without c text :=
  fun hmem => hc (h c hmem)

namespace Without

variable {c : Char}

theorem append {text text' : String} (h : Without c text) (h' : Without c text') : Without c (text ++ text') := by
  unfold Without
  rw [String.toList_append, List.mem_append]
  exact fun hmem => hmem.elim h h'

theorem join {parts : List String} (h : ∀ part ∈ parts, Without c part) : Without c (String.join parts) := by
  unfold Without
  rw [String.toList_join, List.mem_flatMap]
  exact fun ⟨part, hpart, hmem⟩ => h part hpart hmem

theorem ofList {cs : List Char} (h : c ∉ cs) : Without c (String.ofList cs) := by
  unfold Without
  rwa [String.toList_ofList]

/-- Blanks that fill up a text to a width are no other character. -/
theorem rightpad {text : String} (h : Without c text) (hc : c ≠ ' ') (width : Nat) :
    Without c (String.ofList (text.toList.rightpad width ' ')) := by
  refine .ofList fun hmem => ?_
  unfold List.rightpad at hmem
  rcases List.mem_append.1 hmem with hmem | hmem
  · exact h hmem
  · exact hc (List.eq_of_mem_replicate hmem)

end Without

/-! ## Labels of metrics -/

namespace Metric

theorem plain_aggregateLabel {α : Type} [Sample α] {text : α → String} (h : ∀ x, Plain (text x))
    (a : Option (Aggregate α)) : Plain (aggregateLabel text a) := by
  cases a with
  | none => exact (by decide : Plain "n/a")
  | some a =>
    have hmin : Plain ("min=" ++ text a.min) := Plain.append (by decide) (h a.min)
    have hmean : Plain (" avg=" ++ a.mean.fixed decimals) := Plain.append (by decide) (a.mean.numeral_fixed decimals).plain
    have hmax : Plain (" max=" ++ text a.max) := Plain.append (by decide) (h a.max)
    have hall := (hmin.append hmean).append hmax
    unfold aggregateLabel
    simpa only [String.append_assoc] using hall

/-- The label of a transition is plain, whichever the metric. -/
theorem plain_label (metric : Metric) (s : Statistics) : Plain (metric.label s) := by
  have hwhole (n : UInt64) : Plain (Digits.decimal n.toNat) := (Digits.numeral_decimal n.toNat).plain
  cases metric with
  | simMicros => exact plain_aggregateLabel hwhole s.simMicros
  | cycles => exact plain_aggregateLabel hwhole s.cycles
  | nodeMillis => exact plain_aggregateLabel (fun x => (x.numeral_fixed decimals).plain) s.nodeMillis
  | count => exact Plain.append (by decide) (hwhole s.count)

end Metric

/-- Different counts have different labels. -/
theorem Metric.label_count_injective {s s' : Statistics} (h : Metric.count.label s = Metric.count.label s') :
    s.count = s'.count := by
  have hlists := congrArg String.toList h
  unfold Metric.label at hlists
  dsimp only at hlists
  rw [String.toList_append, String.toList_append] at hlists
  have hdigits := String.toList_injective (List.append_cancel_left hlists)
  exact UInt64.toNat_inj.1 (Digits.decimal_injective hdigits)

/-! ## Widths -/

section Widths

variable {α : Type} (length : α → Nat)

theorem foldl_max_le_iff (xs : List α) (least n : Nat) :
    xs.foldl (fun width x => max width (length x)) least ≤ n ↔ least ≤ n ∧ ∀ x ∈ xs, length x ≤ n := by
  induction xs generalizing least with
  | nil => simp
  | cons x rest ih => rw [List.foldl_cons, ih, List.forall_mem_cons, Nat.max_le, and_assoc]

theorem foldl_max_mem (xs : List α) (least : Nat) :
    xs.foldl (fun width x => max width (length x)) least ∈ least :: xs.map length := by
  induction xs generalizing least with
  | nil => exact List.mem_cons_self
  | cons x rest ih =>
    rw [List.foldl_cons, List.map_cons]
    rcases List.mem_cons.1 (ih (max least (length x))) with hmax | hrest
    · rw [hmax]
      rcases Nat.le_total least (length x) with hle | hle
      · rw [Nat.max_eq_right hle]
        exact List.mem_cons_of_mem _ List.mem_cons_self
      · rw [Nat.max_eq_left hle]
        exact List.mem_cons_self
    · exact List.mem_cons_of_mem _ (List.mem_cons_of_mem _ hrest)

/-- A width is the greatest of some lengths if there are any. -/
theorem isGreatest_foldl_max {xs : List α} (h : xs ≠ []) :
    IsGreatest {n | ∃ x ∈ xs, length x = n} (xs.foldl (fun width x => max width (length x)) 0) := by
  have hbound := ((foldl_max_le_iff length xs 0 _).1 (Nat.le_refl _)).2
  refine ⟨?_, fun n ⟨x, hx, hn⟩ => hn ▸ hbound x hx⟩
  rcases List.mem_cons.1 (foldl_max_mem length xs 0) with hzero | hmem
  · obtain ⟨x, hx⟩ := List.exists_mem_of_ne_nil xs h
    have hle := hbound x hx
    exact ⟨x, hx, by omega⟩
  · obtain ⟨x, hx, hlen⟩ := List.mem_map.1 hmem
    exact ⟨x, hx, hlen⟩

end Widths

end NodeTrace
