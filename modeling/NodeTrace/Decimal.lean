import NodeTrace.Digits

/-!
# Fixed-point decimals

`roundDiv` rounds a quotient to the nearest whole number and takes the even one of two that are equally
near.  `fixed` writes a number given in units of the last place, with a fixed number of places.
-/

namespace NodeTrace.Decimal

/-- The whole number nearest to `num / den`; of two that are equally near, the even one. -/
def roundDiv (num den : Nat) : Nat :=
  let q := num / den
  let r := num % den
  if 2 * r < den then q else if den < 2 * r then q + 1 else q + q % 2

/-- How many units of the last of some places make one. -/
def unitsPerOne : (places : Nat) → Nat
  | 0 => 1
  | places + 1 => unitsPerOne places * 10

/-- The text of a number of units of the last place, with all of its places. -/
def fixed (places units : Nat) : String :=
  Digits.decimal (units / unitsPerOne places) ++ "." ++
    String.ofList (Digits.padded 10 places (units % unitsPerOne places))

/-- The rounded quotient is within half a unit of the exact one. -/
theorem roundDiv_near {num den : Nat} (h : 0 < den) :
    2 * num ≤ 2 * (roundDiv num den * den) + den ∧ 2 * (roundDiv num den * den) ≤ 2 * num + den := by
  have hq := Nat.div_add_mod num den
  have hr := Nat.mod_lt num h
  rw [Nat.mul_comm] at hq
  have hle : num / den % 2 * den ≤ den := by
    rcases Nat.mod_two_eq_zero_or_one (num / den) with hp | hp <;> rw [hp] <;> omega
  unfold roundDiv
  dsimp only
  split
  · omega
  · split
    · rw [Nat.add_mul]; omega
    · rw [Nat.add_mul]; omega

/-- A tie goes to the even neighbour. -/
theorem roundDiv_tie {num den : Nat} (h : 2 * (num % den) = den) : roundDiv num den % 2 = 0 := by
  unfold roundDiv
  dsimp only
  rw [if_neg (by omega), if_neg (by omega)]
  omega

end NodeTrace.Decimal
