/-!
# Numbers in digits

Decimal and hexadecimal text of natural numbers.  `decimal` has no leading zero, `hex` is padded with zeros
to a least width, in lower or upper case.
-/

namespace NodeTrace.Digits

/-- Digits of `n`, padded on the left with zeros to at least `width` of them. -/
def padded (base width n : Nat) : List Char :=
  List.leftpad width '0' (Nat.toDigits base n)

/-- Decimal text without leading zeros. -/
def decimal (n : Nat) : String := String.ofList (Nat.toDigits 10 n)

/-- Lower-case hexadecimal text of at least `width` digits. -/
def hex (width n : Nat) : String := String.ofList (padded 16 width n)

/-- Upper-case hexadecimal text of at least `width` digits. -/
def hexUpper (width n : Nat) : String := String.ofList ((padded 16 width n).map Char.toUpper)

theorem length_padded_ge (base width n : Nat) : width ≤ (padded base width n).length := by
  simp [padded, List.leftpad]; omega

end NodeTrace.Digits
