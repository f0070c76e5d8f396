import NodeTrace.Decimal

/-!
# IEEE 754 binary64 numbers by their bits

Traces carry doubles as eight bytes, and a double is written back with exactly the bits it was read with,
so a number is its bit pattern.  Arithmetic is the machine's.  `view` gives the exact value of a pattern as
`m * 2 ^ q`, and `fixed` its decimal text with a fixed number of places, rounded once from the exact value,
ties to even, never in exponential form.
-/

namespace NodeTrace

/-- A double as its 64 bits: sign, eleven bits of exponent, fifty-two of fraction. -/
structure Binary64 where
  bits : UInt64
  deriving DecidableEq, Repr

namespace Binary64

/-- Positive zero. -/
def zero : Binary64 := ⟨0⟩

instance : Inhabited Binary64 := ⟨zero⟩

/-- The bit pattern of a machine double. -/
def ofFloat (x : Float) : Binary64 := ⟨x.toBits⟩

/-- The machine double of a bit pattern. -/
def toFloat (x : Binary64) : Float := Float.ofBits x.bits

/-- The double nearest to a whole number. -/
def ofUInt64 (n : UInt64) : Binary64 := ofFloat n.toFloat

instance : Add Binary64 := ⟨fun x y => ofFloat (x.toFloat + y.toFloat)⟩

instance : Sub Binary64 := ⟨fun x y => ofFloat (x.toFloat - y.toFloat)⟩

instance : Div Binary64 := ⟨fun x y => ofFloat (x.toFloat / y.toFloat)⟩

/-- The order of doubles; false if one of them is not a number. -/
def lt (x y : Binary64) : Bool := x.toFloat < y.toFloat

/-- What a bit pattern stands for. -/
inductive View where
  | nan
  | infinite (negative : Bool)
  /-- The number `m * 2 ^ q`, with a sign that zero has too. -/
  | finite (negative : Bool) (m : Nat) (q : Int)
  deriving DecidableEq, Repr

/-- The meaning of a bit pattern. -/
def view (x : Binary64) : View :=
  let n := x.bits.toNat
  let hidden : Nat := 1 <<< 52
  let negative : Bool := n >>> 63 = 1
  let exponent : Nat := n / hidden % 2048
  let fraction : Nat := n % hidden
  if exponent = 2047 then if fraction = 0 then .infinite negative else .nan
  else if exponent = 0 then .finite negative fraction (-1074)
  else .finite negative (fraction + hidden) (Int.ofNat exponent - 1075)

/-- The absolute value `m * 2 ^ q` in units of the last of some places, rounded to the nearest, ties to even. -/
def scaled (places m : Nat) (q : Int) : Nat :=
  Decimal.roundDiv ((m * Decimal.unitsPerOne places) <<< q.toNat) (1 <<< (-q).toNat)

/-- Decimal text with a fixed number of places. -/
def fixed (places : Nat) (x : Binary64) : String :=
  let sign (negative : Bool) := if negative then "-" else ""
  match x.view with
  | .nan => "NaN"
  | .infinite negative => sign negative ++ "inf"
  | .finite negative m q => sign negative ++ Decimal.fixed places (scaled places m q)

end Binary64

end NodeTrace
