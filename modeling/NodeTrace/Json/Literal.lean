import NodeTrace.Json.Scan

/-!
# Strings and numbers of JSON

Strings and numbers are scanned in two ways.  A value that counts is scanned strictly: a string has to be
UTF-8 with its surrogates in pairs, and a number has to fit a double.  A value that is passed over is scanned
leniently, for its form only.
-/

namespace NodeTrace.Json

/-! ## Strings -/

/-- The value of a hexadecimal digit. -/
def hexDigit? (b : UInt8) : Option Nat :=
  if isDigit b then some (b.toNat - 48)
  else if ascii 'a' ≤ b ∧ b ≤ ascii 'f' then some (b.toNat - 87)
  else if ascii 'A' ≤ b ∧ b ≤ ascii 'F' then some (b.toNat - 55)
  else none

/-- The number of four hexadecimal digits. -/
def hexNumber? (digits : List UInt8) : Option Nat :=
  digits.foldlM (fun n b => (hexDigit? b).map (n * 16 + ·)) 0

/-- What a backslash and one letter stand for. -/
def escaped? (b : UInt8) : Option UInt8 :=
  if b = ascii '"' ∨ b = ascii '\\' ∨ b = ascii '/' then some b
  else if b = ascii 'b' then some 0x08
  else if b = ascii 'f' then some 0x0c
  else if b = ascii 'n' then some 0x0a
  else if b = ascii 'r' then some 0x0d
  else if b = ascii 't' then some 0x09
  else none

def isLeading (n : Nat) : Bool := 0xd800 ≤ n ∧ n ≤ 0xdbff
def isTrailing (n : Nat) : Bool := 0xdc00 ≤ n ∧ n ≤ 0xdfff

/-- The UTF-8 bytes of a code point that is no surrogate. -/
def utf8 (n : Nat) : List UInt8 := (String.singleton (Char.ofNat n)).toUTF8.toList

/-- The code point of a pair of surrogates. -/
def ofSurrogates (leading trailing : Nat) : Nat :=
  (leading - 0xd800) * 0x400 + (trailing - 0xdc00) + 0x10000

/-- Where the scan of a string stands.  `leading` is a surrogate that waits for its partner. -/
inductive StringSpot where
  | plain
  /-- Behind a backslash. -/
  | backslash (leading : Option Nat)
  /-- Behind `\u` and some of its four digits. -/
  | digits (leading : Option Nat) (seen : List UInt8)
  /-- Behind a leading surrogate. -/
  | partner (leading : Nat)

/-- The bytes that four digits stand for and where the string goes on. -/
def ofDigits (strict : Bool) (leading : Option Nat) (seen : List UInt8) :
    Except Problem (List UInt8 × StringSpot) :=
  match hexNumber? seen with
  | none => .error .malformed
  | some n =>
    if !strict then .ok ([], .plain)
    else
      match leading with
      | some l => if isTrailing n then .ok (utf8 (ofSurrogates l n), .plain) else .error .malformed
      | none =>
        if isTrailing n then .error .malformed
        else if isLeading n then .ok ([], .partner n)
        else .ok (utf8 n, .plain)

/-- Scan a string from a spot behind its first quote: its bytes and the text behind its last quote. -/
def scanString (strict : Bool) : StringSpot → List UInt8 → Except Problem (List UInt8 × List UInt8)
  | _, [] => .error .unfinished
  | .plain, b :: rest =>
    if b = ascii '"' then .ok ([], rest)
    else if b = ascii '\\' then scanString strict (.backslash none) rest
    else if b < 0x20 then .error .malformed
    else (scanString strict .plain rest).map fun (bytes, rest) => (b :: bytes, rest)
  | .backslash leading, b :: rest =>
    if b = ascii 'u' then scanString strict (.digits leading []) rest
    else
      match leading, escaped? b with
      | none, some c => (scanString strict .plain rest).map fun (bytes, rest) => (c :: bytes, rest)
      | _, _ => .error .malformed
  | .digits leading seen, b :: rest =>
    if seen.length < 3 then scanString strict (.digits leading (seen ++ [b])) rest
    else
      match ofDigits strict leading (seen ++ [b]) with
      | .error p => .error p
      | .ok (bytes, spot) =>
        (scanString strict spot rest).map fun (bytes', rest) => (bytes ++ bytes', rest)
  | .partner leading, b :: rest =>
    if b = ascii '\\' then scanString strict (.backslash (some leading)) rest else .error .malformed

/-! ## Numbers -/

/-- A number that was scanned: a natural number below 2 ^ 64, or any other. -/
inductive Numeral where
  | natural (n : Nat)
  | other
  deriving DecidableEq, Repr

/-- Decimal digits taken into a number of at most 64 bits.  Once a digit does not fit, it and all further
digits are left out; `left` counts them. -/
structure Significand where
  value : Nat := 0
  left : Nat := 0

/-- Take one digit in. -/
def Significand.push (s : Significand) (b : UInt8) : Significand :=
  let value := s.value * 10 + (b.toNat - 48)
  if s.left = 0 ∧ value < UInt64.size then { s with value } else { s with left := s.left + 1 }

/-- Take digits in. -/
def Significand.pushAll (s : Significand) (digits : List UInt8) : Significand := digits.foldl push s

/-- The double nearest to `value * 10 ^ exponent`, computed by one multiplication, is infinite. -/
def overflows (value : Nat) (exponent : Int) : Bool :=
  if exponent ≤ 0 ∨ value = 0 then false
  else if 308 < exponent then true
  else (value.toUInt64.toFloat * Float.ofScientific 1 false exponent.toNat).isInf

namespace Scan

/-- Scan a string behind its first quote.  One without a last quote uses the text up and looks behind it. -/
def string (strict : Bool) : Scan (List UInt8) := do
  match scanString strict .plain (← get) with
  | .ok (bytes, rest) =>
    set rest
    return bytes
  | .error .unfinished =>
    set ([] : List UInt8)
    let _ ← peek
    stop .unfinished
  | .error p => stop p

/-- Scan a string that counts, behind its first quote. -/
def text : Scan String := do
  let bytes ← string true
  match String.fromUTF8? bytes.toByteArray with
  | some s => return s
  | none => stop .malformed

/-- The largest exponent that is computed with. -/
def maxExponent : Nat := 2147483647

/-- Scan an exponent behind its `e` and judge the number `value * 10 ^ shift` with it. -/
def exponent (value : Nat) (shift : Int) : Scan Unit := do
  let negative ← match ← peek with
    | some b =>
      if b = ascii '+' ∨ b = ascii '-' then do
        advance
        pure (b == ascii '-')
      else pure false
    | none => pure false
  match ← next with
  | none => stop .unfinished
  | some b =>
    if !isDigit b then stop .malformed
    let digits ← run isDigit
    let e := (b :: digits).foldl (fun n d => n * 10 + (d.toNat - 48)) 0
    if maxExponent < e then
      if value ≠ 0 ∧ !negative then stop .malformed
    else if overflows value (if negative then shift - e else shift + e) then stop .malformed

/-- Scan the places behind a decimal point and what follows them. -/
def decimals (value : Nat) (shift : Int) : Scan Unit := do
  let digits ← run isDigit
  if digits.isEmpty then
    match ← peek with
    | some _ => stop .malformed
    | none => stop .unfinished
  let s := Significand.pushAll { value } digits
  let shift := shift - (digits.length - s.left : Nat)
  match ← peek with
  | some b =>
    if b = ascii 'e' ∨ b = ascii 'E' then do
      advance
      exponent s.value shift
    else if overflows s.value shift then stop .malformed
  | none => if overflows s.value shift then stop .malformed

/-- Scan a number that counts, behind its sign. -/
def numeral (negative : Bool) : Scan Numeral := do
  match ← next with
  | none => stop .unfinished
  | some b =>
    if !isDigit b then stop .malformed
    let digits ← if b = ascii '0' then pure [] else run isDigit
    if b = ascii '0' then
      if ((← peek).map isDigit).getD false then stop .malformed
    let s := Significand.pushAll {} (b :: digits)
    let following ← peek
    if following = some (ascii '.') then
      advance
      decimals s.value s.left
      return .other
    else if following = some (ascii 'e') ∨ following = some (ascii 'E') then
      advance
      exponent s.value s.left
      return .other
    else if s.left = 0 ∧ !negative then return .natural s.value
    else if overflows s.value s.left then stop .malformed
    else return .other

/-- Pass over an exponent behind its `e`. -/
def passExponent : Scan Unit := do
  let sign ← peek
  if sign = some (ascii '+') ∨ sign = some (ascii '-') then advance
  if (← run isDigit).isEmpty then stop .malformed

/-- Pass over a number behind its sign, for its form only. -/
def passNumber : Scan Unit := do
  match ← next with
  | none => stop .malformed
  | some b =>
    if !isDigit b then stop .malformed
    if b = ascii '0' then
      if ((← peek).map isDigit).getD false then stop .malformed
    else
      let _ ← run isDigit
    let following ← peek
    if following = some (ascii '.') then
      advance
      if (← run isDigit).isEmpty then stop .malformed
      let following ← peek
      if following = some (ascii 'e') ∨ following = some (ascii 'E') then
        advance
        passExponent
    else if following = some (ascii 'e') ∨ following = some (ascii 'E') then
      advance
      passExponent

end Scan

end NodeTrace.Json
