import NodeTrace.Json.Literal

/-!
# JSON of a wanted shape

A value is scanned for what it should be: a number, a string, a list, or a record.  A record is written as
an object with named members in any order, or as a list of its fields in their order.  A value of another
shape is a mismatch, and so is a record that lacks a field or has one twice.  Members that no field is named
for are a mismatch as well, or are passed over, as the record wants it.
-/

namespace NodeTrace.Json.Scan

variable {α σ : Type}

/-- Pass over one character, with blanks in front of it. -/
def mark (c : Char) : Scan Unit := do
  match ← peekToken with
  | none => stop .unfinished
  | some b => if b = ascii c then advance else stop .malformed

/-- Tell whether another item follows in front of `close`, and pass over the comma that parts it from an
item before.  No comma may stand in front of `close`. -/
def another (close : Char) (first : Bool) : Scan Bool := do
  match ← peekToken with
  | none => stop .unfinished
  | some b =>
    if b = ascii close then return false
    else if first then return true
    else if b = ascii ',' then
      advance
      match ← peekToken with
      | none => stop .unfinished
      | some b => if b = ascii close then stop .malformed else return true
    else stop .malformed

/-- Pass over a word, a number or a string, if one begins here, and tell whether one did. -/
def scalar (strict : Bool) : Scan Bool := do
  let b ← peekValue
  if b = ascii 'n' then
    advance
    word ['u', 'l', 'l']
    return true
  else if b = ascii 't' then
    advance
    word ['r', 'u', 'e']
    return true
  else if b = ascii 'f' then
    advance
    word ['a', 'l', 's', 'e']
    return true
  else if b = ascii '"' then
    advance
    if strict then
      let _ ← text
    else
      let _ ← string false
    return true
  else if b = ascii '-' ∨ isDigit b then
    let negative := b == ascii '-'
    if negative then advance
    if strict then
      let _ ← numeral negative
    else
      passNumber
    return true
  else return false

/-- Stop at a value that is not of the wanted shape.  What is no value at all is malformed, and a word, a
number or a string is scanned to its end, where it may turn out to be malformed. -/
def refuse : Scan α := do
  if ← scalar true then stop .mismatch
  let b ← peek
  if b = some (ascii '[') ∨ b = some (ascii '\x7b') then stop .mismatch else stop .malformed

/-! ## Values that are passed over -/

/-- The two kinds of brackets. -/
inductive Bracket where
  | list
  | object
  deriving DecidableEq, Repr

/-- The character that opens a bracket. -/
def Bracket.opening : Bracket → Char
  | .list => '['
  | .object => '\x7b'

/-- The character that closes a bracket. -/
def Bracket.closing : Bracket → Char
  | .list => ']'
  | .object => '\x7d'

/-- The bracket that a byte opens. -/
def Bracket.ofOpening? (b : UInt8) : Option Bracket :=
  [list, object].find? fun bracket => b = ascii bracket.opening

/-- Where the scan of a value stands inside the brackets that are open, the innermost first. -/
inductive Spot where
  /-- In front of a value. -/
  | value (outer : List Bracket)
  /-- Behind the opening of a bracket, or behind an item of it. -/
  | item (first : Bool) (bracket : Bracket) (outer : List Bracket)

/-- Behind a value: an item of the innermost bracket, or the end. -/
def Spot.behind : List Bracket → Spot ⊕ Unit
  | [] => .inr ()
  | bracket :: outer => .inl (.item false bracket outer)

/-- Pass over the name of a member and its colon. -/
def passKey : Scan Unit := do
  mark '"'
  let _ ← string false
  mark ':'

/-- Scan on from a spot. -/
def pass : Spot → Scan (Spot ⊕ Unit)
  | .value outer => do
    if ← scalar false then return Spot.behind outer
    match Bracket.ofOpening? (← peekValue) with
    | none => stop .malformed
    | some bracket =>
      advance
      return .inl (.item true bracket outer)
  | .item first bracket outer => do
    if ← another bracket.closing first then
      if bracket = .object then passKey
      return .inl (.value (bracket :: outer))
    else
      advance
      return Spot.behind outer

/-- Pass over a value for its form only, however deep it is. -/
def ignored : Scan Unit := loop pass (.value [])

/-! ## Values that count -/

/-- Scan a natural number of 16 bits. -/
def word16 : Scan UInt16 := do
  if isDigit (← peekValue) then
    match ← numeral false with
    | .natural n => if n < UInt16.size then return UInt16.ofNat n else stop .mismatch
    | .other => stop .mismatch
  else refuse

/-- Scan a string. -/
def quoted : Scan String := do
  if (← peekValue) = ascii '"' then
    advance
    text
  else refuse

/-- Scan a list. -/
def list (item : Scan α) : Scan (List α) := do
  if (← peekValue) = ascii '[' then
    advance
    let items ← loop (fun (items : Array α) => do
      if ← another ']' items.isEmpty then return .inl (items.push (← item))
      else return .inr items.toList) #[]
    mark ']'
    return items
  else refuse

/-- A field of a record whose draft is filled while scanning: its name, whether the draft has it already, and
how its value is scanned into the draft. -/
structure Slot (σ : Type) where
  key : String
  filled : σ → Bool
  fill : σ → Scan σ

/-- How a record is scanned. -/
structure Shape (σ α : Type) where
  /-- The fields, in their order in a list. -/
  slots : List (Slot σ)
  /-- Members of other names are passed over. -/
  lax : Bool
  /-- The draft that no field was scanned for. -/
  blank : σ
  /-- The record, unless a field is wanting. -/
  finish : σ → Option α

/-- The record of a draft. -/
def Shape.close (shape : Shape σ α) (draft : σ) : Scan α :=
  match shape.finish draft with
  | none => stop .mismatch
  | some a => return a

/-- Scan fields from a list in their order, as many as there are. -/
def fields : List (Slot σ) → (first : Bool) → σ → Scan σ
  | [], _, draft => return draft
  | slot :: rest, first, draft => do
    if ← another ']' first then fields rest false (← slot.fill draft) else return draft

/-- Scan one member of an object, or answer the draft at the end of the object. -/
def member (shape : Shape σ α) : Bool × σ → Scan (Bool × σ ⊕ σ) := fun (first, draft) => do
  if ← another '\x7d' first then
    mark '"'
    let key ← text
    match shape.slots.find? (·.key = key) with
    | some slot =>
      if slot.filled draft then stop .mismatch
      mark ':'
      return .inl (false, ← slot.fill draft)
    | none =>
      if !shape.lax then stop .mismatch
      mark ':'
      ignored
      return .inl (false, draft)
  else return .inr draft

/-- Scan a record. -/
def record (shape : Shape σ α) : Scan α := do
  match Bracket.ofOpening? (← peekValue) with
  | some .list =>
    advance
    let a ← shape.close (← fields shape.slots true shape.blank)
    mark ']'
    return a
  | some .object =>
    advance
    let a ← shape.close (← loop (member shape) (true, shape.blank))
    mark '\x7d'
    return a
  | none => refuse

end NodeTrace.Json.Scan
