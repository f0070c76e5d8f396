import NodeTrace.Fault

/-!
# Scanning JSON

A scan reads JSON text from left to right and stops at the first problem.  `Problem` tells problems apart by
what they blame: the text is no JSON (`malformed`), the JSON is not of the shape that is wanted (`mismatch`),
the text ends too early (`unfinished`), or a byte of it cannot be had (`unread`).  Since what is wanted is known
while scanning, a problem of shape is met before a later problem of the text, and a failure to deliver the text only
where the scan comes to look at a byte that was not delivered.

This module has the steps of which scans are made: looking at the next byte, passing over blanks, and a loop.
-/

namespace NodeTrace.Json

/-- What the first problem of a text blames. -/
inductive Problem where
  | malformed
  | mismatch
  | unfinished
  | unread (fault : Fault)
  deriving DecidableEq, Repr

/-- What a scan knows besides the text that is left. -/
structure Scan.Setting where
  /-- The most rounds of a loop. -/
  rounds : Nat
  /-- What keeps the scan from the bytes behind the text, if the text does not end there. -/
  failure : Option Fault

/-- A step of scanning: it uses a part of the text and answers a value or the first problem. -/
abbrev Scan (α : Type) : Type := ReaderT Scan.Setting (StateT (List UInt8) (Except Problem)) α

/-- The byte of an ASCII character. -/
def ascii (c : Char) : UInt8 := UInt8.ofNat c.toNat

/-- Space, tab, line feed and carriage return stand between tokens. -/
def isBlank (b : UInt8) : Bool := b = 0x20 ∨ b = 0x09 ∨ b = 0x0a ∨ b = 0x0d

/-- The decimal digits. -/
def isDigit (b : UInt8) : Bool := ascii '0' ≤ b ∧ b ≤ ascii '9'

namespace Scan

variable {α σ : Type}

/-- Stop with a problem. -/
def stop (p : Problem) : Scan α := throw p

/-- The next byte, which stays; none at the end of the text. -/
def peek : Scan (Option UInt8) := do
  match (← get).head?, (← read).failure with
  | none, some fault => stop (.unread fault)
  | next?, _ => return next?

/-- Pass over the next byte. -/
def advance : Scan Unit := modify List.tail

/-- The next byte, which is used. -/
def next : Scan (Option UInt8) := do
  let b ← peek
  advance
  return b

/-- Use the longest run of bytes of a class, which the next byte ends. -/
def run (p : UInt8 → Bool) : Scan (List UInt8) := do
  let text ← get
  set (text.dropWhile p)
  let _ ← peek
  return text.takeWhile p

/-- Pass over blanks and look at what follows. -/
def peekToken : Scan (Option UInt8) := do
  let _ ← run isBlank
  peek

/-- Pass over blanks in front of a value, which has to follow. -/
def peekValue : Scan UInt8 := do
  match ← peekToken with
  | some b => return b
  | none => stop .unfinished

/-- Use the rest of a word whose first letter was used. -/
def word : List Char → Scan Unit
  | [] => return
  | c :: rest => do
    match ← next with
    | none => stop .unfinished
    | some b => if b = ascii c then word rest else stop .malformed

/-- Repeat a step at most `fuel` times, until it answers. -/
def repeatUpTo : (fuel : Nat) → (step : σ → Scan (σ ⊕ α)) → σ → Scan α
  | 0, _, _ => stop .unfinished
  | fuel + 1, step, s => do
    match ← step s with
    | .inl s => repeatUpTo fuel step s
    | .inr a => return a

/-- Repeat a step until it answers. -/
def loop (step : σ → Scan (σ ⊕ α)) (s : σ) : Scan α := do
  repeatUpTo (← read).rounds step s

/-- Scan a whole text, in which only blanks may follow, or what of it was delivered up to a failure.  Of two rounds in
turn a loop uses at least a byte, so no loop has more than two rounds for each byte and two more at the end of the
text. -/
def whole (scan : Scan α) (text : List UInt8) (failure : Option Fault) : Except Problem α :=
  let toEnd : Scan α := do
    let a ← scan
    if (← peekToken).isSome then stop .malformed
    return a
  (toEnd ⟨2 * text.length + 2, failure⟩ text).map (·.1)

end Scan

end NodeTrace.Json
