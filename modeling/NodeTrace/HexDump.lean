import NodeTrace.Digits

/-!
# Hex dumps

Bytes for a human reader, sixteen to a line: the offset, the bytes in hexadecimal in two groups of eight, and
a column that shows printable ASCII as it is and everything else as a dot.  A short last line is filled with
`__`, so that the columns of all lines stand below each other.
-/

namespace NodeTrace.HexDump

/-- How many bytes stand in one group, and on one line. -/
def groupSize : Nat := 8
def lineSize : Nat := 2 * groupSize

/-- The sixteen places of a line, empty beyond the last byte. -/
def places (bytes : List UInt8) : List (Option UInt8) :=
  bytes.map some ++ List.replicate (lineSize - bytes.length) none

/-- A place in the hexadecimal columns. -/
def cell : Option UInt8 → String
  | some b => Digits.hex 2 b.toNat ++ " "
  | none => "__ "

/-- A place in the character column. -/
def character : Option UInt8 → Char
  | some b => if 0x20 ≤ b ∧ b ≤ 0x7e then Char.ofNat b.toNat else '.'
  | none => '.'

/-- One line of at most sixteen bytes. -/
def line (offset : Nat) (bytes : List UInt8) : String :=
  let p := places bytes
  "$" ++ Digits.hex 4 offset ++ ": " ++
    String.join ((p.take groupSize).map cell) ++ " " ++ String.join ((p.drop groupSize).map cell) ++
    "|" ++ String.ofList (p.map character) ++ "|"

/-- The lines of the bytes that start at an offset. -/
def linesFrom (offset : Nat) : List UInt8 → List String
  | [] => []
  | b :: rest =>
    let bytes := b :: rest
    line offset (bytes.take lineSize) :: linesFrom (offset + lineSize) (bytes.drop lineSize)
termination_by bytes => bytes.length
decreasing_by simp only [List.length_drop, List.length_cons, lineSize, groupSize]; omega

/-- The lines of a dump. -/
def lines (bytes : List UInt8) : List String := linesFrom 0 bytes

/-- A dump, each line with its line feed. -/
def text (bytes : List UInt8) : String := String.join ((lines bytes).map (· ++ "\n"))

end NodeTrace.HexDump
