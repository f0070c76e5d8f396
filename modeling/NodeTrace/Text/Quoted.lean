import NodeTrace.Digits
import NodeTrace.Text.Hidden

/-!
# Quoted text

Text from outside is quoted where a message repeats it, so that its ends and its hidden characters can be
seen: it stands between double quotes, inside of which a quote and a backslash are escaped, common controls
have a letter, and every other hidden character is given by its code point.
-/

namespace NodeTrace.Text

/-- A hidden character by its code point. -/
def byCodePoint (c : Char) : List Char :=
  ['\\', 'u', '\x7b'] ++ Digits.padded 16 1 c.toNat ++ ['\x7d']

/-- One character between quotes. -/
def quotedChar (c : Char) : List Char :=
  match c with
  | '"' => ['\\', '"']
  | '\\' => ['\\', '\\']
  | '\n' => ['\\', 'n']
  | '\r' => ['\\', 'r']
  | '\t' => ['\\', 't']
  | '\x00' => ['\\', '0']
  | c => if isHidden c then byCodePoint c else [c]

/-- Text between quotes. -/
def quoted (text : String) : String :=
  String.ofList (['"'] ++ text.toList.flatMap quotedChar ++ ['"'])

end NodeTrace.Text
