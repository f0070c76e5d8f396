import NodeTrace.Digits
import NodeTrace.Fault

/-!
# Why decoding fails

`DecodeError` lists the causes for which a trace, or the next frame of one, cannot be decoded, and
`DecodeError.message` words them.  The end of the trace is one of them: it is clean (`endOfStream`) where a
frame might have started and `truncated` everywhere else; `inside` turns the one into the other.
-/

namespace NodeTrace

/-- The length that an element of known shape has to declare. -/
inductive LengthRule where
  | exactly (bytes : UInt32)
  | atLeast (bytes : UInt32)
  deriving DecidableEq, Repr

/-- The wording of a length rule. -/
def LengthRule.message : LengthRule → String
  | .exactly bytes => "exactly " ++ Digits.decimal bytes.toNat
  | .atLeast bytes => "at least " ++ Digits.decimal bytes.toNat

/-- Why decoding failed. -/
inductive DecodeError where
  /-- The trace ended where a frame might have started. -/
  | endOfStream
  /-- The trace ended inside its header or inside a frame. -/
  | truncated
  | io (fault : Fault)
  | badMagic (found : UInt32)
  | versionMismatch (found expected : UInt32)
  | outOfMemory
  | inconsistentLength (element : String) (expected : LengthRule) (found : UInt32)
  | invalidFormat (text : String)
  | payloadTooLarge (length limit : Nat)
  deriving DecidableEq, Repr

namespace DecodeError

/-- The wording of a decode error. -/
def message : DecodeError → String
  | .endOfStream => "End of file reached."
  | .truncated => "Invalid file format (missing data)."
  | .io fault => "IO error: " ++ fault.message
  | .badMagic found => "Invalid magik numbers (found " ++ Digits.hex 8 found.toNat ++ ")."
  | .versionMismatch found expected =>
    "Major version mismatch (trace is " ++ Digits.decimal found.toNat ++ ", expected " ++
      Digits.decimal expected.toNat ++ ")."
  | .outOfMemory => "Out of memory."
  | .inconsistentLength element expected found =>
    "Inconsistent parsing: " ++ element ++ " declares " ++ Digits.decimal found.toNat ++
      " bytes, expected " ++ expected.message ++ "."
  | .invalidFormat text => "Invalid file format: " ++ text
  | .payloadTooLarge length limit =>
    "Extra data element too large (" ++ Digits.decimal length ++ " bytes, limit is " ++
      Digits.decimal limit ++ ")."

/-- The same error met inside a frame: there is no clean end in it. -/
def inside : DecodeError → DecodeError
  | .endOfStream => .truncated
  | error => error

@[simp] theorem inside_endOfStream : inside .endOfStream = .truncated := rfl

theorem inside_ne_endOfStream (error : DecodeError) : error.inside ≠ .endOfStream := by
  cases error <;> simp [inside]

end DecodeError

end NodeTrace
