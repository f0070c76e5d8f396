import NodeTrace.Decoder.Basic
import NodeTrace.Format

/-!
# Element headers

Every element starts with its tag and the length of its payload.  The last bit of the control word tells
the width of the length field; the separator has none.
-/

namespace NodeTrace

/-- The tag of an element and the length of its payload. -/
structure ElementHeader where
  tag : UInt16
  length : UInt32
  deriving DecidableEq, Repr

/-- The header closes a scope run. -/
def ElementHeader.isSeparator (h : ElementHeader) : Bool := h.tag = Format.separatorTag

namespace Decode

/-- Read a length field, of four bytes if `wide` and of one if not. -/
def lengthField (wide : Bool) : Decode UInt32 :=
  if wide then word32 else UInt8.toUInt32 <$> word8

/-- Read an element header.  Only its first byte may meet the clean end of the trace. -/
def elementHeader : Decode ElementHeader := do
  let control ← word16
  let tag := control / 2
  if tag = Format.separatorTag then return ⟨tag, 0⟩
  let length ← (lengthField (control % 2 = 1)).inside
  return ⟨tag, length⟩

/-- Refuse an element of known shape that declares another length. -/
def requireLength (element : String) (found expected : UInt32) : Decode Unit :=
  if found = expected then pure () else throw (.inconsistentLength element (.exactly expected) found)

/-- Refuse an element that declares less than it must hold. -/
def requireAtLeast (element : String) (found least : UInt32) : Decode Unit :=
  if least ≤ found then pure () else throw (.inconsistentLength element (.atLeast least) found)

/-- Refuse attached data beyond the limit. -/
def requireWithin (limit size : Nat) : Decode Unit :=
  if size ≤ limit then pure () else throw (.payloadTooLarge size limit)

/-- Read the clocks of a node. -/
def nodeTime : Decode NodeTime := do
  let cycles ← word64
  let millis ← double
  return ⟨cycles, millis⟩

theorem consumes_lengthField (wide : Bool) : Consumes 1 (lengthField wide) := by
  unfold lengthField
  split
  · exact consumes_word32.weaken (by omega)
  · exact consumes_word8.map _

theorem consumes_elementHeader : Consumes 2 elementHeader := by
  refine (Consumes.bind (l := 0) consumes_word16 fun control => ?_)
  dsimp only
  split
  · exact consumes_pure _
  · exact (Consumes.bind (consumes_lengthField _).inside fun _ => consumes_pure _).weaken (by omega)

theorem consumes_requireLength (element : String) (found expected : UInt32) :
    Consumes 0 (requireLength element found expected) := by
  unfold requireLength
  split
  · exact consumes_pure _
  · exact consumes_throw _ _

theorem consumes_requireAtLeast (element : String) (found least : UInt32) :
    Consumes 0 (requireAtLeast element found least) := by
  unfold requireAtLeast
  split
  · exact consumes_pure _
  · exact consumes_throw _ _

theorem consumes_requireWithin (limit size : Nat) : Consumes 0 (requireWithin limit size) := by
  unfold requireWithin
  split
  · exact consumes_pure _
  · exact consumes_throw _ _

theorem consumes_nodeTime : Consumes 16 nodeTime :=
  Consumes.bind (k := 8) (l := 8) consumes_word64 fun _ =>
    Consumes.bind (l := 0) consumes_double fun _ => consumes_pure _

end Decode

end NodeTrace
