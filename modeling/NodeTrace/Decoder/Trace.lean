import NodeTrace.Decoder.Frame

/-!
# Decoding a trace

`openTrace` reads and checks the header.  All sixteen bytes are read before any of them is judged, so a short
header is truncated whatever it holds; then the magic words are judged from left to right, and the major
version last.  After that each call of `Decode.frame` reads one frame; `pull` presents the calls as a stream
that ends where the trace ends cleanly, and `frames` collects all frames up to the first error.
-/

namespace NodeTrace

namespace Decode

/-- Refuse a header with another magic word. -/
def requireMagic (found expected : UInt32) : Decode Unit :=
  if found = expected then pure () else throw (.badMagic found)

/-- Read and check the header of a trace. -/
def header : Decode TraceHeader := do
  let first ← word32.inside
  let second ← word32.inside
  let major ← word32.inside
  let minor ← word32.inside
  requireMagic first Format.magic.1
  requireMagic second Format.magic.2
  if major = Format.majorVersion then return ⟨major, minor⟩
  else throw (.versionMismatch major Format.majorVersion)

/-- Read the header of a trace whose attached data will be read up to `limit` bytes. -/
def openTrace (limit : Nat) : Decode TraceHeader := do
  let header ← header
  let minor := Digits.decimal header.minor.toNat
  note .debug ("opened trace version " ++ Digits.decimal header.major.toNat ++ "." ++ minor ++
    " (max payload " ++ Digits.decimal limit ++ " bytes)")
  if header.minor = Format.minorVersion then return header
  else
    note .warn ("trace minor version " ++ minor ++ " differs from " ++
      Digits.decimal Format.minorVersion.toNat ++ ", continuing")
    return header

end Decode

namespace Decoder

/-- A decoder at the start of a source. -/
def ofSource (source : Source) : Decoder := { source }

/-- The next frame or the error in its place; nothing at the clean end of the trace. -/
def pull (limit : Nat) (d : Decoder) : Option (Except DecodeError Frame) × Decoder :=
  match Decode.frame limit d with
  | .ok frame d' => (some (.ok frame), d')
  | .error .endOfStream d' => (none, d')
  | .error e d' => (some (.error e), d')

/-- The frames in front of the first error, that error, and the decoder behind it. -/
def frames (limit : Nat) (d : Decoder) : List Frame × DecodeError × Decoder :=
  match _h : Decode.frame limit d with
  | .error e d' => ([], e, d')
  | .ok frame d' => (d'.frames limit).map (frame :: ·) id
termination_by d.unread
decreasing_by
  have := Decode.consumes_frame limit _h
  omega

end Decoder

end NodeTrace
