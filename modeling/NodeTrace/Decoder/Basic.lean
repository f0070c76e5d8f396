import NodeTrace.BigEndian
import NodeTrace.Binary64
import NodeTrace.DecodeError
import NodeTrace.Log
import NodeTrace.Source

/-!
# The decoder and its steps

A decoder is a source, the number of bytes taken from it, and the records made on the way.  A step of type
`Decode α` takes bytes and answers a value or an error; either way the decoder it leaves can go on, so an
error does not lose what was read.  This module has the steps that every other step is made of: `take` reads
a number of bytes, `buffer` reads them once there is room for them, `skip` passes over them, and the fixed-width
numbers are read from what `take` brings.

`Consumes k x` says that the step `x`, when it succeeds, has used at least `k` bytes.  Every step comes with
such a lemma; loops over a trace end because each of their rounds uses some bytes.
-/

namespace NodeTrace

/-- A source that is being decoded. -/
structure Decoder where
  source : Source
  /-- How many bytes were decoded.  A `skip` that fails does not count the bytes it passed. -/
  offset : Nat := 0
  log : Array LogRecord := #[]

namespace Decoder

/-- How many bytes were not delivered yet. -/
def unread (d : Decoder) : Nat := d.source.unread.length

/-- Make a record. -/
def note (d : Decoder) (level : LogLevel) (text : String) : Decoder :=
  { d with log := d.log.push ⟨level, text⟩ }

@[simp] theorem unread_note (d : Decoder) (level : LogLevel) (text : String) :
    (d.note level text).unread = d.unread := rfl

end Decoder

/-- A step of decoding. -/
abbrev Decode (α : Type) : Type := EStateM DecodeError Decoder α

namespace Decode

variable {α β : Type}

/-- Make a record. -/
def note (level : LogLevel) (text : String) : Decode Unit := modify (·.note level text)

/-- A step inside a frame: the trace must not end in it. -/
def inside (x : Decode α) : Decode α := fun d =>
  match x d with
  | .ok a d' => .ok a d'
  | .error e d' => .error e.inside d'

/-- Read `n` bytes.  The end of the trace is clean only in front of the first of them. -/
def take (n : Nat) : Decode (List UInt8) := fun d =>
  let got := d.source.gather n
  let d' := { d with source := got.source, offset := d.offset + got.bytes.length }
  match got.ending with
  | .complete => .ok got.bytes d'
  | .exhausted => .error (if got.bytes.isEmpty then .endOfStream else .truncated) d'
  | .failed fault => .error (.io fault) d'

/-- The most bytes that a buffer can have, where addresses have 64 bits. -/
def bufferLimit : Nat := UInt64.size / 2 - 1

/-- Make room for a buffer of `n` bytes.  One that no memory can hold is refused; for any other there is taken to be
memory enough. -/
def reserve (n : Nat) : Decode Unit :=
  if n ≤ bufferLimit then pure () else throw .outOfMemory

/-- Read `n` bytes into a buffer of their own. -/
def buffer (n : Nat) : Decode (List UInt8) := do
  reserve n
  take n

/-- What the length field of an element says is never too much for a buffer. -/
theorem buffer_toNat (length : UInt32) : buffer length.toNat = take length.toNat := by
  have hle : length.toNat ≤ bufferLimit := Nat.le_trans (Nat.le_of_lt length.toNat_lt) (by decide)
  unfold buffer reserve
  rw [if_pos hle]
  rfl

/-- Pass over `n` bytes. -/
def skip (n : Nat) : Decode Unit := fun d =>
  let gone := d.source.discard n
  match gone.ending with
  | .complete => .ok () { d with source := gone.source, offset := d.offset + gone.count }
  | .exhausted => .error .truncated { d with source := gone.source, offset := d.offset + gone.count }
  | .failed fault => .error (.io fault) { d with source := gone.source }

/-- Read a number of `width` bytes. -/
def number (width : Nat) : Decode Nat := BigEndian.toNat <$> take width

def word8 : Decode UInt8 := UInt8.ofNat <$> number 1
def word16 : Decode UInt16 := UInt16.ofNat <$> number 2
def word32 : Decode UInt32 := UInt32.ofNat <$> number 4
def word64 : Decode UInt64 := UInt64.ofNat <$> number 8
def double : Decode Binary64 := Binary64.mk <$> word64

/-! ## Steps use bytes -/

/-- When `x` succeeds it has used at least `k` bytes. -/
def Consumes (k : Nat) (x : Decode α) : Prop :=
  ∀ ⦃d a d'⦄, x d = .ok a d' → d'.unread + k ≤ d.unread

theorem Consumes.weaken {k l : Nat} {x : Decode α} (h : Consumes k x) (hl : l ≤ k) : Consumes l x :=
  fun _ _ _ hx => Nat.le_trans (Nat.add_le_add_left hl _) (h hx)

theorem consumes_pure (a : α) : Consumes 0 (pure a : Decode α) := by
  intro d b d' h
  obtain ⟨-, rfl⟩ := EStateM.Result.ok.inj h
  exact Nat.le_refl _

theorem consumes_throw (e : DecodeError) (k : Nat) : Consumes k (throw e : Decode α) := by
  intro d b d' h
  cases h

theorem Consumes.bind {k l : Nat} {x : Decode α} {f : α → Decode β} (hx : Consumes k x)
    (hf : ∀ a, Consumes l (f a)) : Consumes (k + l) (x >>= f) := by
  intro d b d' h
  change EStateM.bind x f d = _ at h
  unfold EStateM.bind at h
  split at h
  · rename_i a d₁ h₁
    have := hx h₁
    have := hf a h
    omega
  · cases h

theorem Consumes.map {k : Nat} {x : Decode α} (f : α → β) (hx : Consumes k x) :
    Consumes k (f <$> x) := by
  intro d b d' h
  change EStateM.map f x d = _ at h
  unfold EStateM.map at h
  split at h
  · rename_i a d₁ h₁
    obtain ⟨-, rfl⟩ := EStateM.Result.ok.inj h
    exact hx h₁
  · cases h

theorem Consumes.inside {k : Nat} {x : Decode α} (hx : Consumes k x) : Consumes k x.inside := by
  intro d a d' h
  unfold Decode.inside at h
  split at h
  · rename_i b d₁ h₁
    obtain ⟨rfl, rfl⟩ := EStateM.Result.ok.inj h
    exact hx h₁
  · cases h

theorem consumes_note (level : LogLevel) (text : String) : Consumes 0 (note level text) := by
  intro d a d' h
  obtain ⟨-, rfl⟩ := EStateM.Result.ok.inj h
  exact Nat.le_refl _

end Decode

/-- A complete gathering has brought all that was wanted. -/
theorem Source.length_gather {s : Source} {want : Nat} (h : (s.gather want).ending = .complete) :
    want ≤ (s.gather want).bytes.length := by
  fun_induction Source.gather s want with
  | case1 => simp
  | case2 s want hw s' hr ih => exact ih h
  | case3 => cases h
  | case4 => cases h
  | case5 s want hw b piece s' hr rest ih =>
    have : want - (piece.length + 1) ≤ rest.bytes.length := ih h
    simp only [List.length_append, List.length_cons]
    omega

theorem Decode.consumes_take (n : Nat) : Decode.Consumes n (Decode.take n) := by
  intro d bytes d' h
  have hall := congrArg List.length (d.source.gather_append_unread n)
  rw [List.length_append] at hall
  simp only [Decode.take] at h
  split at h
  · rename_i he
    have hn := Source.length_gather he
    obtain ⟨-, rfl⟩ := EStateM.Result.ok.inj h
    simp only [Decoder.unread]
    omega
  · cases h
  · cases h

theorem Decode.consumes_skip (n : Nat) : Decode.Consumes 0 (Decode.skip n) := by
  intro d u d' h
  have hall := congrArg List.length (d.source.discard_count n)
  rw [List.length_drop] at hall
  simp only [Decode.skip] at h
  split at h
  · obtain ⟨-, rfl⟩ := EStateM.Result.ok.inj h
    simp only [Decoder.unread]
    omega
  · cases h
  · cases h

namespace Decode

theorem consumes_number (width : Nat) : Consumes width (number width) := (consumes_take width).map _
theorem consumes_word8 : Consumes 1 word8 := (consumes_number 1).map _
theorem consumes_word16 : Consumes 2 word16 := (consumes_number 2).map _
theorem consumes_word32 : Consumes 4 word32 := (consumes_number 4).map _
theorem consumes_word64 : Consumes 8 word64 := (consumes_number 8).map _
theorem consumes_double : Consumes 8 double := consumes_word64.map _

end Decode

end NodeTrace
