import NodeTrace.Fault

/-!
# Sinks

A sink keeps the bytes that were written to it.  It may have a capacity: a write that does not fit leaves the
bytes that do and fails, with the fault of the sink, and so does every later write of some bytes.  What a capped
sink holds is therefore always the start of what an unbounded sink would hold.
-/

namespace NodeTrace

/-- Where output goes. -/
structure Sink where
  written : Array UInt8 := #[]
  /-- How many bytes the sink takes in all, if there is a limit. -/
  capacity : Option Nat := none
  /-- Why a write fails that does not fit. -/
  fault : Fault := .writeZero
  flushFails : Bool := false
  /-- How often a flush was asked for. -/
  flushes : Nat := 0

/-- An action that writes to a sink. -/
abbrev Write (α : Type) : Type := EStateM Fault Sink α

namespace Sink

/-- How many of `n` more bytes the sink takes. -/
def room (s : Sink) (n : Nat) : Nat :=
  match s.capacity with
  | none => n
  | some capacity => min n (capacity - s.written.size)

/-- Write bytes, all of them or as many as fit. -/
def put (bytes : List UInt8) : Write Unit := fun s =>
  let fits := s.room bytes.length
  let s' := { s with written := s.written ++ bytes.take fits }
  if fits = bytes.length then .ok () s' else .error s.fault s'

/-- Write a number of zero bytes, all of them or as many as fit. -/
def putZeros (n : Nat) : Write Unit := fun s =>
  let fits := s.room n
  let s' := { s with written := s.written ++ List.replicate fits (0 : UInt8) }
  if fits = n then .ok () s' else .error s.fault s'

/-- Write text in UTF-8. -/
def putText (text : String) : Write Unit := put text.toUTF8.toList

/-- Write lines, each with its line feed, up to the first that does not fit. -/
def putLines : List String → Write Unit
  | [] => pure ()
  | line :: rest => do
    putText (line ++ "\n")
    putLines rest

/-- Ask the sink to pass on what it holds. -/
def flush : Write Unit := fun s =>
  let s' := { s with flushes := s.flushes + 1 }
  if s.flushFails then .error (.other "flush failure") s' else .ok () s'

theorem putZeros_eq_put (n : Nat) : putZeros n = put (List.replicate n 0) := by
  funext s
  have h : s.room n ≤ n := by unfold room; split <;> omega
  simp [putZeros, put, List.take_replicate, Nat.min_eq_left h]

/-- A sink without a capacity takes everything. -/
theorem put_of_unbounded {s : Sink} (hs : s.capacity = none) (bytes : List UInt8) :
    put bytes s = .ok () { s with written := s.written ++ bytes } := by
  have hroom : s.room bytes.length = bytes.length := by rw [room, hs]
  unfold put
  dsimp only
  rw [hroom, List.take_length]
  exact if_pos rfl

@[simp] theorem putLines_nil : putLines [] = pure () := rfl

end Sink

end NodeTrace
