import NodeTrace.Fault

/-!
# Byte sources

A source holds the bytes that it has not delivered yet.  How it delivers them is part of the value: a read
may bring fewer bytes than were asked for (`chunk`, `cuts`), may be interrupted before it brings any
(`interrupts`), and may fail for good at one position (`failure`).  A read that brings nothing tells that the
source has ended; where `chunk` is zero every read does.  Two activities sit on top of single reads: `gather`
collects a number of bytes, `discard` drops a number of bytes piece by piece without keeping them.  Both
retry a read that was interrupted and stop at the first failure or at the end of the source, so what they
bring about depends on the bytes and the failure alone, as long as a chunk has a byte.
-/

namespace NodeTrace

/-- A source of bytes together with the way in which it delivers them. -/
structure Source where
  /-- The bytes that were not delivered yet. -/
  unread : List UInt8
  /-- How many bytes were delivered. -/
  position : Nat := 0
  /-- Where every read fails, and why. -/
  failure : Option (Nat × Fault) := none
  /-- The most bytes that one read delivers. -/
  chunk : Option Nat := none
  /-- Positions at which a read is interrupted, once for each time a position is listed. -/
  interrupts : List Nat := []
  /-- Positions that a read does not cross although it goes on behind them, so that reads may differ in length. -/
  cuts : List Nat := []
  deriving Repr

/-- The answer to one read. -/
inductive Answer where
  /-- Some bytes; none at all tells that the source has ended. -/
  | bytes (piece : List UInt8)
  | interrupted
  | failed (fault : Fault)

/-- How an activity of several reads ended. -/
inductive Ending where
  | complete
  | exhausted
  | failed (fault : Fault)
  deriving DecidableEq, Repr

/-- The fault of an activity that failed. -/
def Ending.fault? : Ending → Option Fault
  | .failed fault => some fault
  | .complete | .exhausted => none

namespace Source

/-- A source that delivers everything it is asked for and then ends. -/
def ofBytes (bytes : List UInt8) : Source := { unread := bytes }

/-- The positions that a read does not cross. -/
def stops (s : Source) : List Nat := (s.failure.map Prod.fst).toList ++ (s.interrupts ++ s.cuts)

/-- How many bytes a read for `want` bytes may bring: at most one chunk, and none beyond the next stop. -/
def reach (s : Source) (want : Nat) : Nat :=
  (s.stops.filter (s.position < ·)).foldl (fun n stop => min n (stop - s.position))
    (min want (s.chunk.getD want))

/-- Deliver the next `n` bytes. -/
def deliver (s : Source) (n : Nat) : Answer × Source :=
  (.bytes (s.unread.take n),
    { s with unread := s.unread.drop n, position := s.position + (s.unread.take n).length })

/-- One read for at most `want` bytes. -/
def read (s : Source) (want : Nat) : Answer × Source :=
  if s.position ∈ s.interrupts then
    (.interrupted, { s with interrupts := s.interrupts.erase s.position })
  else
    match s.failure with
    | none => s.deliver (s.reach want)
    | some (stop, fault) => if s.position = stop then (.failed fault, s) else s.deliver (s.reach want)

theorem read_of_interrupted {s s' : Source} {want : Nat} (h : s.read want = (.interrupted, s')) :
    s'.interrupts.length < s.interrupts.length ∧ s'.unread = s.unread := by
  unfold read at h
  split at h
  · rename_i hm
    obtain ⟨-, rfl⟩ := Prod.mk.inj h
    have := List.length_pos_of_mem hm
    rw [List.length_erase_of_mem hm]
    exact ⟨by omega, rfl⟩
  · split at h
    · simp [deliver] at h
    · split at h <;> simp [deliver] at h

theorem read_of_bytes {s s' : Source} {want : Nat} {piece : List UInt8}
    (h : s.read want = (.bytes piece, s')) :
    s'.interrupts = s.interrupts ∧ s.unread = piece ++ s'.unread := by
  unfold read at h
  split at h
  · simp at h
  · split at h
    · simp only [deliver, Prod.mk.injEq, Answer.bytes.injEq] at h
      obtain ⟨rfl, rfl⟩ := h
      exact ⟨rfl, (List.take_append_drop _ _).symm⟩
    · split at h
      · simp at h
      · simp only [deliver, Prod.mk.injEq, Answer.bytes.injEq] at h
        obtain ⟨rfl, rfl⟩ := h
        exact ⟨rfl, (List.take_append_drop _ _).symm⟩

theorem read_of_failed {s s' : Source} {want : Nat} {fault : Fault}
    (h : s.read want = (.failed fault, s')) : s' = s := by
  unfold read at h
  split at h
  · simp at h
  · split at h
    · simp [deliver] at h
    · split at h
      · exact (Prod.mk.inj h).2.symm
      · simp [deliver] at h

/-- What `gather` brings: the bytes, how it ended, and the source afterwards. -/
structure Gathered where
  bytes : List UInt8
  ending : Ending
  source : Source

/-- Collect `want` bytes, or all there are before the end or a failure. -/
def gather (s : Source) (want : Nat) : Gathered :=
  if want = 0 then ⟨[], .complete, s⟩
  else
    match _h : s.read want with
    | (.interrupted, s') => s'.gather want
    | (.failed fault, s') => ⟨[], .failed fault, s'⟩
    | (.bytes [], s') => ⟨[], .exhausted, s'⟩
    | (.bytes (b :: piece), s') =>
      let rest := s'.gather (want - (piece.length + 1))
      { rest with bytes := b :: piece ++ rest.bytes }
termination_by want + s.interrupts.length
decreasing_by
  · have := (read_of_interrupted _h).1; omega
  · rw [(read_of_bytes _h).1]; omega

/-- What `discard` brings about: how many bytes it dropped, how it ended, and the source afterwards. -/
structure Discarded where
  count : Nat
  ending : Ending
  source : Source

/-- The most bytes that `discard` holds at a time. -/
def discardPiece : Nat := 8192

/-- Drop `want` bytes, or all there are before the end or a failure. -/
def discard (s : Source) (want : Nat) : Discarded :=
  if want = 0 then ⟨0, .complete, s⟩
  else
    match _h : s.read (min want discardPiece) with
    | (.interrupted, s') => s'.discard want
    | (.failed fault, s') => ⟨0, .failed fault, s'⟩
    | (.bytes [], s') => ⟨0, .exhausted, s'⟩
    | (.bytes (_ :: piece), s') =>
      let rest := s'.discard (want - (piece.length + 1))
      { rest with count := piece.length + 1 + rest.count }
termination_by want + s.interrupts.length
decreasing_by
  · have := (read_of_interrupted _h).1; omega
  · rw [(read_of_bytes _h).1]; omega

/-- Gathering loses nothing: the bytes it brings and those it leaves are the bytes there were. -/
theorem gather_append_unread (s : Source) (want : Nat) :
    (s.gather want).bytes ++ (s.gather want).source.unread = s.unread := by
  fun_induction gather s want with
  | case1 => rfl
  | case2 s want hw s' h ih => rw [ih, (read_of_interrupted h).2]
  | case3 s want hw fault s' h => rw [read_of_failed h]; rfl
  | case4 s want hw s' h => exact (read_of_bytes h).2.symm
  | case5 s want hw b piece s' h rest ih =>
    simp only [List.cons_append, List.append_assoc]
    rw [(read_of_bytes h).2, ih]; rfl

/-- Discarding drops as many bytes as it counts. -/
theorem discard_count (s : Source) (want : Nat) :
    (s.discard want).source.unread = s.unread.drop (s.discard want).count := by
  fun_induction discard s want with
  | case1 => rfl
  | case2 s want hw s' h ih => rw [ih, (read_of_interrupted h).2]
  | case3 s want hw fault s' h => rw [read_of_failed h]; rfl
  | case4 s want hw s' h => exact (read_of_bytes h).2.symm
  | case5 s want hw b piece s' h rest ih =>
    show rest.source.unread = _
    rw [ih, (read_of_bytes h).2, ← List.drop_drop]
    congr 1
    simp

end Source

end NodeTrace
