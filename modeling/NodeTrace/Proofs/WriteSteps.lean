import NodeTrace.Proofs.Encoding
import NodeTrace.Proofs.FullSinks

/-!
# Writing step by step

A step is a sequence of checks and writes.  One that is refused is refused by a check in front of its first write, and
the writes of any other come to one write of at least one byte, unless it is a flush (`Sink.perform_cases`).  So with
room for `c` more bytes, steps that are carried out in turn, also behind one that failed, leave the first `c` bytes of
what they leave without a limit, and fail exactly behind these bytes (`Sink.performAll_limited`).
-/

namespace NodeTrace

/-! ## What a step writes -/

namespace Sink.WriteStep

/-- The refusal of a bad tag. -/
def tagRefusal? (tag : UInt16) : Option Fault :=
  if tag.toNat = 0 ∨ 0x7fff < tag.toNat then
    some (.invalidInput ("invalid element type tag " ++ Digits.decimal tag.toNat))
  else none

/-- The refusal of a length that a length field cannot say. -/
def lengthRefusal? (length : Nat) : Option Fault :=
  if UInt32.size ≤ length then some (.invalidInput "payload too large") else none

/-- Why the step is refused, if it is.  The length of an element is judged before its tag. -/
def refusal? : WriteStep → Option Fault
  | .event (.unknown tag _) => tagRefusal? tag
  | .event (.monitorData a) => lengthRefusal? (a.payload.length + 4)
  | .element tag payload => (lengthRefusal? payload.length).or (tagRefusal? tag)
  | _ => none

/-- The bytes of what the step asks for, in the grammar of traces. -/
def spelled : WriteStep → List UInt8
  | .header h => Encode.header h
  | .scope s => (Written.ofScope s).flatMap Written.Element.bytes ++ Written.separator false
  | .event e => (Written.ofEvent e).bytes
  | .element tag payload => (Written.Element.shortest tag payload).bytes
  | .flush => []

/-- The bytes that the step asks to be written, none if it is refused. -/
def bytes (step : WriteStep) : List UInt8 := if step.refusal?.isSome then [] else step.spelled

section Refusals

variable {tag : UInt16} {length : Nat} {step : WriteStep}

theorem tagRefusal?_of_badTag (h : BadTag tag) :
    tagRefusal? tag = some (.invalidInput ("invalid element type tag " ++ Digits.decimal tag.toNat)) := if_pos h

theorem tagRefusal?_of_not_badTag (h : ¬BadTag tag) : tagRefusal? tag = none := if_neg h

theorem lengthRefusal?_of_le (h : UInt32.size ≤ length) :
    lengthRefusal? length = some (.invalidInput "payload too large") := if_pos h

theorem lengthRefusal?_of_lt (h : ¬UInt32.size ≤ length) : lengthRefusal? length = none := if_neg h

theorem refusal?_of_not_refused (h : ¬step.Refused) : step.refusal? = none := by
  cases step with
  | event e =>
    cases e with
    | unknown tag length => exact tagRefusal?_of_not_badTag h
    | monitorData a => exact lengthRefusal?_of_lt h
    | _ => rfl
  | element tag payload =>
    obtain ⟨htag, hlength⟩ := not_or.1 h
    rw [refusal?, lengthRefusal?_of_lt hlength, tagRefusal?_of_not_badTag htag]
    rfl
  | _ => rfl

theorem bytes_of_some {fault : Fault} (h : step.refusal? = some fault) : step.bytes = [] := by
  unfold bytes
  rw [h]
  rfl

theorem bytes_of_none (h : step.refusal? = none) : step.bytes = step.spelled := by
  unfold bytes
  rw [h]
  rfl

end Refusals

/-- Whatever a step asks for but a flush has some bytes. -/
theorem spelled_ne_nil {step : WriteStep} (h : step ≠ .flush) : step.spelled ≠ [] := by
  have hword {width : Nat} (hwidth : 0 < width) (n : Nat) : BigEndian.ofNat width n ≠ [] :=
    List.ne_nil_of_length_pos (by rwa [BigEndian.length_ofNat])
  have helement (e : Written.Element) : e.bytes ≠ [] :=
    List.append_ne_nil_of_left_ne_nil (List.append_ne_nil_of_left_ne_nil (hword (by decide) _) _) _
  cases step with
  | flush => exact absurd rfl h
  | header h => exact List.append_ne_nil_of_left_ne_nil (hword (by decide) _) _
  | scope s => exact List.append_ne_nil_of_right_ne_nil _ (hword (by decide) _)
  | event e => exact helement _
  | element tag payload => exact helement _

end Sink.WriteStep

namespace Sink

/-- A step that is refused fails before its first write. -/
theorem perform_refused {step : WriteStep} (h : step.Refused) : ∃ text,
    step.refusal? = some (.invalidInput text) ∧ ∀ s, perform step s = .error (.invalidInput text) s := by
  cases step with
  | event e =>
    cases e with
    | unknown tag length =>
      refine ⟨_, WriteStep.tagRefusal?_of_badTag h, fun s => ?_⟩
      rw [perform, putEvent, putElementHeader_of_badTag h]
      rfl
    | monitorData a =>
      have hfield : lengthField (a.payload.length + Format.attachmentPrefixSize.toNat) =
          throw (.invalidInput "payload too large") := lengthField_of_le h
      refine ⟨_, WriteStep.lengthRefusal?_of_le h, fun s => ?_⟩
      rw [perform, putEvent, hfield]
      rfl
    | _ => exact absurd h id
  | element tag payload =>
    -- the length is judged first, so a tag is refused only if the length is not
    by_cases hlength : UInt32.size ≤ payload.length
    · refine ⟨"payload too large", ?_, fun s => ?_⟩
      · rw [WriteStep.refusal?, WriteStep.lengthRefusal?_of_le hlength]
        rfl
      · rw [perform, putElement, lengthField_of_le hlength]
        rfl
    · have htag := h.resolve_right hlength
      refine ⟨"invalid element type tag " ++ Digits.decimal tag.toNat, ?_, fun s => ?_⟩
      · rw [WriteStep.refusal?, WriteStep.lengthRefusal?_of_lt hlength, WriteStep.tagRefusal?_of_badTag htag]
        rfl
      · rw [perform, putElement, lengthField_of_lt (Nat.lt_of_not_le hlength), pure_bind,
          putElementHeader_of_badTag htag]
        rfl
  | _ => exact absurd h id

/-- The writes of a step that is not refused come to one write of its bytes. -/
theorem perform_accepted {step : WriteStep} (h : ¬step.Refused) (hflush : step ≠ .flush) :
    perform step = put step.spelled := by
  cases step with
  | flush => exact absurd rfl hflush
  | header header => exact putHeader_eq header
  | scope scope => exact putScope_eq scope
  | event event => exact putEvent_eq h
  | element tag payload => exact putElement_eq h

/-- A step flushes, or is refused before its first byte, or is one write of some bytes. -/
theorem perform_cases (step : WriteStep) :
    step = .flush ∨
    (step.Refused ∧ step.bytes = [] ∧ ∃ text, step.refusal? = some (.invalidInput text) ∧
      ∀ s, perform step s = .error (.invalidInput text) s) ∨
    (¬step.Refused ∧ step ≠ .flush ∧ step.bytes ≠ [] ∧ step.refusal? = none ∧
      ∀ s, perform step s = put step.bytes s) := by
  by_cases hrefused : step.Refused
  · obtain ⟨text, hfault, hperform⟩ := perform_refused hrefused
    exact .inr (.inl ⟨hrefused, WriteStep.bytes_of_some hfault, text, hfault, hperform⟩)
  · by_cases hflush : step = .flush
    · exact .inl hflush
    · have hfault := WriteStep.refusal?_of_not_refused hrefused
      have hbytes := WriteStep.bytes_of_none hfault
      refine .inr (.inr ⟨hrefused, hflush, ?_, hfault, fun s => ?_⟩)
      · rw [hbytes]
        exact WriteStep.spelled_ne_nil hflush
      · rw [hbytes, perform_accepted hrefused hflush]

/-! ## One step -/

/-- What carrying out a step comes to: its fault, if there is one, and the sink behind it. -/
def outcome (step : WriteStep) (s : Sink) : Option Fault × Sink :=
  match perform step s with
  | .ok _ s' => (none, s')
  | .error fault s' => (some fault, s')

theorem performAll_cons_eq (step : WriteStep) (rest : List WriteStep) (s : Sink) : performAll (step :: rest) s =
    ((outcome step s).1 :: (performAll rest (outcome step s).2).1, (performAll rest (outcome step s).2).2) := by
  rw [performAll]
  unfold outcome
  cases perform step s <;> rfl

/-- The sink `t` holds the bytes `w` behind those of `s`, and its flushes do not fail. -/
structure Holds (s : Sink) (w : List UInt8) (t : Sink) : Prop where
  written : t.written.toList = s.written.toList ++ w
  flushes : t.flushFails = false

variable {s t u : Sink} {v w : List UInt8} {c : Nat}

theorem Holds.nil (hs : s.flushFails = false) : s.Holds [] s := ⟨(List.append_nil _).symm, hs⟩

theorem Holds.append (h : s.Holds v t) (h' : t.Holds w u) : s.Holds (v ++ w) u :=
  ⟨by rw [h'.written, h.written, List.append_assoc], h'.flushes⟩

theorem holds_extend (hs : s.flushFails = false) (w : List UInt8) : s.Holds w (s.extend w) :=
  ⟨Array.toList_appendList, hs⟩

theorem Holds.size (h : s.Holds w t) : t.written.size = s.written.size + w.length := by
  rw [← Array.length_toList, h.written, List.length_append, Array.length_toList]

/-- What a step comes to with room for `c` more bytes. -/
def WriteStep.faultWithin (step : WriteStep) (c : Nat) : Option Fault :=
  match step.refusal? with
  | some fault => some fault
  | none => if step.bytes.length ≤ c then none else some .writeZero

/-- Without a limit a step fails only if it is refused. -/
theorem outcome_unlimited (hs : s.flushFails = false) (step : WriteStep) :
    ∃ t, s.Holds step.bytes t ∧ outcome step s.unlimited = (step.refusal?, t.unlimited) := by
  unfold outcome
  rcases perform_cases step with rfl | ⟨-, hbytes, text, hfault, hperform⟩ | ⟨-, -, -, hfault, hperform⟩
  · refine ⟨{ s with flushes := s.flushes + 1 }, ⟨(List.append_nil _).symm, hs⟩, ?_⟩
    simp [perform, flush, unlimited, hs, WriteStep.refusal?]
  · rw [hbytes, hperform, hfault]
    exact ⟨s, .nil hs, rfl⟩
  · rw [hperform, hfault, put_unlimited]
    exact ⟨s.extend step.bytes, holds_extend hs _, rfl⟩

/-- With room for `c` more bytes a step leaves the first `c` of its bytes, and fails if there are more. -/
theorem outcome_limited (hs : s.flushFails = false) (step : WriteStep) (c : Nat) :
    ∃ t, s.Holds (step.bytes.take c) t ∧
      outcome step (s.limited c) = (step.faultWithin c, t.limited (c - step.bytes.length)) := by
  unfold outcome WriteStep.faultWithin
  rcases perform_cases step with rfl | ⟨-, hbytes, text, hfault, hperform⟩ | ⟨-, -, -, hfault, hperform⟩
  · refine ⟨{ s with flushes := s.flushes + 1 }, ⟨?_, hs⟩, ?_⟩
    · simp [WriteStep.bytes, WriteStep.refusal?, WriteStep.spelled]
    · simp [perform, flush, limited, hs, WriteStep.refusal?, WriteStep.bytes, WriteStep.spelled]
  · rw [hbytes, hperform, hfault, List.take_nil]
    exact ⟨s, .nil hs, rfl⟩
  · rw [hperform, hfault]
    dsimp only
    by_cases hle : step.bytes.length ≤ c
    · rw [put_limited_of_le hle, if_pos hle, List.take_of_length_le hle]
      exact ⟨s.extend step.bytes, holds_extend hs _, rfl⟩
    · have hlt := Nat.lt_of_not_le hle
      have htake : (step.bytes.take c).length = c := List.length_take_of_le (Nat.le_of_lt hlt)
      have hfull := limited_extend (s := s) (Nat.le_of_eq htake)
      rw [htake, Nat.sub_self] at hfull
      rw [put_limited_of_lt hlt, if_neg hle, Nat.sub_eq_zero_of_le (Nat.le_of_lt hlt), ← hfull]
      exact ⟨s.extend (step.bytes.take c), holds_extend hs _, rfl⟩

/-! ## All steps -/

/-- Without a limit steps leave their bytes, and those that are refused fail. -/
theorem performAll_unlimited (hs : s.flushFails = false) (steps : List WriteStep) :
    ∃ t, s.Holds (steps.flatMap WriteStep.bytes) t ∧
      performAll steps s.unlimited = (steps.map WriteStep.refusal?, t.unlimited) := by
  induction steps generalizing s with
  | nil => exact ⟨s, .nil hs, rfl⟩
  | cons step rest ih =>
    obtain ⟨t, ht, houtcome⟩ := outcome_unlimited hs step
    obtain ⟨u, hu, hrest⟩ := ih ht.flushes
    refine ⟨u, ht.append hu, ?_⟩
    rw [performAll_cons_eq, houtcome]
    dsimp only
    rw [hrest, List.map_cons]

/-- With room for `c` more bytes steps leave the first `c` of their bytes, and each of them fails as it does with the
room that is left. -/
theorem performAll_limited (hs : s.flushFails = false) (steps : List WriteStep) (c : Nat) :
    (∃ t, s.Holds ((steps.flatMap WriteStep.bytes).take c) t ∧
      (performAll steps (s.limited c)).2 = t.limited (c - (steps.flatMap WriteStep.bytes).length)) ∧
    ∀ i (step : WriteStep), steps[i]? = some step → (performAll steps (s.limited c)).1[i]? =
      some (step.faultWithin (c - ((steps.take i).flatMap WriteStep.bytes).length)) := by
  induction steps generalizing s c with
  | nil => exact ⟨⟨s, by simpa using Holds.nil hs, rfl⟩, fun i step hi => by cases hi⟩
  | cons step rest ih =>
    obtain ⟨t, ht, houtcome⟩ := outcome_limited hs step c
    obtain ⟨⟨u, hu, hrest⟩, hfaults⟩ := ih ht.flushes (c - step.bytes.length)
    rw [performAll_cons_eq, houtcome]
    dsimp only
    rw [List.flatMap_cons, List.take_append, List.length_append, ← Nat.sub_sub]
    refine ⟨⟨u, ht.append hu, hrest⟩, fun i step' hi => ?_⟩
    cases i with
    | zero =>
      cases hi
      simp
    | succ i =>
      rw [List.getElem?_cons_succ, List.take_succ_cons, List.flatMap_cons, List.length_append, ← Nat.sub_sub]
      exact hfaults i step' hi

theorem written_performAll (hs : s.flushFails = false) (steps : List WriteStep) (c : Nat) :
    (performAll steps s.unlimited).2.written.toList = s.written.toList ++ steps.flatMap WriteStep.bytes ∧
    (performAll steps (s.limited c)).2.written.toList =
      s.written.toList ++ (steps.flatMap WriteStep.bytes).take c := by
  obtain ⟨t, ht, hrun⟩ := performAll_unlimited hs steps
  obtain ⟨⟨u, hu, hrun'⟩, -⟩ := performAll_limited hs steps c
  rw [hrun, hrun']
  exact ⟨ht.written, hu.written⟩

/-- How many bytes there are behind a step if there is no limit. -/
theorem size_performAll_take (hs : s.flushFails = false) {steps : List WriteStep} {step : WriteStep} {i : Nat}
    (hi : steps[i]? = some step) : (performAll (steps.take (i + 1)) s.unlimited).2.written.size =
      s.written.size + (((steps.take i).flatMap WriteStep.bytes).length + step.bytes.length) := by
  obtain ⟨t, ht, hrun⟩ := performAll_unlimited hs (steps.take (i + 1))
  have hsize : t.unlimited.written.size = _ := ht.size
  rw [hrun, hsize, List.take_add_one, hi, List.flatMap_append, List.length_append]
  simp

/-- Behind `k` bytes, a step that is not refused and does not flush fits where all bytes up to its end do. -/
theorem WriteStep.faultWithin_eq {step : WriteStep} (haccepted : ¬step.Refused) (hflush : step ≠ .flush) (c k : Nat) :
    step.faultWithin (c - k) = if k + step.bytes.length ≤ c then none else some .writeZero := by
  unfold faultWithin
  rcases perform_cases step with h | ⟨hrefused, -⟩ | ⟨-, -, hbytes, hfault, -⟩
  · exact absurd h hflush
  · exact absurd hrefused haccepted
  · have hpos := List.length_pos_iff.2 hbytes
    have hfits : step.bytes.length ≤ c - k ↔ k + step.bytes.length ≤ c := by omega
    rw [hfault]
    simp only [hfits]

/-- Steps are carried out in whole or refused, and what they leave is cut off where a sink is full.  Without a limit a
step succeeds, or it is refused, and then nothing is written.  With room for `c` more bytes, and steps that go on behind
one that failed, the sink ends with the first `c` of the bytes that it ends with without a limit; the same steps are
refused, flushes succeed, and any other step succeeds exactly if all bytes up to its end have room. -/
theorem steps_cut_off {s : Sink} (hs : s.flushFails = false) (steps : List WriteStep) (c : Nat) :
    (∀ (step : WriteStep) (t : Sink), t.Unfailing →
      (¬step.Refused ∧ ∃ t', perform step t = .ok () t') ∨
      (step.Refused ∧ ∃ text, perform step t = .error (.invalidInput text) t)) ∧
    (∃ output, (performAll steps s.unlimited).2.written.toList = s.written.toList ++ output ∧
      (performAll steps (s.limited c)).2.written.toList = s.written.toList ++ output.take c) ∧
    ∀ i (step : WriteStep), steps[i]? = some step →
      (step.Refused → ∃ text, (performAll steps s.unlimited).1[i]? = some (some (.invalidInput text)) ∧
        (performAll steps (s.limited c)).1[i]? = some (some (.invalidInput text))) ∧
      (¬step.Refused → (performAll steps s.unlimited).1[i]? = some none) ∧
      (step = .flush → (performAll steps (s.limited c)).1[i]? = some none) ∧
      (¬step.Refused → step ≠ .flush → (performAll steps (s.limited c)).1[i]? =
        some (if (performAll (steps.take (i + 1)) s.unlimited).2.written.size ≤ s.written.size + c then none
          else some .writeZero)) := by
  refine ⟨fun step t ht => ?_, ⟨_, written_performAll hs steps c⟩, fun i step hi => ?_⟩
  · rcases perform_cases step with rfl | ⟨hrefused, -, text, -, hperform⟩ | ⟨haccepted, -, -, -, hperform⟩
    · refine .inl ⟨id, { t with flushes := t.flushes + 1 }, ?_⟩
      simp [perform, flush, ht.flushes]
    · exact .inr ⟨hrefused, text, hperform t⟩
    · exact .inl ⟨haccepted, _, (hperform t).trans (put_of_unbounded ht.unbounded _)⟩
  · obtain ⟨t, -, hrun⟩ := performAll_unlimited hs steps
    have hfault := (performAll_limited hs steps c).2 i step hi
    have hunlimited : (performAll steps s.unlimited).1[i]? = some step.refusal? := by
      rw [hrun, List.getElem?_map, hi]
      rfl
    rw [hunlimited, hfault]
    refine ⟨fun hrefused => ?_, fun haccepted => ?_, ?_, fun haccepted hflush => ?_⟩
    · rcases perform_cases step with rfl | ⟨-, -, text, hrefusal, -⟩ | ⟨haccepted, -⟩
      · exact absurd hrefused id
      · unfold WriteStep.faultWithin
        rw [hrefusal]
        exact ⟨text, rfl, rfl⟩
      · exact absurd hrefused haccepted
    · rcases perform_cases step with rfl | ⟨hrefused, -⟩ | ⟨-, -, -, hrefusal, -⟩
      · rfl
      · exact absurd hrefused haccepted
      · rw [hrefusal]
    · rintro rfl
      simp [WriteStep.faultWithin, WriteStep.refusal?, WriteStep.bytes, WriteStep.spelled]
    · rw [WriteStep.faultWithin_eq haccepted hflush, size_performAll_take hs hi]
      simp only [Nat.add_le_add_iff_left]

/-- Steps of which two are refused, and whose bytes come to 26. -/
def mixedSteps : List WriteStep :=
  [.header Format.header, .event (.unknown 0 5), .scope {}, .event .nodeCreate, .flush, .element 0x8000 [],
    .element 9 [1, 2]]

theorem steps_cut_off_mixed : ({} : Sink).flushFails = false ∧
    (performAll mixedSteps (limited {} 18)).2.written.toList = Encode.header Format.header ++ [0, 0] ∧
    (performAll mixedSteps (limited {} 18)).1[2]? = some none ∧
    (performAll mixedSteps (limited {} 18)).1[3]? = some (some .writeZero) ∧
    (performAll mixedSteps (limited {} 18)).1[4]? = some none ∧
    (∃ text, (performAll mixedSteps (limited {} 18)).1[5]? = some (some (.invalidInput text))) ∧
    (performAll mixedSteps (limited {} 18)).1[6]? = some (some .writeZero) := by
  have hs : ({} : Sink).flushFails = false := rfl
  obtain ⟨-, ⟨output, hall, hcut⟩, hsteps⟩ := steps_cut_off hs mixedSteps 18
  have hscope := (hsteps 2 _ rfl).2.2.2 id nofun
  have hcreate := (hsteps 3 _ rfl).2.2.2 id nofun
  have hlast := (hsteps 6 _ rfl).2.2.2 (by unfold WriteStep.Refused WriteStep.BadTag; decide) nofun
  obtain ⟨text, -, hrefused⟩ := (hsteps 5 _ rfl).1 (.inl (.inr (by decide)))
  have houtput : output = Encode.header Format.header ++ [0, 0, 0, 8, 0, 0, 18, 2, 1, 2] := hall.symm.trans rfl
  rw [houtput] at hcut
  exact ⟨hs, hcut, hscope, hcreate, (hsteps 4 _ rfl).2.2.1 rfl, ⟨text, hrefused⟩, hlast⟩

end Sink

end NodeTrace
