import NodeTrace.Proofs.Encoding
import NodeTrace.Proofs.Traces

/-!
# Decoding undoes encoding

An unbounded sink takes everything that is written to it, so a trace that is written to it is a header and a well-formed
frame for each frame (`performAll_ofFrames`), and these mean the frames in their normal form (`meaning_ofFrame`).
-/

namespace NodeTrace

namespace Written

/-- A frame as it is written. -/
def ofFrame (f : NodeTrace.Frame) : Frame := ⟨ofScope f.scope, false, ofEvent f.event⟩

theorem ofFrame_wellFormed {limit : Nat} {f : NodeTrace.Frame} (h : f.event.Writable limit) :
    (ofFrame f).WellFormed limit :=
  ⟨ofScope_allowed f.scope, (ofEvent_allowed h).1, (ofEvent_allowed h).2⟩

theorem meaning_ofFrame {limit : Nat} {f : NodeTrace.Frame} (h : f.event.Writable limit) :
    (ofFrame f).meaning = f.normal := by
  show NodeTrace.Frame.mk (scope (ofScope f.scope)) (ofEvent f.event).event = _
  rw [scope_ofScope, event_ofEvent h]
  rfl

end Written

/-! ## Unbounded sinks -/

namespace Sink

/-- The sink `s'` is the unbounded sink `s` with the bytes `w` written to it. -/
structure Took (s : Sink) (w : List UInt8) (s' : Sink) : Prop where
  unbounded : s'.capacity = none
  written : s'.written.toList = s.written.toList ++ w

variable {s s' s'' : Sink} {v w : List UInt8}

theorem Took.nil (hs : s.capacity = none) : s.Took [] s := ⟨hs, (List.append_nil _).symm⟩

theorem Took.append (h : s.Took v s') (h' : s'.Took w s'') : s.Took (v ++ w) s'' :=
  ⟨h'.unbounded, by rw [h'.written, h.written, List.append_assoc]⟩

theorem put_unbounded (hs : s.capacity = none) (w : List UInt8) : ∃ s', put w s = .ok () s' ∧ s.Took w s' :=
  ⟨_, put_of_unbounded hs w, hs, Array.toList_appendList⟩

theorem performAll_cons {step : WriteStep} {rest : List WriteStep} {faults : List (Option Fault)}
    (h : perform step s = .ok () s') (hrest : performAll rest s' = (faults, s'')) :
    performAll (step :: rest) s = (none :: faults, s'') := by
  rw [performAll, h]
  dsimp only
  rw [hrest]
  rfl

/-- A scope and its event are written as a frame of the grammar. -/
theorem performAll_frame {limit : Nat} {f : Frame} (hf : f.event.Writable limit) (hs : s.capacity = none)
    (rest : List WriteStep) : ∃ s', s.Took (Written.ofFrame f).bytes s' ∧
      ∀ faults s'', performAll rest s' = (faults, s'') →
        performAll (.scope f.scope :: .event f.event :: rest) s = (none :: none :: faults, s'') := by
  obtain ⟨s₁, h₁, ht₁⟩ :=
    put_unbounded hs ((Written.ofScope f.scope).flatMap Written.Element.bytes ++ Written.separator false)
  obtain ⟨s₂, h₂, ht₂⟩ := put_unbounded ht₁.unbounded (Written.ofEvent f.event).bytes
  refine ⟨s₂, ht₁.append ht₂, fun faults s'' hrest => ?_⟩
  rw [← putScope_eq] at h₁
  rw [← putEvent_eq hf.not_refused] at h₂
  exact performAll_cons h₁ (performAll_cons h₂ hrest)

theorem performAll_frames {limit : Nat} {frames : List Frame} (hf : ∀ f ∈ frames, f.event.Writable limit)
    (hs : s.capacity = none) :
    ∃ s', performAll (frames.flatMap fun f => [.scope f.scope, .event f.event]) s =
        (List.replicate (2 * frames.length) none, s') ∧
      s.Took (frames.flatMap fun f => (Written.ofFrame f).bytes) s' := by
  induction frames generalizing s with
  | nil => exact ⟨s, rfl, .nil hs⟩
  | cons f frames ih =>
    obtain ⟨s₁, ht₁, hperform⟩ := performAll_frame (hf f List.mem_cons_self) hs
      (frames.flatMap fun f => [.scope f.scope, .event f.event])
    obtain ⟨s₂, h₂, ht₂⟩ := ih (fun f h => hf f (List.mem_cons_of_mem _ h)) ht₁.unbounded
    exact ⟨s₂, hperform _ _ h₂, ht₁.append ht₂⟩

/-- A whole trace is written as a header and the frames of the grammar. -/
theorem performAll_ofFrames {limit : Nat} {frames : List Frame} (hf : ∀ f ∈ frames, f.event.Writable limit)
    (hs : s.capacity = none) :
    ∃ s', performAll (WriteStep.ofFrames frames) s = (List.replicate (2 * frames.length + 1) none, s') ∧
      s.Took (Written.header Format.minorVersion ++ frames.flatMap fun f => (Written.ofFrame f).bytes) s' := by
  obtain ⟨s₁, h₁, ht₁⟩ := put_unbounded hs (Encode.header Format.header)
  obtain ⟨s₂, h₂, ht₂⟩ := performAll_frames hf ht₁.unbounded
  rw [← putHeader_eq] at h₁
  exact ⟨s₂, performAll_cons h₁ h₂, ht₁.append ht₂⟩

end Sink

/-! ## Round trip -/

/-- What is written to an empty unbounded sink is written without a fault, and a source that delivers it is decoded as
the header and the frames in their normal form; the clean end is behind the last byte. -/
theorem decodes_encoded {limit : Nat} {frames : List Frame} (hf : ∀ f ∈ frames, f.event.Writable limit)
    {sink : Sink} (hsink : sink.capacity = none) (hempty : sink.written = #[]) :
    ∃ sink', Sink.performAll (Sink.WriteStep.ofFrames frames) sink =
        (List.replicate (2 * frames.length + 1) none, sink') ∧
      ∀ s : Source, s.Reliable → s.unread = sink'.written.toList →
        ∃ d d', (Decode.openTrace limit).run (.ofSource s) = (.ok Format.header, d) ∧
          d.frames limit = (frames.map Frame.normal, .endOfStream, d') ∧ d'.offset = sink'.written.size := by
  obtain ⟨sink', hperform, htook⟩ := Sink.performAll_ofFrames hf hsink
  have hwritten := htook.written
  rw [hempty] at hwritten
  refine ⟨sink', hperform, fun s hs hu => ?_⟩
  rw [hwritten] at hu
  have hread : Decode.Reads (Decode.openTrace limit) (Written.header Format.minorVersion) (.ok Format.header) :=
    Decode.reads_openTrace_iff.2 ⟨rfl, rfl⟩
  obtain ⟨d, hopen, hp, hrest⟩ := hread.run (d := .ofSource s) hs hu
  have hfs : ∀ u ∈ frames.map Written.ofFrame, u.WellFormed limit := by
    intro u hu
    obtain ⟨f, hmem, rfl⟩ := List.mem_map.1 hu
    exact Written.ofFrame_wellFormed (hf f hmem)
  have hmap : frames.flatMap (fun f => (Written.ofFrame f).bytes) =
      (frames.map Written.ofFrame).flatMap Written.Frame.bytes := by
    rw [List.flatMap_map]
  have hmeaning : (frames.map Written.ofFrame).map Written.Frame.meaning = frames.map Frame.normal := by
    rw [List.map_map]
    exact List.map_congr_left fun f hmem => Written.meaning_ofFrame (hf f hmem)
  rw [hmap] at hrest hwritten
  obtain ⟨d', hframes, hp'⟩ := Decoder.frames_of_written hfs hp.reliable hrest
  rw [hmeaning] at hframes
  refine ⟨d, d', hopen, hframes, ?_⟩
  have hoff := (hp.append hp').offset
  rw [hoff, ← Array.length_toList, hwritten]
  exact Nat.zero_add _

/-- A mark of unknown elements and a simulated time that does not count are lost; a length of 300 takes a wide field. -/
theorem decodes_encoded_pair :
    ∃ sink', Sink.performAll (Sink.WriteStep.ofFrames [⟨⟨⟨true, false, true⟩, 5, 3, ⟨1, ⟨2⟩⟩⟩, .unknown 7 300⟩,
        ⟨⟨⟨false, true, false⟩, 9, 4, {}⟩, .monitorData ⟨1, 2, [3, 4]⟩⟩]) {} =
        ([none, none, none, none, none], sink') ∧
      ∀ s : Source, s.Reliable → s.unread = sink'.written.toList →
        ∃ d d', (Decode.openTrace 2).run (.ofSource s) = (.ok Format.header, d) ∧
          d.frames 2 = ([⟨⟨⟨false, false, true⟩, 0, 3, ⟨1, ⟨2⟩⟩⟩, .unknown 7 300⟩,
            ⟨⟨⟨false, true, false⟩, 9, 0, {}⟩, .monitorData ⟨1, 2, [3, 4]⟩⟩], .endOfStream, d') ∧
          d'.offset = sink'.written.size := by
  have hunknown : Event.Writable 2 (.unknown 7 300) := by
    unfold Event.Writable
    decide
  have hdata : Event.Writable 2 (.monitorData ⟨1, 2, [3, 4]⟩) := by
    unfold Event.Writable
    decide
  exact decodes_encoded (List.forall_mem_cons.2 ⟨hunknown, List.forall_mem_singleton.2 hdata⟩) rfl rfl

end NodeTrace
