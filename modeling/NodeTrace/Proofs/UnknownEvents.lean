import NodeTrace.Proofs.Counting
import NodeTrace.Proofs.Encoding
import NodeTrace.Proofs.WriteSteps

/-!
# Unknown events that are written

An unknown event is written as an element under its tag with zeros for its payload, whatever the tag is, unless the tag
is bad (`Sink.perform_unknown`).  What is read there is an event of the kind of this tag, if it is not refused
(`Written.Element.kind_event`).  So it is the event that was written if the tag has no meaning, and another one or none
if it has (`unknown_read_back`).
-/

namespace NodeTrace

/-- An element reports an event of the kind of its tag. -/
theorem Written.Element.kind_event (e : Element) : e.event.kind = Format.kindOfTag e.tag := by
  have hkind {t : UInt16} (htag : e.tag.toNat = t.toNat) : Format.kindOfTag e.tag = Format.kindOfTag t :=
    congrArg Format.kindOfTag (UInt16.toNat_inj.1 htag)
  unfold event
  split
  case h_1 htag => exact (hkind (t := Format.monitorCreateTag) htag).symm
  case h_2 htag => exact (hkind (t := Format.monitorStateTag) htag).symm
  case h_3 htag => exact (hkind (t := Format.monitorDataTag) htag).symm
  case h_4 htag => exact (hkind (t := Format.nodeCreateTag) htag).symm
  case h_5 htag => exact (hkind (t := Format.nodeDestroyTag) htag).symm
  case h_6 htag => exact (hkind (t := Format.nodePositionTag) htag).symm
  case h_7 h1 h2 h3 h4 h5 h6 => exact (Decode.kindOfTag_unknown h1 h2 h3 h4 h5 h6).symm

namespace Decode

variable {limit : Nat} {e : Written.Element}

/-- An element that is not allowed in the place of an event is refused there. -/
theorem reads_event_refused (hfits : e.Fits) (hin : ¬e.InEvent limit) :
    ∃ error v behind, e.bytes = v ++ behind ∧ Reads (event limit) v (.error error) := by
  have hlen := toNat_length hfits
  have hnot : ¬Written.EventAllows limit e.tag (UInt32.ofNat e.payload.length).toNat := by rwa [hlen]
  rcases eventBody_refused (h := ⟨e.tag, UInt32.ofNat e.payload.length⟩) hnot with
    ⟨element, expected, hrefused⟩ | ⟨-, hmin, -, hrefused⟩
  · refine ⟨_, Written.head e.tag e.wide e.payload.length ++ [], e.payload, ?_,
      reads_event_body_iff.2 ⟨_, _, _, [], hfits, rfl, hrefused [] rfl⟩⟩
    rw [List.append_nil]
    rfl
  · dsimp only at hmin
    rw [hlen] at hmin
    refine ⟨_, Written.head e.tag e.wide e.payload.length ++ e.payload.take 4, e.payload.drop 4, ?_,
      reads_event_body_iff.2 ⟨_, _, _, _, hfits, rfl, hrefused _ (List.length_take_of_le hmin)⟩⟩
    rw [List.append_assoc, List.take_append_drop]
    rfl

/-- In the place of an event, an element is passed as the event that it reports, or refused. -/
theorem run_event_element (limit : Nat) {d : Decoder} {rest : List UInt8} (hfits : e.Fits) (hd : d.source.Reliable)
    (hu : d.source.unread = e.bytes ++ rest) :
    (e.InEvent limit ∧ ∃ d', (event limit).run d = (.ok e.event, d') ∧ d.Passes e.bytes d') ∨
    (¬e.InEvent limit ∧ ∃ error d', (event limit).run d = (.error error, d')) := by
  by_cases hin : e.InEvent limit
  · obtain ⟨d', hrun, hp, -⟩ := (reads_event_iff.2 ⟨e, hfits, hin, rfl, rfl⟩).run hd hu
    exact .inl ⟨hin, d', hrun, hp⟩
  · obtain ⟨error, v, behind, hbytes, hread⟩ := reads_event_refused hfits hin
    rw [hbytes, List.append_assoc] at hu
    obtain ⟨d', hrun, -⟩ := hread.run hd hu
    exact .inr ⟨hin, error, d', hrun⟩

end Decode

section Unknown

variable {tag : UInt16} {length : UInt32}

/-! ## The element of an unknown event -/

theorem Written.unknown_fits (h : ¬Sink.WriteStep.BadTag tag) (length : UInt32) :
    (ofEvent (.unknown tag length)).Fits := by
  refine Element.shortest_fits (Sink.WriteStep.BadTag.le h) (Sink.WriteStep.BadTag.ne_zero h) ?_
  rw [payloadOf, List.length_replicate]
  exact length.toNat_lt

theorem Written.unknown_inEvent_iff {limit : Nat} :
    (ofEvent (.unknown tag length)).InEvent limit ↔ EventAllows limit tag length.toNat := by
  show EventAllows limit tag (List.replicate length.toNat (0 : UInt8)).length ↔ _
  rw [List.length_replicate]

namespace Sink

/-- An unknown event is written with zeros for its payload. -/
theorem perform_unknown (h : ¬WriteStep.BadTag tag) (length : UInt32) :
    perform (.event (.unknown tag length)) = put (Written.ofEvent (.unknown tag length)).bytes :=
  putEvent_eq (show ¬(WriteStep.event (.unknown tag length)).Refused from h)

/-- An unknown event that is written has a tag that is not bad. -/
theorem not_badTag_of_perform {s s' : Sink} (h : perform (.event (.unknown tag length)) s = .ok () s') :
    ¬WriteStep.BadTag tag := by
  intro hbad
  rcases perform_cases (.event (.unknown tag length)) with hflush | ⟨-, -, text, -, hrefused⟩ | ⟨haccepted, -⟩
  · cases hflush
  · rw [hrefused] at h
    cases h
  · exact haccepted hbad

end Sink

/-! ## Reading it back -/

/-- What the writer makes of an unknown event is read back, whatever follows it, as follows.  Under a tag without a
meaning it is the event that was written, and its bytes are passed and no others.  Under a tag with a meaning it is an
event of the kind of this tag if the length is allowed for it, and refused if not; it is never an unknown event. -/
theorem unknown_read_back (limit : Nat) {s s' : Sink} (hs : s.capacity = none)
    (hwrite : Sink.perform (.event (.unknown tag length)) s = .ok () s') :
    ∃ w, s'.written.toList = s.written.toList ++ w ∧
      ∀ (d : Decoder) (rest : List UInt8), d.source.Reliable → d.source.unread = w ++ rest →
        ∃ r d', (Decode.event limit).run d = (r, d') ∧
          (7 ≤ tag.toNat → r = .ok (.unknown tag length) ∧ d.Passes w d') ∧
          (tag.toNat < 7 → Written.EventAllows limit tag length.toNat →
            ∃ e, r = .ok e ∧ e.kind = Format.kindOfTag tag ∧ e.kind ≠ .unknown ∧ d.Passes w d') ∧
          (tag.toNat < 7 → ¬Written.EventAllows limit tag length.toNat → ∃ error, r = .error error) := by
  have hgood := Sink.not_badTag_of_perform hwrite
  obtain ⟨h0, hmax⟩ := not_or.1 hgood
  have hwritable (h7 : 7 ≤ tag.toNat) : Event.Writable limit (.unknown tag length) := ⟨h7, Nat.le_of_not_lt hmax⟩
  rw [Sink.perform_unknown hgood, Sink.put_of_unbounded hs] at hwrite
  cases hwrite
  refine ⟨_, Array.toList_appendList, fun d rest hd hu => ?_⟩
  rw [← Written.unknown_inEvent_iff]
  rcases Decode.run_event_element limit (Written.unknown_fits hgood length) hd hu with
    ⟨hin, d', hrun, hp⟩ | ⟨hnot, error, d', hrun⟩
  · have hkind : (Written.ofEvent (.unknown tag length)).event.kind = Format.kindOfTag tag := Written.Element.kind_event _
    refine ⟨_, d', hrun, fun h7 => ⟨?_, hp⟩, fun h7 _ => ⟨_, rfl, hkind, fun hunknown => ?_, hp⟩,
      fun _ hnot => absurd hin hnot⟩
    · rw [Written.event_ofEvent (hwritable h7)]
    · rcases Decode.kindOfTag_eq_unknown_iff.1 (hkind.symm.trans hunknown) with hzero | hge
      · exact h0 hzero
      · exact absurd hge (Nat.not_le_of_lt h7)
  · exact ⟨_, d', hrun, fun h7 => absurd (Written.ofEvent_allowed (hwritable h7)).2 hnot,
      fun _ hin => absurd hin hnot, fun _ _ => ⟨error, rfl⟩⟩

/-- Nine zeros under the tag 291, in front of other bytes. -/
theorem unknown_read_back_meaningless : ∃ s', Sink.perform (.event (.unknown 291 9)) {} = .ok () s' ∧
    ∃ d', (Decode.event 0).run (.ofSource (.ofBytes (s'.written.toList ++ [1, 2]))) = (.ok (.unknown 291 9), d') ∧
      d'.source.unread = [1, 2] := by
  have hwrite : Sink.perform (.event (.unknown 291 9)) {} =
      .ok () { written := #[2, 0x46, 9, 0, 0, 0, 0, 0, 0, 0, 0, 0] } := rfl
  obtain ⟨w, hw, hread⟩ := unknown_read_back 0 rfl hwrite
  obtain ⟨r, d', hrun, hback, -⟩ := hread (.ofSource (.ofBytes (w ++ [1, 2]))) [1, 2] ⟨nofun, rfl⟩ rfl
  obtain ⟨rfl, hp⟩ := hback (by decide)
  have hw : [2, 0x46, 9, 0, 0, 0, 0, 0, 0, 0, 0, 0] = w := hw
  subst hw
  exact ⟨_, hwrite, d', hrun, (List.append_cancel_left hp.unread).symm⟩

/-- Under the tag 4 an unknown event without a payload is read back as the creation of a node. -/
theorem unknown_not_read_back : ¬∀ (limit : Nat) (tag : UInt16) (length : UInt32) (s s' : Sink), s.capacity = none →
    Sink.perform (.event (.unknown tag length)) s = .ok () s' →
    ∃ w, s'.written.toList = s.written.toList ++ w ∧
      ∀ (d : Decoder) (rest : List UInt8), d.source.Reliable → d.source.unread = w ++ rest →
        ∃ d', (Decode.event limit).run d = (.ok (.unknown tag length), d') ∧ d.Passes w d' := by
  intro hall
  obtain ⟨w, hw, hback⟩ := hall 0 4 0 {} { written := #[0, 8, 0] } rfl rfl
  have hw : [0, 8, 0] = w := hw
  subst hw
  have hs : (Decoder.ofSource (.ofBytes [0, 8, 0])).source.Reliable := ⟨nofun, rfl⟩
  obtain ⟨d, hunknown, -⟩ := hback (.ofSource (.ofBytes [0, 8, 0])) [] hs rfl
  have hcreate : Decode.Reads (Decode.event 0) [0, 8, 0] (.ok .nodeCreate) :=
    Decode.reads_event_iff.2 ⟨⟨4, false, []⟩, ⟨by decide, by decide⟩, rfl, rfl, rfl⟩
  obtain ⟨d', hrun, -⟩ := hcreate.run hs (show _ = [0, 8, 0] ++ [] from rfl)
  cases hunknown.symm.trans hrun

end Unknown

end NodeTrace
