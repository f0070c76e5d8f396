import NodeTrace.Proofs.Counting

/-!
# What the offset says of the bytes delivered

The offset counts the bytes that the source has delivered until a call for a frame meets a failure of the source inside a
payload that is skipped (`Decoder.CutShort`).  From then on it is behind by the bytes of this payload that were passed,
since nothing is left in front of the failure that a later call could pass (`offset_counts`).
-/

namespace NodeTrace

/-! ## Calls -/

/-- A source passes as many bytes as it advances by. -/
theorem Source.Advanced.length_unread {s s' : Source} {n : Nat} (h : s.Advanced n s') :
    n + s'.unread.length = s.unread.length := by
  have hle := Nat.le_trans h.within s.ahead_prefix.length_le
  rw [h.unread, List.length_drop]
  omega

namespace Decoder

variable {limit : Nat} {d : Decoder} {k l : Nat}

/-- The source fails inside a payload that the next call for a frame skips, behind `k` bytes of this payload. -/
structure CutShort (d : Decoder) (k : Nat) : Prop where
  fails : ∃ fault, d.source.FailsWith fault
  inside : Written.CutInside d.source.ahead k

/-- The decoder behind as many calls for a frame, each made whatever the calls before it have answered. -/
def after (limit : Nat) : Nat → Decoder → Decoder
  | 0, d => d
  | count + 1, d => after limit count ((Decode.frame limit).run d).2

theorem after_one_of_run {r : Except DecodeError Frame} {d' : Decoder} (hrun : (Decode.frame limit).run d = (r, d')) :
    d.after limit 1 = d' := by
  rw [after, hrun]
  rfl

theorem CutShort.unique (h : d.CutShort k) (h' : d.CutShort l) : k = l :=
  (Decode.misses_frame 0 h.inside).unique (Decode.misses_frame 0 h'.inside)

/-- Behind the last byte nothing is cut short. -/
theorem not_cutShort_of_nil (hd : d.source.ahead = []) (k : Nat) : ¬d.CutShort k := by
  intro h
  have hle := (Decode.misses_frame 0 h.inside).le
  have hpos := h.inside.pos
  rw [hd, List.length_nil] at hle
  omega

/-- A call inside which a payload is cut short passes all bytes in front of the failure, and misses those of the
payload. -/
theorem CutShort.offset_after (h : d.CutShort k) (limit : Nat) :
    (d.after limit 1).offset + k + (d.after limit 1).unread = d.offset + d.unread ∧
      (d.after limit 1).source.ahead = [] := by
  obtain ⟨fault, hfails⟩ := h.fails
  obtain ⟨hle, hanswers⟩ := Decode.misses_frame limit h.inside
  obtain ⟨d', hrun, hadv, hoffset⟩ := hanswers fault d hfails.flows rfl hfails.close
  have hlength := hadv.length_unread
  rw [after_one_of_run hrun, hadv.ahead, hoffset]
  unfold Decoder.unread
  exact ⟨by omega, List.drop_length⟩

/-- Any other call counts all bytes that it passes. -/
theorem offset_after_of_not_cutShort (hd : d.source.Flows) (h : ∀ k, ¬d.CutShort k) (limit : Nat) :
    (d.after limit 1).offset + (d.after limit 1).unread = d.offset + d.unread := by
  have hcounts {r : Except DecodeError Frame} {n : Nat} {c : Ending}
      (hanswers : Decode.Answers (Decode.frame limit) d.source.ahead c r n n) (hc : d.source.close = c) :
      (d.after limit 1).offset + (d.after limit 1).unread = d.offset + d.unread := by
    obtain ⟨d', hrun, hadv, hoffset⟩ := hanswers d hd rfl hc
    have hlength := hadv.length_unread
    rw [after_one_of_run hrun, hoffset]
    unfold Decoder.unread
    omega
  rcases d.source.close_cases with hc | ⟨fault, hc⟩
  · rcases Decode.regular_frame limit d.source.ahead with hshort | ⟨w, r, ⟨rest, hw⟩, hread⟩
    · obtain ⟨e, -, hanswers⟩ := hshort.atEnd
      exact hcounts hanswers hc
    · exact hcounts (hw ▸ hread.whole rest _) rfl
  · rcases Decode.missesOnly_frame limit d.source.ahead with ⟨k, hmisses, hk⟩ | ⟨w, r, ⟨rest, hw⟩, hread⟩
    · obtain rfl : k = 0 := by
        by_contra hne
        exact h k ⟨⟨fault, hd, hc⟩, hk hne⟩
      exact hcounts (hmisses.answers fault) hc
    · exact hcounts (hw ▸ hread.whole rest _) rfl

theorem ahead_after_of_nil (hd : d.source.Flows) (hahead : d.source.ahead = []) (limit count : Nat) :
    (d.after limit count).source.ahead = [] := by
  induction count generalizing d with
  | zero => exact hahead
  | succ count ih =>
    obtain ⟨r, n, m, hanswers⟩ := (Decode.regular_frame limit).answers (s := d.source)
    obtain ⟨d', hrun, hadv, -⟩ := hanswers d hd rfl rfl
    rw [after, hrun]
    refine ih (hadv.flows hd) ?_
    rw [hadv.ahead, hahead, List.drop_nil]

/-- The offset counts all bytes that were passed unless some call was cut short, and then it misses the bytes of this
one payload. -/
theorem offset_after (hd : d.source.Flows) (limit count : Nat) :
    ((d.after limit count).offset + (d.after limit count).unread = d.offset + d.unread ↔
      ∀ i < count, ∀ k, ¬(d.after limit i).CutShort k) ∧
    ∀ i < count, ∀ k, (d.after limit i).CutShort k →
      (d.after limit count).offset + k + (d.after limit count).unread = d.offset + d.unread := by
  induction count generalizing d with
  | zero =>
    exact ⟨⟨fun _ i hi => absurd hi (Nat.not_lt_zero i), fun _ => rfl⟩, fun i hi => absurd hi (Nat.not_lt_zero i)⟩
  | succ count ih =>
    have hnext (i : Nat) : d.after limit (i + 1) = (d.after limit 1).after limit i := rfl
    have hd₁ : (d.after limit 1).source.Flows := (Decode.regular_frame limit).flows hd rfl
    obtain ⟨hiff, hmissed⟩ := ih hd₁
    rw [hnext count, Nat.forall_lt_succ_left, Nat.forall_lt_succ_left]
    by_cases hcut : ∃ k, d.CutShort k
    · obtain ⟨k, hk⟩ := hcut
      obtain ⟨hoffset, hahead⟩ := hk.offset_after limit
      -- nothing is left in front of the failure, so no other call is cut short
      have hnone (i l : Nat) : ¬((d.after limit 1).after limit i).CutShort l :=
        not_cutShort_of_nil (ahead_after_of_nil hd₁ hahead limit i) l
      have hrest := hiff.2 fun i _ l => hnone i l
      have hpos := hk.inside.pos
      refine ⟨⟨fun h => by omega, fun h => absurd hk (h.1 k)⟩, fun l hl => ?_, fun i _ l hl => absurd hl (hnone i l)⟩
      obtain rfl := hk.unique hl
      omega
    · have hnone (k : Nat) : ¬d.CutShort k := fun hk => hcut ⟨k, hk⟩
      rw [← offset_after_of_not_cutShort hd hnone limit]
      exact ⟨hiff.trans (and_iff_right hnone).symm, fun k hk => absurd hk (hnone k), hmissed⟩

end Decoder

/-- Opening a trace counts all bytes that it passes. -/
theorem Decoder.offset_of_openTrace {limit : Nat} {s : Source} {h : TraceHeader} {d : Decoder}
    (hopen : (Decode.openTrace limit).run (.ofSource s) = (.ok h, d)) :
    d.source.Flows ∧ d.offset + d.unread = s.unread.length := by
  have hs : s.Flows := Decode.flows_of_openTrace (Decode.run_eq_ok.1 hopen)
  have hcounts := Decode.counts_openTrace limit (.ofSource s)
  rw [hopen] at hcounts
  exact ⟨(Decode.regular_openTrace limit).flows (d := .ofSource s) hs hopen, hcounts.trans (Nat.zero_add _)⟩

/-- Behind a trace that opens and any number of calls for frames, whatever they answer, the offset and the bytes that are
left come to all bytes of the source exactly if no call has met a failure of the source inside a payload that it skips.
At most one call does, and from then on the offset misses the bytes of this payload that were passed. -/
theorem offset_counts {limit : Nat} {s : Source} {h : TraceHeader} {d : Decoder}
    (hopen : (Decode.openTrace limit).run (.ofSource s) = (.ok h, d)) (count : Nat) :
    ((d.after limit count).offset + (d.after limit count).unread = s.unread.length ↔
      ∀ i < count, ∀ k, ¬(d.after limit i).CutShort k) ∧
    ∀ i < count, ∀ k, (d.after limit i).CutShort k →
      (d.after limit count).offset + k + (d.after limit count).unread = s.unread.length := by
  obtain ⟨hd, hall⟩ := Decoder.offset_of_openTrace hopen
  rw [← hall]
  exact Decoder.offset_after hd limit count

/-- A frame, and behind it an element of a scope run with an unknown tag and five bytes, of which the source delivers two
before it fails. -/
def failingInPayload : Source where
  unread := [0x63, 0x74, 0x6b, 0x74, 0x72, 0x61, 0x63, 0x65, 0, 0, 0, 1, 0, 0, 0, 0,
    0, 0, 0, 8, 0, 0, 18, 5, 0xaa, 0xbb, 0xcc, 0xdd, 0xee, 0, 0, 0, 8, 0]
  failure := some (26, .other "source failure")
  chunk := some 4
  interrupts := [3, 25]

theorem failingInPayload_cutShort : ∃ d, (Decode.openTrace 0).run (.ofSource failingInPayload) = (.ok ⟨1, 0⟩, d) ∧
    (d.after 0 1).CutShort 2 := by
  have hs : failingInPayload.Flows := by
    intro hzero
    cases hzero
  have hheader : Decode.Reads (Decode.openTrace 0) (Written.header 0) (.ok ⟨1, 0⟩) :=
    Decode.reads_openTrace_iff.2 ⟨rfl, rfl⟩
  obtain ⟨d, hopen, hadv, -⟩ := hheader.whole [0, 0, 0, 8, 0, 0, 18, 5, 0xaa, 0xbb] (.failed (.other "source failure"))
    (.ofSource failingInPayload) hs rfl rfl
  have hframe : Decode.Reads (Decode.frame 0) [0, 0, 0, 8, 0] (.ok ⟨{}, .nodeCreate⟩) :=
    Decode.reads_frame (f := ⟨[], false, ⟨4, false, []⟩⟩) ⟨List.forall_mem_nil _, ⟨by decide, by decide⟩, rfl⟩
  obtain ⟨d', hrun, hadv', -⟩ := hframe.whole [0, 18, 5, 0xaa, 0xbb] (.failed (.other "source failure")) d
    (hadv.flows hs) hadv.ahead hadv.close
  refine ⟨d, hopen, ?_⟩
  rw [Decoder.after_one_of_run hrun]
  refine ⟨⟨_, hadv'.flows (hadv.flows hs), hadv'.close.trans hadv.close⟩, ?_⟩
  rw [hadv'.ahead, hadv.ahead]
  exact .scope (List.forall_mem_nil _)
    ⟨⟨9, false, 5, [0xaa, 0xbb], ⟨by decide, by decide⟩, by decide, rfl, rfl, by decide⟩, by decide⟩

theorem offset_counts_failingInPayload : ∃ d, (Decode.openTrace 0).run (.ofSource failingInPayload) = (.ok ⟨1, 0⟩, d) ∧
    (d.after 0 1).offset + (d.after 0 1).unread = 34 ∧ (d.after 0 3).offset + 2 + (d.after 0 3).unread = 34 := by
  obtain ⟨d, hopen, hcut⟩ := failingInPayload_cutShort
  obtain ⟨-, hmissed⟩ := offset_counts hopen 3
  refine ⟨d, hopen, (offset_counts hopen 1).1.2 fun i hi k hk => ?_, hmissed 1 (by decide) 2 hcut⟩
  -- the first call is not cut short, since the second is
  obtain rfl := Nat.lt_one_iff.1 hi
  exact Decoder.not_cutShort_of_nil (hk.offset_after 0).2 2 hcut

/-- The offset does not count all bytes that were delivered. -/
theorem offset_misses : ¬∀ (limit : Nat) (s : Source) (h : TraceHeader) (d : Decoder),
    (Decode.openTrace limit).run (.ofSource s) = (.ok h, d) →
    ∀ count, (d.after limit count).offset + (d.after limit count).unread = s.unread.length := by
  intro hall
  obtain ⟨d, hopen, hcut⟩ := failingInPayload_cutShort
  obtain ⟨hd, hstart⟩ := Decoder.offset_of_openTrace hopen
  have hmissed := (Decoder.offset_after hd 0 2).2 1 (by decide) 2 hcut
  have hcounted := hall 0 failingInPayload ⟨1, 0⟩ d hopen 2
  omega

end NodeTrace
