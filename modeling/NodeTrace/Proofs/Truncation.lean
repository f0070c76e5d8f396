import NodeTrace.Proofs.Traces

/-!
# Traces that are cut off or continued

What a call for a frame answers without meeting the end depends on nothing behind the bytes it passes, and needs all
of them.  So a trace that is cut off is decoded as its whole frames in front of the cut, and the end is clean if the
cut is between two of them (`frames_of_cut`).  `spans` pairs each frame with the offset of its end.
-/

namespace NodeTrace

/-- The frames in front of the first error, each with the offset behind it. -/
def Decoder.spans (limit : Nat) (d : Decoder) : List (Frame × Nat) :=
  match _h : Decode.frame limit d with
  | .error _ _ => []
  | .ok frame d' => (frame, d'.offset) :: d'.spans limit
termination_by d.unread
decreasing_by
  have := Decode.consumes_frame limit _h
  omega

namespace Written

/-- What each frame means, with the offset of its end if the first frame starts at `start`. -/
def spans (start : Nat) : List Frame → List (NodeTrace.Frame × Nat)
  | [] => []
  | f :: fs => (f.meaning, start + f.bytes.length) :: spans (start + f.bytes.length) fs

theorem Frame.length_pos (f : Frame) : 0 < f.bytes.length := by
  unfold Frame.bytes separator
  rw [List.length_append, List.length_append, BigEndian.length_ofNat]
  omega

theorem lt_of_mem_spans {start : Nat} {fs : List Frame} {p : NodeTrace.Frame × Nat} (h : p ∈ spans start fs) :
    start < p.2 := by
  induction fs generalizing start with
  | nil => cases h
  | cons f fs ih =>
    have hpos := f.length_pos
    rcases List.mem_cons.1 h with rfl | h
    · exact Nat.lt_add_of_pos_right hpos
    · have hlt := ih h
      omega

theorem spans_map_fst (start : Nat) (fs : List Frame) :
    (spans start fs).map Prod.fst = fs.map Frame.meaning := by
  induction fs generalizing start with
  | nil => rfl
  | cons f fs ih => rw [spans, List.map_cons, ih, List.map_cons]

/-- A cut inside the first frame is in front of every end. -/
theorem lt_of_mem_spans_cons {start m : Nat} {f : Frame} {fs : List Frame} {p : NodeTrace.Frame × Nat}
    (h : p ∈ spans start (f :: fs)) (hm : m < f.bytes.length) : start + m < p.2 := by
  rcases List.mem_cons.1 h with rfl | h
  · exact Nat.add_lt_add_left hm start
  · have hlt := lt_of_mem_spans h
    omega

/-- A cut inside the first frame leaves no whole frame, and is between frames only if it is at the start. -/
theorem spans_cut_inside {start m : Nat} {f : Frame} (fs : List Frame) (hm : m < f.bytes.length) :
    (spans start (f :: fs)).filter (·.2 ≤ start + m) = [] ∧
      (start + m ∈ start :: (spans start (f :: fs)).map Prod.snd ↔ m = 0) := by
  constructor
  · refine List.filter_eq_nil_iff.2 fun p hp hle => ?_
    have hlt := lt_of_mem_spans_cons hp hm
    have hle := of_decide_eq_true hle
    omega
  · rw [List.mem_cons]
    refine ⟨fun h => ?_, fun h => .inl (by rw [h]; rfl)⟩
    rcases h with h | h
    · omega
    · obtain ⟨p, hp, he⟩ := List.mem_map.1 h
      have hlt := lt_of_mem_spans_cons hp hm
      omega

/-- A cut behind the first frame leaves it whole, and is a cut of the other frames. -/
theorem spans_cut_behind {start m : Nat} {f : Frame} (fs : List Frame) (hm : f.bytes.length ≤ m) :
    (spans start (f :: fs)).filter (·.2 ≤ start + m) = (f.meaning, start + f.bytes.length) ::
        (spans (start + f.bytes.length) fs).filter (·.2 ≤ start + m) ∧
      (start + m ∈ start :: (spans start (f :: fs)).map Prod.snd ↔
        start + m ∈ (start + f.bytes.length) :: (spans (start + f.bytes.length) fs).map Prod.snd) := by
  have hpos := f.length_pos
  refine ⟨List.filter_cons_of_pos (decide_eq_true (by omega)), ?_⟩
  rw [List.mem_cons]
  exact or_iff_right (by omega)

end Written

namespace Decoder

variable {limit : Nat} {d : Decoder}

theorem spans_of_error {d' : Decoder} {e : DecodeError} (h : (Decode.frame limit).run d = (.error e, d')) :
    d.spans limit = [] := by
  rw [spans, Decode.run_eq_error.1 h]

theorem spans_of_ok {d' : Decoder} {f : Frame} (h : (Decode.frame limit).run d = (.ok f, d')) :
    d.spans limit = (f, d'.offset) :: d'.spans limit := by
  rw [spans, Decode.run_eq_ok.1 h]

theorem spans_of_written {fs : List Written.Frame} (hfs : ∀ f ∈ fs, f.WellFormed limit)
    (hd : d.source.Reliable) (hu : d.source.unread = fs.flatMap Written.Frame.bytes) :
    d.spans limit = Written.spans d.offset fs := by
  induction fs generalizing d with
  | nil =>
    obtain ⟨d', h, -, -⟩ := run_frame_atEnd limit hd hu
    exact spans_of_error h
  | cons f fs ih =>
    rw [List.flatMap_cons] at hu
    have hread := Decode.reads_frame (hfs f List.mem_cons_self)
    obtain ⟨d₁, h, hp, hrest⟩ := hread.run hd hu
    rw [spans_of_ok h, ih (fun f hf => hfs f (List.mem_cons_of_mem _ hf)) hp.reliable hrest, hp.offset]
    rfl

/-- Too few bytes for the frame that the step would read: the end is clean if there are none at all. -/
theorem run_frame_short {w : List UInt8} {r : Except DecodeError Frame}
    (h : Decode.Reads (Decode.frame limit) w r) {j : Nat} (hj : j < w.length) (hd : d.source.Reliable)
    (hu : d.source.unread = w.take j) :
    ∃ d', (Decode.frame limit).run d = (.error (if j = 0 then .endOfStream else .truncated), d') ∧
      d'.source.unread = [] ∧ d'.offset = d.offset + j := by
  have hlen : (w.take j).length = j := List.length_take_of_le (Nat.le_of_lt hj)
  have hne : w.take j ≠ w := fun he => by rw [he] at hlen; omega
  have hanswers := Decode.answers_frame_runsOut (h.short _ (List.take_prefix j w) hne)
  obtain ⟨d', hr, hp, hrest⟩ := hanswers.run_short hd hu
  have hiff : w.take j = [] ↔ j = 0 := by rw [← List.length_eq_zero_iff, hlen]
  simp only [hiff] at hr
  exact ⟨d', hr, hrest, by rw [hp.offset, hlen]⟩

/-- Written frames that are cut off are decoded as those that end in front of the cut. -/
theorem frames_of_cut {fs : List Written.Frame} (hfs : ∀ f ∈ fs, f.WellFormed limit)
    (hd : d.source.Reliable) {m : Nat} (hm : m ≤ (fs.flatMap Written.Frame.bytes).length)
    (hu : d.source.unread = (fs.flatMap Written.Frame.bytes).take m) :
    ∃ d', d.frames limit = (((Written.spans d.offset fs).filter (·.2 ≤ d.offset + m)).map Prod.fst,
        if d.offset + m ∈ d.offset :: (Written.spans d.offset fs).map Prod.snd then .endOfStream
        else .truncated, d') ∧
      d'.source.unread = [] ∧ d'.offset = d.offset + m := by
  induction fs generalizing d m with
  | nil =>
    obtain rfl : m = 0 := Nat.le_zero.1 hm
    obtain ⟨d', h, hp, hrest⟩ := run_frame_atEnd limit hd hu
    refine ⟨d', ?_, hrest, hp.offset⟩
    have hmem : d.offset + 0 ∈ d.offset :: (Written.spans d.offset []).map Prod.snd := List.mem_cons_self
    rw [if_pos hmem]
    exact frames_of_error h
  | cons f fs ih =>
    have hread := Decode.reads_frame (hfs f List.mem_cons_self)
    rw [List.flatMap_cons] at hm hu
    rw [List.length_append] at hm
    rcases Nat.lt_or_ge m f.bytes.length with hlt | hge
    · -- the cut is inside the first frame
      rw [List.take_append_of_le_length (Nat.le_of_lt hlt)] at hu
      obtain ⟨d', h, hrest, ho⟩ := run_frame_short hread hlt hd hu
      obtain ⟨hfilter, hmem⟩ := Written.spans_cut_inside fs hlt
      refine ⟨d', ?_, hrest, ho⟩
      rw [frames_of_error h, hfilter]
      simp only [hmem]
      rfl
    · rw [List.take_append, List.take_of_length_le hge] at hu
      obtain ⟨d₁, h, hp, hrest⟩ := hread.run hd hu
      obtain ⟨d', hframes, hend, ho⟩ :=
        ih (fun f hf => hfs f (List.mem_cons_of_mem _ hf)) hp.reliable (by omega) hrest
      have hoff : d₁.offset + (m - f.bytes.length) = d.offset + m := by rw [hp.offset]; omega
      rw [hoff, hp.offset] at hframes
      refine ⟨d', ?_, hend, ho.trans hoff⟩
      obtain ⟨hfilter, hmem⟩ := Written.spans_cut_behind fs hge
      rw [frames_of_ok h, hframes, hfilter]
      simp only [hmem]
      rfl

end Decoder

namespace Decode

theorem closed_judgeHeader (first second major minor : UInt32) : Closed (judgeHeader first second major minor) := by
  unfold judgeHeader
  rw [requireMagic_bind]
  split
  · rw [requireMagic_bind]
    split
    · split
      · exact closed_pure _
      · exact closed_throw nofun
    · exact closed_throw nofun
  · exact closed_throw nofun

theorem closed_header : Closed header := by
  rw [header_eq]
  exact (closed_inside _).bind fun _ => (closed_inside _).bind fun _ => (closed_inside _).bind fun _ =>
    (closed_inside _).bind fun _ => closed_judgeHeader _ _ _ _

/-- A header that is cut off is truncated, whatever it holds. -/
theorem run_openTrace_short {limit : Nat} {d : Decoder} (hd : d.source.Reliable)
    (hlt : d.source.unread.length < 16) :
    ∃ d', (openTrace limit).run d = (.error .truncated, d') ∧ d'.source.unread = [] := by
  rcases fixed_header.regular d.source.unread with hshort | ⟨w, r, hw, hread⟩
  · have hanswers : Answers (openTrace limit) d.source.unread .exhausted (.error .truncated) _ _ :=
      (closed_header.answers_runsOut hshort).bind_error
    obtain ⟨d', h, -, hrest⟩ := hanswers.run_short hd rfl
    exact ⟨d', h, hrest⟩
  · have hlen := (fixed_header.reads_iff.1 hread).1
    have hle := hw.length_le
    omega

end Decode

/-! ## Extension and truncation -/

/-- A call for a frame passes `k` bytes and needs exactly these for its answer.  A trace that is cut off in its
header is truncated; one that is cut off behind it is decoded as the frames that end in front of the cut, and the end
is clean if the cut is right behind the header or one of them. -/
theorem decodes_cut (limit : Nat) :
    (∀ (d d' : Decoder) (r : Except DecodeError Frame), d.source.Reliable →
      (Decode.frame limit).run d = (r, d') → r ≠ .error .endOfStream → r ≠ .error .truncated →
      ∃ k, k ≤ d.source.unread.length ∧ d'.source.unread = d.source.unread.drop k ∧
        d'.offset = d.offset + k ∧
        (∀ (d₁ : Decoder) (rest : List UInt8), d₁.source.Reliable →
          d₁.source.unread = d.source.unread.take k ++ rest →
          ∃ d₂, (Decode.frame limit).run d₁ = (r, d₂) ∧ d₂.source.unread = rest ∧
            d₂.offset = d₁.offset + k) ∧
        ∀ (d₁ : Decoder) (j : Nat), j < k → d₁.source.Reliable →
          d₁.source.unread = d.source.unread.take j →
          ∃ d₂, (Decode.frame limit).run d₁ = (.error (if j = 0 then .endOfStream else .truncated), d₂) ∧
            d₂.source.unread = [] ∧ d₂.offset = d₁.offset + j) ∧
    ∀ (s s' : Source) (h : TraceHeader) (d d' : Decoder) (ps : List Frame) (j : Nat), s.Reliable →
      (Decode.openTrace limit).run (.ofSource s) = (.ok h, d) → d.frames limit = (ps, .endOfStream, d') →
      j ≤ s.unread.length → s'.Reliable → s'.unread = s.unread.take j →
      ps = (d.spans limit).map Prod.fst ∧
      (j < 16 → ∃ d₁, (Decode.openTrace limit).run (.ofSource s') = (.error .truncated, d₁)) ∧
      (16 ≤ j → ∃ d₁ d₂, (Decode.openTrace limit).run (.ofSource s') = (.ok h, d₁) ∧
        d₁.frames limit = (((d.spans limit).filter (·.2 ≤ j)).map Prod.fst,
          if j ∈ 16 :: (d.spans limit).map Prod.snd then .endOfStream else .truncated, d₂)) := by
  constructor
  · intro d d' r hd h hend htrunc
    obtain ⟨w, hread, hp⟩ := Decode.reads_of_run (Decode.regular_frame limit) hd h ⟨hend, htrunc⟩
    have hu := hp.unread
    refine ⟨w.length, ?_, ?_, hp.offset, ?_, ?_⟩
    · rw [hu, List.length_append]; omega
    · rw [hu, List.drop_left]
    · intro d₁ rest hd₁ hu₁
      rw [hu, List.take_left] at hu₁
      obtain ⟨d₂, hrun, hp₂, hrest⟩ := hread.run hd₁ hu₁
      exact ⟨d₂, hrun, hrest, hp₂.offset⟩
    · intro d₁ j hj hd₁ hu₁
      rw [hu, List.take_append_of_le_length (Nat.le_of_lt hj)] at hu₁
      exact Decoder.run_frame_short hread hj hd₁ hu₁
  · intro s s' h d d' ps j hs hopen hframes hj hs' hu'
    obtain ⟨w, hread, hp⟩ :=
      Decode.reads_of_run (Decode.regular_openTrace limit) hs hopen (Decode.judged_ok h)
    obtain ⟨hmajor, rfl⟩ := Decode.reads_openTrace_iff.1 hread
    obtain ⟨fs, hfs, hrest, rfl⟩ := Decoder.written_of_frames hp.reliable hframes
    have hu : s.unread = Written.header h.minor ++ d.source.unread := hp.unread
    have hlen : (Written.header h.minor).length = 16 := rfl
    have hspans : d.spans limit = Written.spans 16 fs := by
      rw [Decoder.spans_of_written hfs hp.reliable hrest, hp.offset]; rfl
    rw [hspans]
    refine ⟨(Written.spans_map_fst 16 fs).symm, fun hlt => ?_, fun hge => ?_⟩
    · obtain ⟨d₁, hd₁, -⟩ := Decode.run_openTrace_short (d := .ofSource s') hs' (by
        show s'.unread.length < 16
        rw [hu', List.length_take]; omega)
      exact ⟨d₁, hd₁⟩
    · rw [hu, List.length_append] at hj
      rw [hu, List.take_append, List.take_of_length_le (by omega)] at hu'
      obtain ⟨d₁, hopen₁, hp₁, hrest₁⟩ := hread.run (d := .ofSource s') hs' hu'
      have hoff : d₁.offset = 16 := hp₁.offset
      rw [hrest] at hrest₁ hj
      obtain ⟨d₂, hframes₂, -⟩ := Decoder.frames_of_cut hfs hp₁.reliable (by omega) hrest₁
      have hjoff : 16 + (j - (Written.header h.minor).length) = j := by omega
      rw [hoff, hjoff] at hframes₂
      exact ⟨d₁, d₂, hopen₁, hframes₂⟩

/-- A frame without its last byte, and a trace that is cut off in its second frame. -/
theorem cut_unusual :
    (∃ d, (Decode.frame 0).run (.ofSource (.ofBytes [0, 0, 0])) = (.error .truncated, d)) ∧
    ∃ d d', (Decode.openTrace 0).run (.ofSource { unusual with unread := unusual.unread.take 47 }) =
        (.ok ⟨1, 7⟩, d) ∧
      d.frames 0 = ([⟨⟨⟨true, true, false⟩, 256, 0, {}⟩, .monitorState ⟨1, 2, 3⟩⟩], .truncated, d') := by
  constructor
  · have hread : Decode.Reads (Decode.frame 0) [0, 0, 0, 1] (.ok ⟨{}, .unknown 0 0⟩) :=
      Decode.reads_frame_iff.2 ⟨⟨[], false, ⟨0, true, []⟩⟩, unusualFrames_wellFormed _ (by simp [unusualFrames]),
        rfl, rfl⟩
    have hbytes (bytes : List UInt8) : (Source.ofBytes bytes).Reliable := ⟨nofun, rfl⟩
    obtain ⟨d', h, hp, -⟩ := hread.run (d := .ofSource (.ofBytes [0, 0, 0, 1])) (hbytes _) rfl
    obtain ⟨k, -, -, hk, -, hshort⟩ := (decodes_cut 0).1 _ d' _ (hbytes [0, 0, 0, 1]) h nofun nofun
    rw [hp.offset] at hk
    obtain ⟨d, hd, -⟩ := hshort (.ofSource (.ofBytes [0, 0, 0])) 3
      (by rw [← Nat.add_left_cancel hk]; decide) (hbytes _) rfl
    exact ⟨d, hd⟩
  · have hs : unusual.Reliable := ⟨nofun, rfl⟩
    have hread : Decode.Reads (Decode.openTrace 0) (Written.header 7) (.ok ⟨1, 7⟩) :=
      Decode.reads_openTrace_iff.2 ⟨rfl, rfl⟩
    have hu : unusual.unread = Written.header 7 ++ unusualFrames.flatMap Written.Frame.bytes := rfl
    obtain ⟨d, hopen, hp, hrest⟩ := hread.run (d := .ofSource unusual) hs hu
    have hfs := unusualFrames_wellFormed
    obtain ⟨d', hframes, -⟩ := Decoder.frames_of_written hfs hp.reliable hrest
    obtain ⟨-, -, hcut⟩ := (decodes_cut 0).2 unusual { unusual with unread := unusual.unread.take 47 } _ d d' _ 47
      hs hopen hframes (by decide) ⟨nofun, rfl⟩ rfl
    obtain ⟨d₁, d₂, hopen₁, hframes₁⟩ := hcut (by decide)
    rw [Decoder.spans_of_written hfs hp.reliable hrest, hp.offset] at hframes₁
    exact ⟨d₁, d₂, hopen₁, hframes₁⟩

end NodeTrace
