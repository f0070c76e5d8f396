import NodeTrace.Decoder.Trace
import NodeTrace.Proofs.Frames

/-!
# Decoding accepts the traces that are written

From a reliable source a step answers what it reads of the unread bytes (`Reads.run`), and the answer of a regular
step that does not meet the end is what it reads of them (`reads_of_run`).  So the header and the frames that are
accepted are those of the grammar (`reads_openTrace_iff`, `frames_of_written`, `written_of_frames`).
-/

namespace NodeTrace

/-- The decoder `d'` has passed the bytes `w` since it was `d`, and can go on. -/
structure Decoder.Passes (d : Decoder) (w : List UInt8) (d' : Decoder) : Prop where
  unread : d.source.unread = w ++ d'.source.unread
  reliable : d'.source.Reliable
  offset : d'.offset = d.offset + w.length

namespace Decoder.Passes

variable {d d' d'' : Decoder} {w v : List UInt8}

theorem nil (hd : d.source.Reliable) : d.Passes [] d := ⟨rfl, hd, rfl⟩

theorem append (h : d.Passes w d') (h' : d'.Passes v d'') : d.Passes (w ++ v) d'' where
  unread := by rw [h.unread, h'.unread, List.append_assoc]
  reliable := h'.reliable
  offset := by rw [h'.offset, h.offset, List.length_append, Nat.add_assoc]

theorem of_advanced {n : Nat} (hd : d.source.Reliable) (h : d.source.Advanced n d'.source)
    (ho : d'.offset = d.offset + n) : d.Passes (d.source.unread.take n) d' where
  unread := by rw [h.unread, List.take_append_drop]
  reliable := h.reliable hd
  offset := by
    have hn := h.within
    rw [hd.ahead] at hn
    rw [ho, List.length_take_of_le hn]

theorem length_unread (h : d.Passes w d') : w.length + d'.unread = d.unread := by
  unfold Decoder.unread
  rw [h.unread, List.length_append]

end Decoder.Passes

namespace Decode

section Run

variable {α β : Type} {x : Decode α} {w : List UInt8} {r : Except DecodeError α} {d d' : Decoder}

/-- From a reliable source a step answers what it reads. -/
theorem Reads.run {rest : List UInt8} (h : Reads x w r) (hd : d.source.Reliable)
    (hu : d.source.unread = w ++ rest) :
    ∃ d', x.run d = (r, d') ∧ d.Passes w d' ∧ d'.source.unread = rest := by
  obtain ⟨d', hr, ha, ho⟩ := h.whole rest .exhausted d hd.flows (hd.ahead.trans hu) hd.close
  have hp := Decoder.Passes.of_advanced hd ha ho
  rw [hu, List.take_left] at hp
  exact ⟨d', hr, hp, by rw [ha.unread, hu, List.drop_left]⟩

/-- From a reliable source with too few bytes, a step passes all of them and fails. -/
theorem Answers.run_short (h : Answers x w .exhausted r w.length w.length) (hd : d.source.Reliable)
    (hu : d.source.unread = w) : ∃ d', x.run d = (r, d') ∧ d.Passes w d' ∧ d'.source.unread = [] := by
  obtain ⟨d', hr, ha, ho⟩ := h d hd.flows (hd.ahead.trans hu) hd.close
  have hp := Decoder.Passes.of_advanced hd ha ho
  rw [hu, List.take_length] at hp
  exact ⟨d', hr, hp, by rw [ha.unread, hu, List.drop_length]⟩

/-- From a reliable source, what a regular step answers without meeting the end is what it reads. -/
theorem reads_of_run (hx : Regular x) (hd : d.source.Reliable) (h : x.run d = (r, d')) (hr : Judged r) :
    ∃ w, Reads x w r ∧ d.Passes w d' := by
  rcases hx d.source.unread with hx | ⟨w, r', ⟨rest, hw⟩, hx⟩
  · obtain ⟨e, he, ha⟩ := hx.atEnd
    obtain ⟨d₁, hd₁, -⟩ := ha.run_short hd rfl
    rw [h] at hd₁
    obtain ⟨rfl, -⟩ := Prod.mk.inj hd₁
    rcases he with rfl | rfl
    · exact absurd rfl hr.1
    · exact absurd rfl hr.2
  · obtain ⟨d₁, hd₁, hp, -⟩ := hx.run hd hw.symm
    rw [h] at hd₁
    obtain ⟨rfl, rfl⟩ := Prod.mk.inj hd₁
    exact ⟨w, hx, hp⟩

end Run

/-! ## The header of a trace -/

/-- What is made of the four words of a header. -/
def judgeHeader (first second major minor : UInt32) : Decode TraceHeader :=
  requireMagic first Format.magic.1 >>= fun _ => requireMagic second Format.magic.2 >>= fun _ =>
    if major = Format.majorVersion then pure ⟨major, minor⟩
    else throw (.versionMismatch major Format.majorVersion)

theorem header_eq : header = word32.inside >>= fun first => word32.inside >>= fun second =>
    word32.inside >>= fun major => word32.inside >>= fun minor => judgeHeader first second major minor := rfl

theorem requireMagic_bind {β : Type} (found expected : UInt32) (f : Unit → Decode β) :
    requireMagic found expected >>= f = if found = expected then f () else throw (.badMagic found) := by
  unfold requireMagic
  split <;> rfl

/-- What a header of four words is taken for: the magic words are judged from left to right, then the version. -/
def headerVerdict (first second major minor : UInt32) : Except DecodeError TraceHeader :=
  if first = Format.magic.1 then
    if second = Format.magic.2 then
      if major = Format.majorVersion then .ok ⟨major, minor⟩
      else .error (.versionMismatch major Format.majorVersion)
    else .error (.badMagic second)
  else .error (.badMagic first)

theorem headerVerdict_ok_iff {first second major minor : UInt32} {h : TraceHeader} :
    headerVerdict first second major minor = .ok h ↔
      first = Format.magic.1 ∧ second = Format.magic.2 ∧ major = Format.majorVersion ∧ h = ⟨major, minor⟩ := by
  unfold headerVerdict
  constructor
  · intro hv
    split at hv
    · rename_i h₁
      split at hv
      · rename_i h₂
        split at hv
        · rename_i h₃
          exact ⟨h₁, h₂, h₃, (Except.ok.inj hv).symm⟩
        · cases hv
      · cases hv
    · cases hv
  · rintro ⟨h₁, h₂, h₃, rfl⟩
    rw [if_pos h₁, if_pos h₂, if_pos h₃]

theorem fixed_judgeHeader (first second major minor : UInt32) :
    Fixed 0 (judgeHeader first second major minor) fun _ => headerVerdict first second major minor := by
  unfold judgeHeader headerVerdict
  rw [requireMagic_bind]
  by_cases h₁ : first = Format.magic.1
  · simp only [if_pos h₁]
    rw [requireMagic_bind]
    by_cases h₂ : second = Format.magic.2
    · simp only [if_pos h₂]
      by_cases h₃ : major = Format.majorVersion
      · simp only [if_pos h₃]
        exact fixed_pure _
      · simp only [if_neg h₃]
        exact fixed_throw ⟨nofun, nofun⟩
    · simp only [if_neg h₂]
      exact fixed_throw ⟨nofun, nofun⟩
  · simp only [if_neg h₁]
    exact fixed_throw ⟨nofun, nofun⟩

theorem fixed_header : Fixed 16 header fun w =>
    headerVerdict (Written.word32 w 0) (Written.word32 w 4) (Written.word32 w 8) (Written.word32 w 12) := by
  rw [header_eq]
  refine (fixed_word32.inside.bind fun first => fixed_word32.inside.bind fun second =>
    fixed_word32.inside.bind fun major => fixed_word32.inside.bind fun minor =>
      fixed_judgeHeader first second major minor).congr fun w hw => ?_
  rw [List.drop_drop, List.drop_drop]
  rfl

/-- The record that is made of an accepted header. -/
def recorded (limit : Nat) (h : TraceHeader) : Decode TraceHeader := do
  let minor := Digits.decimal h.minor.toNat
  note .debug ("opened trace version " ++ Digits.decimal h.major.toNat ++ "." ++ minor ++
    " (max payload " ++ Digits.decimal limit ++ " bytes)")
  if h.minor = Format.minorVersion then return h
  else
    note .warn ("trace minor version " ++ minor ++ " differs from " ++
      Digits.decimal Format.minorVersion.toNat ++ ", continuing")
    return h

theorem openTrace_eq (limit : Nat) : openTrace limit = header >>= recorded limit := rfl

theorem fixed_recorded (limit : Nat) (h : TraceHeader) : Fixed 0 (recorded limit h) fun _ => .ok h := by
  unfold recorded
  dsimp only
  refine (fixed_note _ _).bind fun _ => (?_ : Fixed 0 _ fun _ => .ok h)
  split
  · exact fixed_pure h
  · exact (fixed_note _ _).bind fun _ => fixed_pure h

theorem regular_openTrace (limit : Nat) : Regular (openTrace limit) :=
  fixed_header.regular.bind fun h => (fixed_recorded limit h).regular

theorem toNat_word32 {w : List UInt8} {start : Nat} (h : start + 4 ≤ w.length) :
    (Written.word32 w start).toNat = Written.number w start 4 :=
  UInt32.toNat_ofNat_of_lt' (Written.number_lt h)

theorem words_of_header {w : List UInt8} (hw : w.length = 16) :
    w = BigEndian.ofNat 4 (Written.word32 w 0).toNat ++ BigEndian.ofNat 4 (Written.word32 w 4).toNat ++
      BigEndian.ofNat 4 (Written.word32 w 8).toNat ++ BigEndian.ofNat 4 (Written.word32 w 12).toNat := by
  have hword (start : Nat) (h : start + 4 ≤ 16) : w.drop start =
      BigEndian.ofNat 4 (Written.word32 w start).toNat ++ w.drop (start + 4) := by
    rw [toNat_word32 (by omega)]
    exact Written.drop_eq_number (by omega)
  have hend : w.drop 16 = [] := List.drop_of_length_le (by omega)
  show w.drop 0 = _
  rw [hword 0 (by decide), hword 4 (by decide), hword 8 (by decide), hword 12 (by decide), hend]
  simp only [List.append_nil, List.append_assoc]

theorem minor_of_header (minor : UInt32) : Written.word32 (Written.header minor) 12 = minor := by
  have hlen : (BigEndian.ofNat 4 0x63746b74 ++ BigEndian.ofNat 4 0x72616365 ++ BigEndian.ofNat 4 1).length = 12 :=
    rfl
  have h := Written.number_ofNat hlen (show minor.toNat < BigEndian.capacity 4 from minor.toNat_lt) []
  rw [List.append_nil] at h
  show UInt32.ofNat (Written.number (Written.header minor) 12 4) = minor
  rw [show Written.number (Written.header minor) 12 4 = minor.toNat from h, UInt32.ofNat_toNat]

/-- The header that is accepted is the one that is written. -/
theorem reads_openTrace_iff {limit : Nat} {w : List UInt8} {h : TraceHeader} :
    Reads (openTrace limit) w (.ok h) ↔ h.major = Format.majorVersion ∧ w = Written.header h.minor := by
  rw [openTrace_eq]
  constructor
  · intro hr
    rcases hr.bind_inv fixed_header.regular fun h => (fixed_recorded limit h).regular with
      ⟨e, he, -⟩ | ⟨h', u, v, rfl, hu, hv⟩
    · cases he
    · obtain ⟨hnil, hh⟩ := (fixed_recorded limit h').reads_iff.1 hv
      cases hh
      obtain ⟨hlen, hverdict⟩ := fixed_header.reads_iff.1 hu
      obtain ⟨h₁, h₂, h₃, rfl⟩ := headerVerdict_ok_iff.1 hverdict.symm
      refine ⟨h₃, ?_⟩
      have hw := words_of_header hlen
      rw [h₁, h₂, h₃] at hw
      rw [List.length_eq_zero_iff.1 hnil, List.append_nil]
      exact hw
  · rintro ⟨hmajor, rfl⟩
    have hu : Reads header (Written.header h.minor) (.ok h) := by
      refine fixed_header.reads_iff.2 ⟨rfl, (headerVerdict_ok_iff.2 ⟨rfl, rfl, rfl, ?_⟩).symm⟩
      rw [minor_of_header]
      obtain ⟨major, minor⟩ := h
      exact congrArg (TraceHeader.mk · minor) hmajor
    have hv := fixed_recorded limit h [] rfl
    have hall := hu.bind hv
    rwa [List.append_nil] at hall

/-- A header that is written is accepted, and what is left is what stands behind it. -/
theorem run_openTrace_written (limit : Nat) {d : Decoder} (hd : d.source.Reliable) {minor : UInt32} {rest : List UInt8}
    (hu : d.source.unread = Written.header minor ++ rest) :
    ∃ d', (openTrace limit).run d = (.ok ⟨Format.majorVersion, minor⟩, d') ∧ d.Passes (Written.header minor) d' ∧
      d'.source.unread = rest :=
  (reads_openTrace_iff.2 ⟨rfl, rfl⟩).run hd hu

end Decode

/-! ## Frames up to the end -/

namespace Decoder

variable {limit : Nat} {d d' : Decoder}

theorem frames_of_error {e : DecodeError} (h : (Decode.frame limit).run d = (.error e, d')) :
    d.frames limit = ([], e, d') := by
  rw [frames, Decode.run_eq_error.1 h]

theorem frames_of_ok {f : Frame} (h : (Decode.frame limit).run d = (.ok f, d')) :
    d.frames limit = (f :: (d'.frames limit).1, (d'.frames limit).2) := by
  rw [frames, Decode.run_eq_ok.1 h]
  rfl

/-- Without a byte ahead there is no frame, and the end is clean. -/
theorem run_frame_atEnd (limit : Nat) (hd : d.source.Reliable) (hu : d.source.unread = []) :
    ∃ d', (Decode.frame limit).run d = (.error .endOfStream, d') ∧ d.Passes [] d' ∧ d'.source.unread = [] :=
  (Decode.answers_frame_atEnd limit).run_short hd hu

/-- Written frames are decoded as what they mean, and the trace ends cleanly behind them. -/
theorem frames_of_written {fs : List Written.Frame} (hfs : ∀ f ∈ fs, f.WellFormed limit)
    (hd : d.source.Reliable) (hu : d.source.unread = fs.flatMap Written.Frame.bytes) :
    ∃ d', d.frames limit = (fs.map Written.Frame.meaning, .endOfStream, d') ∧
      d.Passes (fs.flatMap Written.Frame.bytes) d' := by
  induction fs generalizing d with
  | nil =>
    obtain ⟨d', h, hp, -⟩ := run_frame_atEnd limit hd hu
    exact ⟨d', frames_of_error h, hp⟩
  | cons f fs ih =>
    rw [List.flatMap_cons] at hu
    have hread := Decode.reads_frame (hfs f List.mem_cons_self)
    obtain ⟨d₁, h, hp, hrest⟩ := hread.run hd hu
    obtain ⟨d', hframes, hp'⟩ := ih (fun f hf => hfs f (List.mem_cons_of_mem _ hf)) hp.reliable hrest
    refine ⟨d', ?_, hp.append hp'⟩
    rw [frames_of_ok h, hframes]
    rfl

/-- Frames that are decoded up to the clean end were written. -/
theorem written_of_frames {ps : List Frame} (hd : d.source.Reliable)
    (h : d.frames limit = (ps, .endOfStream, d')) :
    ∃ fs : List Written.Frame, (∀ f ∈ fs, f.WellFormed limit) ∧
      d.source.unread = fs.flatMap Written.Frame.bytes ∧ ps = fs.map Written.Frame.meaning := by
  fun_induction frames limit d generalizing ps d' with
  | case1 d e d₁ he =>
    cases h
    refine ⟨[], nofun, ?_, rfl⟩
    rw [← hd.ahead]
    exact Decode.ahead_of_endOfStream hd.flows he
  | case2 d f d₁ hf ih =>
    obtain ⟨hps, htail⟩ := Prod.mk.inj h
    obtain ⟨w, hread, hp⟩ :=
      Decode.reads_of_run (Decode.regular_frame limit) hd (Decode.run_eq_ok.2 hf) (Decode.judged_ok f)
    obtain ⟨u, hu, rfl, rfl⟩ := Decode.reads_frame_iff.1 hread
    obtain ⟨fs, hfs, hrest, hmean⟩ := ih hp.reliable (Prod.ext rfl htail)
    refine ⟨u :: fs, ?_, ?_, ?_⟩
    · intro f hf
      rcases List.mem_cons.1 hf with rfl | hf
      · exact hu
      · exact hfs f hf
    · rw [hp.unread, hrest, List.flatMap_cons]
    · rw [← hps, List.map_cons, ← hmean]

end Decoder

/-! ## Traces by their bytes -/

namespace Written

/-- The bytes are those of a header and of frames that are allowed if attached data has at most `limit` bytes. -/
structure Spells (limit : Nat) (minor : UInt32) (fs : List Frame) (bytes : List UInt8) : Prop where
  wellFormed : ∀ f ∈ fs, f.WellFormed limit
  bytes_eq : bytes = header minor ++ fs.flatMap Frame.bytes

variable {limit : Nat} {s : Source}

/-- Bytes of allowed frames are decoded as what the frames mean. -/
theorem Spells.decodes {minor : UInt32} {fs : List Frame} (h : Spells limit minor fs s.unread) (hs : s.Reliable) :
    ∃ d d', (Decode.openTrace limit).run (.ofSource s) = (.ok ⟨Format.majorVersion, minor⟩, d) ∧
      d.frames limit = (fs.map Frame.meaning, .endOfStream, d') := by
  obtain ⟨d, hopen, hp, hrest⟩ := Decode.run_openTrace_written limit (d := .ofSource s) hs h.bytes_eq
  obtain ⟨d', hframes, -⟩ := Decoder.frames_of_written h.wellFormed hp.reliable hrest
  exact ⟨d, d', hopen, hframes⟩

/-- Bytes that are decoded up to the clean end are those of allowed frames. -/
theorem spells_of_decodes (hs : s.Reliable) {h : TraceHeader} {ps : List NodeTrace.Frame} {d d' : Decoder}
    (hopen : (Decode.openTrace limit).run (.ofSource s) = (.ok h, d))
    (hframes : d.frames limit = (ps, .endOfStream, d')) :
    h.major = Format.majorVersion ∧ ∃ fs, Spells limit h.minor fs s.unread ∧ ps = fs.map Frame.meaning := by
  obtain ⟨w, hread, hp⟩ := Decode.reads_of_run (Decode.regular_openTrace limit) hs hopen (Decode.judged_ok h)
  obtain ⟨hmajor, rfl⟩ := Decode.reads_openTrace_iff.1 hread
  obtain ⟨fs, hfs, hrest, hps⟩ := Decoder.written_of_frames hp.reliable hframes
  have hu : s.unread = header h.minor ++ d.source.unread := hp.unread
  rw [hrest] at hu
  exact ⟨hmajor, fs, ⟨hfs, hu⟩, hps⟩

end Written

/-! ## Acceptance -/

/-- A trace is decoded up to its clean end exactly if the grammar allows it, and then as what it means: a header
with the magic words and the major version, and frames.  In a scope run the last simulation element and the last
node element count, and any other element marks the scope. -/
theorem decodes_iff_written {s : Source} (hs : s.Reliable) (limit : Nat) (h : TraceHeader) (ps : List Frame) :
    ((∃ d d', (Decode.openTrace limit).run (.ofSource s) = (.ok h, d) ∧
        d.frames limit = (ps, .endOfStream, d')) ↔
      h.major = Format.majorVersion ∧ ∃ fs : List Written.Frame, (∀ f ∈ fs, f.WellFormed limit) ∧
        s.unread = Written.header h.minor ++ fs.flatMap Written.Frame.bytes ∧
        ps = fs.map Written.Frame.meaning) ∧
    ∀ run : List Written.Element,
      (Written.scope run).simulation? =
        (run.filter (·.tag.toNat = 1)).getLast?.map (fun e => Written.word64 e.payload 0) ∧
      (Written.scope run).node? = (run.filter (·.tag.toNat = 2)).getLast?.map
        (fun e => (Written.word16 e.payload 16, Written.nodeTime e.payload 0)) ∧
      ((Written.scope run).kinds.unknown = true ↔ ∃ e ∈ run, e.tag.toNat ≠ 1 ∧ e.tag.toNat ≠ 2) := by
  refine ⟨⟨?_, ?_⟩, fun run => ⟨Written.scope_simulation run, Written.scope_node run,
    Written.scope_unknown run⟩⟩
  · rintro ⟨d, d', hopen, hframes⟩
    obtain ⟨w, hread, hp⟩ :=
      Decode.reads_of_run (Decode.regular_openTrace limit) hs hopen (Decode.judged_ok h)
    obtain ⟨hmajor, rfl⟩ := Decode.reads_openTrace_iff.1 hread
    obtain ⟨fs, hfs, hrest, hps⟩ := Decoder.written_of_frames hp.reliable hframes
    have hu : s.unread = Written.header h.minor ++ d.source.unread := hp.unread
    rw [hrest] at hu
    exact ⟨hmajor, fs, hfs, hu, hps⟩
  · rintro ⟨hmajor, fs, hfs, hu, rfl⟩
    have hread : Decode.Reads (Decode.openTrace limit) (Written.header h.minor) (.ok h) :=
      Decode.reads_openTrace_iff.2 ⟨hmajor, rfl⟩
    obtain ⟨d, hopen, hp, hrest⟩ := hread.run (d := .ofSource s) hs hu
    obtain ⟨d', hframes, -⟩ := Decoder.frames_of_written hfs hp.reliable hrest
    exact ⟨d, d', hopen, hframes⟩

/-- A trace with a wide length field that says 2, a separator whose last bit is set and an event with tag 0. -/
def unusual : Source where
  unread := [0x63, 0x74, 0x6b, 0x74, 0x72, 0x61, 0x63, 0x65, 0, 0, 0, 1, 0, 0, 0, 7,
    0, 19, 0, 0, 0, 2, 5, 5, 0, 2, 8, 0, 0, 0, 0, 0, 0, 1, 0, 0, 1, 0, 4, 6, 0, 1, 0, 2, 0, 3, 0, 0, 0, 1]
  chunk := some 3
  interrupts := [2, 17]

def unusualFrames : List Written.Frame :=
  [⟨[⟨9, true, [5, 5]⟩, ⟨1, false, [0, 0, 0, 0, 0, 0, 1, 0]⟩], true, ⟨2, false, [0, 1, 0, 2, 0, 3]⟩⟩,
    ⟨[], false, ⟨0, true, []⟩⟩]

theorem unusualFrames_wellFormed : ∀ f ∈ unusualFrames, f.WellFormed 0 := by
  refine List.forall_mem_cons.2 ⟨⟨?_, ⟨by decide, by decide⟩, rfl⟩, List.forall_mem_singleton.2 ?_⟩
  · exact List.forall_mem_cons.2 ⟨⟨⟨by decide, by decide⟩, trivial⟩,
      List.forall_mem_singleton.2 ⟨⟨by decide, by decide⟩, rfl⟩⟩
  · exact ⟨List.forall_mem_nil _, ⟨by decide, by decide⟩, trivial⟩

theorem decodes_unusual : unusual.Reliable ∧
    ∃ d d', (Decode.openTrace 0).run (.ofSource unusual) = (.ok ⟨1, 7⟩, d) ∧
      d.frames 0 = ([⟨⟨⟨true, true, false⟩, 256, 0, {}⟩, .monitorState ⟨1, 2, 3⟩⟩, ⟨{}, .unknown 0 0⟩],
        .endOfStream, d') := by
  have hs : unusual.Reliable := ⟨nofun, rfl⟩
  exact ⟨hs, (decodes_iff_written hs 0 ⟨1, 7⟩ _).1.2 ⟨rfl, unusualFrames, unusualFrames_wellFormed, rfl, rfl⟩⟩

end NodeTrace
