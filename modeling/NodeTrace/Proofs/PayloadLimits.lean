import NodeTrace.Proofs.Schedules

/-!
# A limit on attached data only cuts a trace off

Decoding looks at the limit in one place: when the size of attached data is known, and before the data is read.  So a
step answers under two limits alike unless it finds data beyond the smaller one (`Decode.AgreesUpTo`), and a trace is
decoded alike under both up to there (`Decoder.frames_agree`).  Where a frame is refused for its size, its bytes announce
this size (`Written.Announces`, `Decode.reads_frame_tooLarge_iff`); so the limits that do not cut a trace off are those
that no announced size exceeds (`Source.decoded_stable_iff`).
-/

namespace NodeTrace

/-! ## Steps under two limits -/

namespace Decode

variable {α β : Type} {m m' : Nat}

/-- The step `y` does what the step `x` does, unless `x` finds attached data beyond the limit `m`. -/
def AgreesUpTo (m : Nat) (x y : Decode α) : Prop :=
  ∀ d, y.run d = x.run d ∨ ∃ size d', m < size ∧ x.run d = (.error (.payloadTooLarge size m), d')

theorem AgreesUpTo.refl (m : Nat) (x : Decode α) : AgreesUpTo m x x := fun _ => .inl rfl

theorem AgreesUpTo.bind {x y : Decode α} {f g : α → Decode β} (hx : AgreesUpTo m x y)
    (hf : ∀ a, AgreesUpTo m (f a) (g a)) : AgreesUpTo m (x >>= f) (y >>= g) := by
  intro d
  rw [run_bind, run_bind]
  rcases hx d with hsame | ⟨size, d', hlarge, hx⟩
  · rw [hsame]
    obtain ⟨r, d', hrun⟩ := exists_run x d
    rw [hrun]
    cases r with
    | error e => exact .inl rfl
    | ok a => exact hf a d'
  · rw [hx]
    exact .inr ⟨size, d', hlarge, rfl⟩

theorem AgreesUpTo.inside {x y : Decode α} (hx : AgreesUpTo m x y) : AgreesUpTo m x.inside y.inside := by
  intro d
  rw [run_inside, run_inside]
  rcases hx d with hsame | ⟨size, d', hlarge, hx⟩
  · exact .inl (by rw [hsame])
  · exact .inr ⟨size, d', hlarge, by rw [hx]; rfl⟩

theorem agree_requireWithin (h : m ≤ m') (size : Nat) : AgreesUpTo m (requireWithin m size) (requireWithin m' size) := by
  intro d
  unfold requireWithin
  by_cases hsize : size ≤ m
  · rw [if_pos hsize, if_pos (Nat.le_trans hsize h)]
    exact .inl rfl
  · rw [if_neg hsize]
    exact .inr ⟨size, d, Nat.lt_of_not_le hsize, rfl⟩

theorem agree_eventBody (h : m ≤ m') (header : ElementHeader) :
    AgreesUpTo m (eventBody m header) (eventBody m' header) := by
  unfold eventBody
  cases Format.kindOfTag header.tag with
  | monitorData =>
    exact (AgreesUpTo.refl m _).bind fun _ => (AgreesUpTo.refl m _).bind fun _ => (AgreesUpTo.refl m _).bind fun _ =>
      (agree_requireWithin h _).bind fun _ => .refl m _
  | _ => exact .refl m _

theorem agree_frame (h : m ≤ m') : AgreesUpTo m (frame m) (frame m') :=
  (AgreesUpTo.refl m scope).bind fun _ =>
    ((AgreesUpTo.refl m elementHeader).bind (agree_eventBody h)).inside.bind fun _ => .refl m _

end Decode

/-- Under a larger limit the same frames are decoded up to the same error, or the smaller limit cuts the trace off. -/
theorem Decoder.frames_agree {m m' : Nat} (h : m ≤ m') (d : Decoder) :
    d.frames m' = d.frames m ∨
      (d.frames m).1 <+: (d.frames m').1 ∧ ∃ size, (d.frames m).2.1 = .payloadTooLarge size m ∧ m < size := by
  fun_induction Decoder.frames m d with
  | case1 d e d₁ he =>
    rcases Decode.agree_frame h d with hsame | ⟨size, d', hlarge, hrun⟩
    · rw [Decode.run_eq_error.2 he] at hsame
      exact .inl (frames_of_error hsame)
    · cases (Decode.run_eq_error.2 he).symm.trans hrun
      exact .inr ⟨List.nil_prefix, size, rfl, hlarge⟩
  | case2 d f d₁ hf ih =>
    have hrun : (Decode.frame m').run d = (.ok f, d₁) := by
      rcases Decode.agree_frame h d with hsame | ⟨size, d', -, hrun⟩
      · exact hsame.trans (Decode.run_eq_ok.2 hf)
      · cases (Decode.run_eq_ok.2 hf).symm.trans hrun
    rw [frames_of_ok hrun]
    rcases ih with hsame | ⟨hfront, hcut⟩
    · rw [hsame]
      exact .inl rfl
    · exact .inr ⟨List.cons_prefix_cons.2 ⟨rfl, hfront⟩, hcut⟩

/-! ## Announced sizes -/

namespace Written

/-- The bytes of a frame up to the ids of attached data of which `size` bytes are declared behind them. -/
inductive Announces (size : Nat) : List UInt8 → Prop where
  | intro {run : List Element} {closing wide : Bool} {ids : List UInt8} (hrun : ∀ e ∈ run, e.Fits ∧ e.InScope)
      (hhead : HeadFits Format.monitorDataTag wide (size + 4)) (hids : ids.length = 4) :
      Announces size (run.flatMap Element.bytes ++ separator closing ++
        (head Format.monitorDataTag wide (size + 4) ++ ids))

variable {limit : Nat}

/-- What one limit allows another one does, unless it is attached data beyond it. -/
theorem EventAllows.or_tooLarge {tag : UInt16} {n : Nat} (h : EventAllows limit tag n) (limit' : Nat) :
    EventAllows limit' tag n ∨ tag = Format.monitorDataTag ∧ 4 ≤ n ∧ limit' < n - 4 := by
  unfold EventAllows at h ⊢
  split at h
  case h_3 htag =>
    by_cases hmax : n - 4 ≤ limit'
    · exact .inl ⟨h.1, hmax⟩
    · exact .inr ⟨UInt16.toNat_inj.1 htag, h.1, Nat.lt_of_not_le hmax⟩
  all_goals exact .inl h

/-- Allowed attached data is within the limit. -/
theorem Element.InEvent.payload_le {e : Element} {a : Attachment} (h : e.InEvent limit)
    (he : e.event = .monitorData a) : a.payload.length ≤ limit := by
  unfold InEvent EventAllows at h
  unfold event at he
  split at he
  case h_3 htag =>
    cases he
    rw [htag] at h
    rw [List.length_drop]
    exact h.2
  all_goals cases he

/-- A frame that is allowed under one limit is allowed under another one, or announces a size beyond it. -/
theorem Frame.WellFormed.or_announces {f : Frame} (hf : f.WellFormed limit) (limit' : Nat) :
    f.WellFormed limit' ∨ ∃ size w v, limit' < size ∧ Announces size w ∧ f.bytes = w ++ v := by
  rcases EventAllows.or_tooLarge hf.event_allowed limit' with hin | ⟨htag, hmin, hmax⟩
  · exact .inl ⟨hf.scopes, hf.event_fits, hin⟩
  · have hn : f.event.payload.length - 4 + 4 = f.event.payload.length := Nat.sub_add_cancel hmin
    have hids : (f.event.payload.take 4).length = 4 := List.length_take_of_le hmin
    have hhead : HeadFits Format.monitorDataTag f.event.wide (f.event.payload.length - 4 + 4) := by
      rw [hn, ← htag]
      exact hf.event_fits
    refine .inr ⟨_, _, f.event.payload.drop 4, hmax,
      @Announces.intro _ f.scopes f.closing f.event.wide _ hf.scopes hhead hids, ?_⟩
    rw [hn, ← htag, Frame.bytes, Element.bytes]
    simp only [List.append_assoc, List.take_append_drop]

end Written

namespace Decode

variable {m limit size : Nat} {w : List UInt8}

/-- A scope run is refused for the length of one of its elements. -/
theorem scopeRun_of_reads_error {first : Bool} {scope : Scope} {e : DecodeError}
    (h : Reads (scopeRun first scope) w (.error e)) :
    ∃ element expected found, e = .inconsistentLength element expected found := by
  induction hn : w.length using Nat.strongRecOn generalizing w first scope with
  | ind n ih =>
    rw [scopeRun_eq] at h
    rcases h.bind_inv (regular_nextHeader first) (regular_behindHeader scope) with
      ⟨e', -, he⟩ | ⟨header, u, v, rfl, hu, hv⟩
    · obtain ⟨tag, wide, k, -, -, hr⟩ := reads_nextHeader_iff.1 he
      cases hr
    · obtain ⟨tag, wide, k, -, rfl, hr⟩ := reads_nextHeader_iff.1 hu
      cases hr
      by_cases h0 : tag = 0
      · rw [behindHeader_separator scope h0] at hv
        cases ((fixed_pure scope).reads_iff.1 hv).2
      · rw [behindHeader_element scope h0] at hv
        rcases hv.bind_inv (regular_scopeElement h0 scope).inside (regular_scopeRun false) with
          ⟨e', hr, he⟩ | ⟨next, u, v, rfl, -, hv⟩
        · cases hr
          rw [reads_inside_iff (regular_scopeElement h0 scope)] at he
          by_cases hh : Written.ScopeAllows tag (UInt32.ofNat k).toNat
          · cases ((fixed_scopeElement (h := ⟨tag, UInt32.ofNat k⟩) hh false scope).reads_iff.1 he).2
          · obtain ⟨element, expected, hrefused⟩ := scopeElement_refuses (h := ⟨tag, UInt32.ofNat k⟩) h0 hh scope
            cases (hrefused.reads_iff.1 he).2
            exact ⟨element, expected, _, rfl⟩
        · refine ih v.length ?_ hv rfl
          rw [← hn, Written.head]
          simp only [List.length_append, BigEndian.length_ofNat]
          omega

/-- An event element is refused for its size exactly if it is attached data beyond the limit. -/
theorem reads_event_tooLarge_iff :
    Reads (event m) w (.error (.payloadTooLarge size limit)) ↔ limit = m ∧ m < size ∧ ∃ wide ids,
      Written.HeadFits Format.monitorDataTag wide (size + 4) ∧ ids.length = 4 ∧
        w = Written.head Format.monitorDataTag wide (size + 4) ++ ids := by
  rw [reads_event_body_iff]
  constructor
  · rintro ⟨tag, wide, n, v, hfit, rfl, hv⟩
    have hlen := toNat_length hfit
    by_cases hh : Written.EventAllows m tag (UInt32.ofNat n).toNat
    · cases ((fixed_eventBody (h := ⟨tag, UInt32.ofNat n⟩) hh wide).reads_iff.1 hv).2
    · rcases eventBody_refused (h := ⟨tag, UInt32.ofNat n⟩) hh with ⟨element, expected, he⟩ | ⟨htag, hmin, hmax, he⟩
      · cases (he.reads_iff.1 hv).2
      · obtain ⟨hids, hr⟩ := he.reads_iff.1 hv
        dsimp only at htag hmin hmax hr
        rw [hlen] at hmin hmax hr
        cases hr
        subst htag
        rw [Nat.sub_add_cancel hmin]
        exact ⟨rfl, hmax, wide, v, hfit, hids, rfl⟩
  · rintro ⟨rfl, hlarge, wide, ids, hhead, hids, rfl⟩
    refine ⟨Format.monitorDataTag, wide, size + 4, ids, hhead, rfl, ?_⟩
    have hlen := toNat_length hhead
    have hrefused : Fixed 4 (eventBody limit ⟨Format.monitorDataTag, UInt32.ofNat (size + 4)⟩) _ :=
      attachment_tooLarge (by omega) (by omega)
    rw [hlen] at hrefused
    exact hrefused ids hids

/-- A frame is refused for its size exactly behind bytes that announce one beyond the limit. -/
theorem reads_frame_tooLarge_iff :
    Reads (frame m) w (.error (.payloadTooLarge size limit)) ↔ limit = m ∧ m < size ∧ Written.Announces size w := by
  constructor
  · intro h
    rw [frame_eq] at h
    rcases h.bind_inv (regular_scopeRun true {}) (regular_behindScope m) with ⟨e, he, hrun⟩ | ⟨scope, u, v, rfl, hu, hv⟩
    · cases he
      obtain ⟨element, expected, found, he⟩ := scopeRun_of_reads_error hrun
      cases he
    · rcases hv.bind_inv (regular_event m) (fun ev => (fixed_pure _).regular) with ⟨e, he, hv⟩ | ⟨ev, v, t, rfl, -, ht⟩
      · cases he
        obtain ⟨run, closing, hrun, rfl, -⟩ := reads_scopeRun_iff.1 hu
        obtain ⟨rfl, hlarge, wide, ids, hhead, hids, rfl⟩ := reads_event_tooLarge_iff.1 hv
        exact ⟨rfl, hlarge, .intro hrun hhead hids⟩
      · cases ((fixed_pure _).reads_iff.1 ht).2
  · rintro ⟨rfl, hlarge, ⟨hrun, hhead, hids⟩⟩
    exact reads_frame_refused hrun _ (reads_event_tooLarge_iff.2 ⟨rfl, hlarge, _, _, hhead, hids, rfl⟩)

end Decode

/-! ## Frames up to an announced size -/

/-- No call for a frame returns attached data beyond the limit. -/
theorem Decode.payload_le_of_run {m : Nat} {d d' : Decoder} {f : Frame} {a : Attachment}
    (hrun : (frame m).run d = (.ok f, d')) (hf : f.event = .monitorData a) : a.payload.length ≤ m := by
  obtain ⟨w, hread, -⟩ := (regular_frame m).reads_of_ok (flows_of_frame (run_eq_ok.1 hrun)) hrun
  obtain ⟨u, hu, -, rfl⟩ := reads_frame_iff.1 hread
  exact hu.event_allowed.payload_le hf

namespace Decoder

variable {m limit size : Nat} {d : Decoder}

/-- Frames end with a size that is refused only where this size is announced behind them. -/
theorem announced_of_frames (hd : d.source.Reliable) (h : (d.frames m).2.1 = .payloadTooLarge size limit) :
    limit = m ∧ m < size ∧ ∃ (fs : List Written.Frame) (w rest : List UInt8), (∀ f ∈ fs, f.WellFormed m) ∧
      (d.frames m).1 = fs.map Written.Frame.meaning ∧ Written.Announces size w ∧
      d.source.unread = fs.flatMap Written.Frame.bytes ++ (w ++ rest) := by
  fun_induction Decoder.frames m d with
  | case1 d e d₁ he =>
    subst h
    have hjudged : Decode.Judged (.error (.payloadTooLarge size limit) : Except DecodeError Frame) :=
      ⟨(fun h => by cases h), (fun h => by cases h)⟩
    obtain ⟨w, hread, hw⟩ :=
      Decode.reads_of_run (Decode.regular_frame m) hd (Decode.run_eq_error.2 he) hjudged
    obtain ⟨rfl, hlarge, hannounced⟩ := Decode.reads_frame_tooLarge_iff.1 hread
    exact ⟨rfl, hlarge, [], w, d₁.source.unread, List.forall_mem_nil _, rfl, hannounced, hw.unread⟩
  | case2 d f d₁ hf ih =>
    obtain ⟨w, hread, hw⟩ :=
      Decode.reads_of_run (Decode.regular_frame m) hd (Decode.run_eq_ok.2 hf) (Decode.judged_ok f)
    obtain ⟨u, hu, rfl, rfl⟩ := Decode.reads_frame_iff.1 hread
    obtain ⟨hlimit, hlarge, fs, v, rest, hfs, hmeaning, hannounced, hrest⟩ := ih hw.reliable h
    refine ⟨hlimit, hlarge, u :: fs, v, rest, List.forall_mem_cons.2 ⟨hu, hfs⟩, ?_, hannounced, ?_⟩
    · exact congrArg (u.meaning :: ·) hmeaning
    · rw [hw.unread, hrest, List.flatMap_cons, List.append_assoc]

/-- Frames end with a size that is refused at the latest where one beyond the limit is announced. -/
theorem tooLarge_of_announced {fs : List Written.Frame} {w rest : List UInt8} (hd : d.source.Reliable)
    (hfs : ∀ f ∈ fs, ∃ limit, f.WellFormed limit) (hw : Written.Announces size w) (hlarge : m < size)
    (hu : d.source.unread = fs.flatMap Written.Frame.bytes ++ (w ++ rest)) :
    ∃ size', (d.frames m).2.1 = .payloadTooLarge size' m := by
  have hrefused {size : Nat} {w rest : List UInt8} {d : Decoder} (hd : d.source.Reliable) (hlarge : m < size)
      (hw : Written.Announces size w) (hu : d.source.unread = w ++ rest) :
      ∃ size', (d.frames m).2.1 = .payloadTooLarge size' m := by
    obtain ⟨d', hrun, -⟩ := (Decode.reads_frame_tooLarge_iff.2 ⟨rfl, hlarge, hw⟩).run hd hu
    exact ⟨size, by rw [frames_of_error hrun]⟩
  induction fs generalizing d with
  | nil => exact hrefused hd hlarge hw hu
  | cons f fs ih =>
    obtain ⟨⟨limit, hf⟩, hfs⟩ := List.forall_mem_cons.1 hfs
    rw [List.flatMap_cons, List.append_assoc] at hu
    rcases hf.or_announces m with hf | ⟨size', u, v, hlarge', hannounced, hbytes⟩
    · obtain ⟨d', hrun, hp, hrest⟩ := (Decode.reads_frame hf).run hd hu
      rw [frames_of_ok hrun]
      exact ih hp.reliable hfs hrest
    · rw [hbytes, List.append_assoc] at hu
      exact hrefused hd hlarge' hannounced hu

end Decoder

/-! ## Traces -/

/-- What decoding a trace comes to: its header, the frames in front of its end or first error, and which of these it
is. -/
structure Decoded where
  header : TraceHeader
  frames : List Frame
  ending : DecodeError

/-- What a trace comes to under a limit, or the error that keeps it from being opened. -/
def Source.decoded (limit : Nat) (s : Source) : Except DecodeError Decoded :=
  match Decode.openTrace limit (.ofSource s) with
  | .error e _ => .error e
  | .ok h d => .ok ⟨h, (d.frames limit).1, (d.frames limit).2.1⟩

/-- Behind a header and the frames `fs`, whose own attached data may have any size, `size` bytes of attached data are
announced. -/
structure Written.Declares (minor : UInt32) (fs : List Frame) (size : Nat) (bytes : List UInt8) : Prop where
  wellFormed : ∀ f ∈ fs, ∃ limit, f.WellFormed limit
  announced : ∃ w rest, Announces size w ∧ bytes = header minor ++ (fs.flatMap Frame.bytes ++ (w ++ rest))

/-- Of a trace with these bytes, the limit `m` leaves `t` where a larger one leaves `t'`: it ends behind fewer frames, at
a size beyond it that is announced there. -/
structure Decoded.CutOff (m : Nat) (bytes : List UInt8) (t t' : Decoded) : Prop where
  header : t'.header = t.header
  frames : t.frames <+: t'.frames
  announced : ∃ fs size, (∀ f ∈ fs, f.WellFormed m) ∧ t.frames = fs.map Written.Frame.meaning ∧
    Written.Declares t.header.minor fs size bytes ∧ m < size ∧ t.ending = .payloadTooLarge size m

/-- The record of an accepted header does not count. -/
theorem Decode.run_recorded (limit : Nat) (h : TraceHeader) {d : Decoder} (hd : d.source.Flows) :
    ∃ d', (recorded limit h).run d = (.ok h, d') ∧ d.Alike d' := by
  obtain ⟨d', hrun, hadv, hoffset⟩ := (fixed_recorded limit h [] rfl).whole d.source.ahead d.source.close d hd rfl rfl
  exact ⟨d', hrun, Source.SameBytes.advanced ⟨rfl, rfl, rfl⟩ (.refl d.source) hadv, hd, hadv.flows hd, hoffset⟩

namespace Source

variable {m m' limit : Nat} {s : Source}

theorem decoded_of_open {h : TraceHeader} {d : Decoder} (hopen : (Decode.openTrace m).run (.ofSource s) = (.ok h, d)) :
    s.decoded m = .ok ⟨h, (d.frames m).1, (d.frames m).2.1⟩ := by
  unfold decoded
  rw [Decode.run_eq_ok.1 hopen]

/-- Whether a trace opens does not depend on the limit. -/
theorem decoded_cases (hs : s.Reliable) : (∃ e, ∀ limit, s.decoded limit = .error e) ∨
    ∃ (h : TraceHeader) (d : Decoder), d.source.Reliable ∧ s.unread = Written.header h.minor ++ d.source.unread ∧
      ∀ limit, s.decoded limit = .ok ⟨h, (d.frames limit).1, (d.frames limit).2.1⟩ := by
  obtain ⟨r, d, hrun⟩ := Decode.exists_run Decode.header (.ofSource s)
  cases r with
  | error e =>
    refine .inl ⟨e, fun limit => ?_⟩
    have hopen : (Decode.openTrace limit).run (.ofSource s) = (.error e, d) := by
      rw [Decode.openTrace_eq, Decode.run_bind, hrun]
    unfold decoded
    rw [Decode.run_eq_error.1 hopen]
  | ok h =>
    obtain ⟨w, hread, hw⟩ := Decode.reads_of_run Decode.fixed_header.regular hs hrun (Decode.judged_ok h)
    have hheader := hread.bind (Decode.fixed_recorded 0 h [] rfl)
    rw [← Decode.openTrace_eq, List.append_nil] at hheader
    obtain ⟨-, rfl⟩ := Decode.reads_openTrace_iff.1 hheader
    refine .inr ⟨h, d, hw.reliable, hw.unread, fun limit => ?_⟩
    obtain ⟨d', hrecorded, halike⟩ := Decode.run_recorded limit h hw.reliable.flows
    have hopen : (Decode.openTrace limit).run (.ofSource s) = (.ok h, d') := by
      rw [Decode.openTrace_eq, Decode.run_bind, hrun]
      exact hrecorded
    obtain ⟨hframes, hending⟩ := halike.frames limit
    rw [decoded_of_open hopen, hframes, hending]

/-- Under a larger limit a trace is decoded alike, or the smaller limit cuts it off where a size beyond it is
announced. -/
theorem decoded_agree (hs : s.Reliable) (h : m ≤ m') : s.decoded m' = s.decoded m ∨
    ∃ t t', s.decoded m = .ok t ∧ s.decoded m' = .ok t' ∧ t.CutOff m s.unread t' := by
  rcases decoded_cases hs with ⟨e, herror⟩ | ⟨header, d, hd, hu, hall⟩
  · exact .inl ((herror m').trans (herror m).symm)
  · rw [hall, hall]
    rcases d.frames_agree h with hsame | ⟨hfront, size, hending, hlarge⟩
    · exact .inl (by rw [hsame])
    · obtain ⟨-, -, fs, w, rest, hfs, hmeaning, hw, hrest⟩ := Decoder.announced_of_frames hd hending
      exact .inr ⟨_, _, rfl, rfl, rfl, hfront, fs, size, hfs, hmeaning,
        ⟨fun f hf => ⟨m, hfs f hf⟩, w, rest, hw, by rw [hu, hrest]⟩, hlarge, hending⟩

/-- A trace cannot end with the refusal of a size under another limit. -/
theorem limit_of_decoded (hs : s.Reliable) {t : Decoded} {size : Nat} (h : s.decoded m = .ok t)
    (hending : t.ending = .payloadTooLarge size limit) : limit = m := by
  rcases decoded_cases hs with ⟨e, herror⟩ | ⟨header, d, hd, -, hall⟩
  · cases (herror m).symm.trans h
  · cases (hall m).symm.trans h
    exact (Decoder.announced_of_frames hd hending).1

/-- Where a size beyond the limit is announced, a trace ends with a size that is refused, there or before. -/
theorem decoded_of_declares (hs : s.Reliable) {minor : UInt32} {fs : List Written.Frame} {size : Nat}
    (h : Written.Declares minor fs size s.unread) (hlarge : m < size) :
    ∃ t size', s.decoded m = .ok t ∧ t.ending = .payloadTooLarge size' m := by
  obtain ⟨w, rest, hw, hbytes⟩ := h.announced
  obtain ⟨d, hopen, hp, hrest⟩ := Decode.run_openTrace_written m (d := .ofSource s) hs hbytes
  obtain ⟨size', hending⟩ := Decoder.tooLarge_of_announced hp.reliable h.wellFormed hw hlarge hrest
  exact ⟨_, size', decoded_of_open hopen, hending⟩

/-- A limit does not cut a trace off exactly if no size beyond it is announced. -/
theorem decoded_stable_iff (hs : s.Reliable) (m : Nat) : (∀ limit, m ≤ limit → s.decoded limit = s.decoded m) ↔
    ∀ minor fs size, Written.Declares minor fs size s.unread → size ≤ m := by
  constructor
  · intro hstable minor fs size hdeclares
    by_contra hlarge
    obtain ⟨t, size', ht, hending⟩ := decoded_of_declares hs hdeclares (Nat.lt_of_not_le hlarge)
    -- the refusal names the limit, so it is not the same under the next one
    have hnext := limit_of_decoded hs ((hstable (m + 1) (Nat.le_succ m)).trans ht) hending
    omega
  · intro hsmall limit hlimit
    rcases decoded_agree hs hlimit with hsame | ⟨t, t', -, -, hcut⟩
    · exact hsame
    · obtain ⟨fs, size, -, -, hdeclares, hlarge, -⟩ := hcut.announced
      exact absurd (hsmall _ _ _ hdeclares) (Nat.not_le_of_lt hlarge)

theorem decoded_of_spells (hs : s.Reliable) {minor : UInt32} {fs : List Written.Frame}
    (h : Written.Spells m minor fs s.unread) :
    s.decoded m = .ok ⟨⟨Format.majorVersion, minor⟩, fs.map Written.Frame.meaning, .endOfStream⟩ := by
  obtain ⟨d, d', hopen, hframes⟩ := h.decodes hs
  rw [decoded_of_open hopen, hframes]

end Source

theorem Written.EventAllows.mono {m m' : Nat} (h : m ≤ m') {tag : UInt16} {n : Nat} (hn : EventAllows m tag n) :
    EventAllows m' tag n := by
  rcases hn.or_tooLarge m' with hn' | ⟨rfl, -, hlarge⟩
  · exact hn'
  · have hmax : n - 4 ≤ m := hn.2
    omega

theorem Written.Spells.mono {m m' : Nat} (h : m ≤ m') {minor : UInt32} {fs : List Frame} {bytes : List UInt8}
    (hfs : Spells m minor fs bytes) : Spells m' minor fs bytes where
  wellFormed f hf :=
    have hallowed := hfs.wellFormed f hf
    ⟨hallowed.scopes, hallowed.event_fits, hallowed.event_allowed.mono h⟩
  bytes_eq := hfs.bytes_eq

/-- A limit on attached data only cuts a trace off.  Under a larger limit a trace comes to the same, or the smaller one
ends it behind fewer frames, where a size beyond it is announced; no attached data that is returned is beyond the limit;
a limit comes to the same as all larger ones exactly if no size beyond it is announced, and in particular if the trace is
allowed under it. -/
theorem limit_only_cuts {s : Source} (hs : s.Reliable) {m m' : Nat} (h : m ≤ m') :
    (s.decoded m' = s.decoded m ∨
      ∃ t t', s.decoded m = .ok t ∧ s.decoded m' = .ok t' ∧ t.CutOff m s.unread t') ∧
    (∀ d d' f a, (Decode.frame m).run d = (.ok f, d') → f.event = .monitorData a → a.payload.length ≤ m) ∧
    ((∀ limit, m ≤ limit → s.decoded limit = s.decoded m) ↔
      ∀ minor fs size, Written.Declares minor fs size s.unread → size ≤ m) ∧
    ∀ minor fs, Written.Spells m minor fs s.unread → ∀ limit, m ≤ limit →
      s.decoded limit = .ok ⟨⟨Format.majorVersion, minor⟩, fs.map Written.Frame.meaning, .endOfStream⟩ :=
  ⟨Source.decoded_agree hs h, fun _ _ _ _ hrun hf => Decode.payload_le_of_run hrun hf, Source.decoded_stable_iff hs m,
    fun _ _ hspells _ hlimit => Source.decoded_of_spells hs (hspells.mono hlimit)⟩

/-- A trace with three bytes of attached data in one frame and five in the next. -/
def attaching : Source where
  unread := Written.header 0 ++ [0, 0, 0, 6, 7, 0, 1, 0, 2, 7, 8, 9, 0, 0, 0, 6, 9, 0, 1, 0, 3, 1, 2, 3, 4, 5]
  chunk := some 7
  interrupts := [18]

def attachingFrames : List Written.Frame :=
  [⟨[], false, ⟨3, false, [0, 1, 0, 2, 7, 8, 9]⟩⟩, ⟨[], false, ⟨3, false, [0, 1, 0, 3, 1, 2, 3, 4, 5]⟩⟩]

theorem limit_only_cuts_attaching : attaching.Reliable ∧ 3 ≤ 5 ∧ (∃ limit, 3 ≤ limit ∧
      attaching.decoded limit ≠ attaching.decoded 3) ∧
    attaching.decoded 8 = .ok ⟨⟨1, 0⟩, [⟨{}, .monitorData ⟨1, 2, [7, 8, 9]⟩⟩, ⟨{}, .monitorData ⟨1, 3, [1, 2, 3, 4, 5]⟩⟩],
      .endOfStream⟩ := by
  have hs : attaching.Reliable := ⟨nofun, rfl⟩
  have hspells : Written.Spells 5 0 attachingFrames attaching.unread := by
    refine ⟨List.forall_mem_cons.2 ⟨⟨List.forall_mem_nil _, ⟨by decide, by decide⟩, by decide, by decide⟩,
      List.forall_mem_singleton.2 ⟨List.forall_mem_nil _, ⟨by decide, by decide⟩, by decide, by decide⟩⟩, rfl⟩
  have hdeclares : Written.Declares 0 (attachingFrames.take 1) 5 attaching.unread :=
    ⟨fun f hf => ⟨5, hspells.wellFormed f (List.mem_of_mem_take hf)⟩, _, [1, 2, 3, 4, 5],
      @Written.Announces.intro 5 [] false false [0, 1, 0, 3] (List.forall_mem_nil _) ⟨by decide, by decide⟩ rfl, rfl⟩
  obtain ⟨-, -, hstable, -⟩ := limit_only_cuts hs (show 3 ≤ 5 by decide)
  obtain ⟨-, -, -, hallowed⟩ := limit_only_cuts hs (show 5 ≤ 8 by decide)
  have hcut : ¬∀ limit, 3 ≤ limit → attaching.decoded limit = attaching.decoded 3 := fun hall =>
    absurd (hstable.1 hall 0 _ 5 hdeclares) (by decide)
  simp only [not_forall, exists_prop] at hcut
  exact ⟨hs, by decide, hcut, hallowed 0 attachingFrames hspells 8 (by decide)⟩

end NodeTrace
