import NodeTrace.Proofs.Traces

/-!
# Decoding does not depend on how bytes are delivered

Sources with the same bytes and the same failure may deliver them in pieces of other lengths, and with other
interruptions.  A regular step answers the same from all of them and leaves them alike (`Decode.Regular.run_alike`).
So whoever opens a trace and calls for frames sees the same from all of them, also in the calls after an error
(`replies_of_sameBytes`).
-/

namespace NodeTrace

/-! ## Sources that hold the same bytes -/

/-- The sources hold the same bytes and fail at the same place; how they deliver the bytes is left open. -/
structure Source.SameBytes (s s' : Source) : Prop where
  unread : s'.unread = s.unread
  position : s'.position = s.position
  failure : s'.failure = s.failure

namespace Source.SameBytes

variable {s s' t t' : Source} {n : Nat}

theorem ahead (h : s.SameBytes s') : s'.ahead = s.ahead := by
  unfold Source.ahead
  rw [h.failure, h.unread, h.position]

theorem close (h : s.SameBytes s') : s'.close = s.close := by
  unfold Source.close
  rw [h.failure, h.unread, h.position]

theorem trans (h : s.SameBytes s') (h' : s'.SameBytes t) : s.SameBytes t :=
  ⟨h'.unread.trans h.unread, h'.position.trans h.position, h'.failure.trans h.failure⟩

theorem advanced (h : s.SameBytes s') (ht : s.Advanced n t) (ht' : s'.Advanced n t') : t.SameBytes t' where
  unread := by rw [ht'.unread, ht.unread, h.unread]
  position := by rw [ht'.position, ht.position, h.position]
  failure := by rw [ht'.failure, ht.failure, h.failure]

end Source.SameBytes

/-- The decoders have the same bytes in front of them and have counted as many; their records may differ. -/
structure Decoder.Alike (d d' : Decoder) : Prop where
  source : d.source.SameBytes d'.source
  flows : d.source.Flows
  flows' : d'.source.Flows
  offset : d'.offset = d.offset

theorem Decoder.Alike.refl {d : Decoder} (hd : d.source.Flows) : d.Alike d := ⟨⟨rfl, rfl, rfl⟩, hd, hd, rfl⟩

/-! ## Steps -/

section Steps

variable {α : Type} {x : Decode α} {d d' d₁ : Decoder} {r : Except DecodeError α}

/-- Decoders that are alike answer a regular step alike, and are alike behind it. -/
theorem Decode.Regular.run_alike (hx : Regular x) (h : d.Alike d') (hr : x.run d = (r, d₁)) :
    ∃ d₁', x.run d' = (r, d₁') ∧ d₁.Alike d₁' := by
  obtain ⟨r₀, n, k, hanswers⟩ := hx.answers (s := d.source)
  obtain ⟨d₂, hrun, hadv, hoff⟩ := hanswers d h.flows rfl rfl
  obtain ⟨d₂', hrun', hadv', hoff'⟩ := hanswers d' h.flows' h.source.ahead h.source.close
  rw [hr] at hrun
  obtain ⟨rfl, rfl⟩ := Prod.mk.inj hrun
  refine ⟨d₂', hrun', h.source.advanced hadv hadv', hadv.flows h.flows, hadv'.flows h.flows', ?_⟩
  rw [hoff', hoff, h.offset]

theorem Decode.Regular.flows (hx : Regular x) (hd : d.source.Flows) (hr : x.run d = (r, d₁)) : d₁.source.Flows := by
  obtain ⟨_, -, h₁⟩ := hx.run_alike (Decoder.Alike.refl hd) hr
  exact h₁.flows

/-- What a regular step answers with success it has read of the unread bytes. -/
theorem Decode.Regular.reads_of_ok {a : α} (hx : Regular x) (hd : d.source.Flows) (h : x.run d = (.ok a, d₁)) :
    ∃ w, Reads x w (.ok a) ∧ d.source.unread = w ++ d₁.source.unread ∧ d₁.offset = d.offset + w.length := by
  rcases hx d.source.ahead with hshort | ⟨w, r, ⟨rest, hw⟩, hread⟩
  · rcases d.source.close_cases with hc | ⟨fault, hc⟩
    · obtain ⟨e, -, hanswers⟩ := hshort.atEnd
      obtain ⟨d₂, hrun, -⟩ := hanswers d hd rfl hc
      cases h.symm.trans hrun
    · obtain ⟨k, hanswers⟩ := hshort.atFailure fault
      obtain ⟨d₂, hrun, -⟩ := hanswers d hd rfl hc
      cases h.symm.trans hrun
  · obtain ⟨d₂, hrun, hadv, hoff⟩ := hread.whole rest _ d hd hw.symm rfl
    obtain ⟨rfl, rfl⟩ := Prod.mk.inj (h.symm.trans hrun)
    have hprefix : w <+: d.source.unread := List.IsPrefix.trans ⟨rest, hw⟩ d.source.ahead_prefix
    refine ⟨w, hread, ?_, hoff⟩
    rw [hadv.unread]
    exact (List.prefix_iff_eq_append.1 hprefix).symm

end Steps

/-- Decoders that are alike decode the same frames up to the same error. -/
theorem Decoder.Alike.frames {d d' : Decoder} (h : d.Alike d') (limit : Nat) :
    (d'.frames limit).1 = (d.frames limit).1 ∧ (d'.frames limit).2.1 = (d.frames limit).2.1 := by
  fun_induction Decoder.frames limit d generalizing d' with
  | case1 d e d₁ he =>
    obtain ⟨d₁', hrun, -⟩ := (Decode.regular_frame limit).run_alike h (Decode.run_eq_error.2 he)
    rw [Decoder.frames_of_error hrun]
    exact ⟨rfl, rfl⟩
  | case2 d f d₁ hf ih =>
    obtain ⟨d₁', hrun, h₁⟩ := (Decode.regular_frame limit).run_alike h (Decode.run_eq_ok.2 hf)
    obtain ⟨hframes, herror⟩ := ih h₁
    rw [Decoder.frames_of_ok hrun]
    exact ⟨congrArg (f :: ·) hframes, herror⟩

/-! ## Sources that bring nothing -/

section Stuck

variable {α β : Type}

/-- A read of at most no bytes brings none. -/
theorem Source.reach_of_not_flows {s : Source} (hs : ¬s.Flows) (want : Nat) : s.reach want = 0 := by
  have hchunk : s.chunk = some 0 := not_not.1 hs
  have hle : s.reach want ≤ min want (s.chunk.getD want) := foldl_min_le _ _ _
  rw [hchunk, Option.getD_some, Nat.min_zero] at hle
  exact Nat.le_zero.1 hle

theorem Source.not_bytes_cons_of_not_flows {s s' : Source} (hs : ¬s.Flows) {want : Nat} {b : UInt8} {piece : List UInt8} :
    s.read want ≠ (.bytes (b :: piece), s') := by
  intro h
  have hpiece := (bytes_of_read h).1
  rw [reach_of_not_flows hs, List.take_zero] at hpiece
  cases hpiece

theorem Source.ending_of_not_flows {s : Source} (hs : ¬s.Flows) {want : Nat} (hw : want ≠ 0) :
    (s.gather want).ending ≠ .complete := by
  fun_induction Source.gather s want with
  | case1 => exact absurd rfl hw
  | case2 s want _ s' hr ih => exact ih ((advanced_of_interrupted hr).not_flows hs) hw
  | case3 | case4 =>
    intro h
    cases h
  | case5 s want _ b piece s' hr => exact absurd hr (not_bytes_cons_of_not_flows hs)

/-- The step fails. -/
def Decode.Fails (x : Decode α) (d : Decoder) : Prop := ∃ e, (x.run d).1 = .error e

theorem Decode.Fails.bind {x : Decode α} {d : Decoder} (h : x.Fails d) (f : α → Decode β) : (x >>= f).Fails d := by
  obtain ⟨e, he⟩ := h
  obtain ⟨r, d', hrun⟩ := exists_run x d
  rw [hrun] at he
  subst he
  refine ⟨e, ?_⟩
  rw [run_bind, hrun]

theorem Decode.Fails.map {x : Decode α} {d : Decoder} (h : x.Fails d) (f : α → β) : (f <$> x).Fails d := by
  obtain ⟨e, he⟩ := h
  refine ⟨e, ?_⟩
  rw [run_map, he]
  rfl

theorem Decode.Fails.inside {x : Decode α} {d : Decoder} (h : x.Fails d) : x.inside.Fails d := by
  obtain ⟨e, he⟩ := h
  refine ⟨e.inside, ?_⟩
  rw [run_inside, he]
  rfl

theorem Decode.fails_take {d : Decoder} (hd : ¬d.source.Flows) {n : Nat} (hn : n ≠ 0) : (take n).Fails d := by
  have hending := Source.ending_of_not_flows hd hn
  unfold Fails run take
  dsimp only
  cases h : (d.source.gather n).ending with
  | complete => exact absurd h hending
  | exhausted => exact ⟨_, rfl⟩
  | failed fault => exact ⟨_, rfl⟩

/-- A frame comes from a source that brings something. -/
theorem Decode.flows_of_frame {limit : Nat} {d d' : Decoder} {f : Frame} (hf : frame limit d = .ok f d') :
    d.source.Flows := by
  by_contra hs
  have hcontrol : word16.Fails d := ((fails_take hs (by decide)).map BigEndian.toNat).map UInt16.ofNat
  obtain ⟨e, he⟩ : (frame limit).Fails d := by
    rw [frame_eq, scopeRun_eq]
    exact ((hcontrol.bind behindControl).bind _).bind _
  rw [run_eq_ok.2 hf] at he
  cases he

/-- A trace that opens comes from a source that brings something. -/
theorem Decode.flows_of_openTrace {limit : Nat} {s : Source} {h : TraceHeader} {d : Decoder}
    (hopen : openTrace limit (.ofSource s) = .ok h d) : s.Flows := by
  by_contra hs
  have hword : (word32.inside).Fails (.ofSource s) :=
    (((fails_take (d := .ofSource s) hs (by decide)).map BigEndian.toNat).map UInt32.ofNat).inside
  obtain ⟨e, he⟩ : (openTrace limit).Fails (.ofSource s) := by
    rw [openTrace_eq, header_eq]
    exact (hword.bind _).bind _
  rw [run_eq_ok.2 hopen] at he
  cases he

end Stuck

/-! ## Calls -/

/-- What the caller of a step sees: the answer, the offset behind it, and how many bytes are left. -/
structure Decode.Reply (α : Type) where
  answer : Except DecodeError α
  offset : Nat
  unread : Nat

/-- What the caller of a step sees of it. -/
def Decode.reply {α : Type} (x : Decode α) (d : Decoder) : Decode.Reply α where
  answer := (x.run d).1
  offset := (x.run d).2.offset
  unread := (x.run d).2.unread

/-- The replies to as many calls for a frame, each made whatever the calls before it have answered. -/
def Decoder.replies (limit : Nat) : Nat → Decoder → List (Decode.Reply Frame)
  | 0, _ => []
  | count + 1, d => (Decode.frame limit).reply d :: replies limit count ((Decode.frame limit).run d).2

theorem Decode.Regular.reply_alike {α : Type} {x : Decode α} {d d' : Decoder} (hx : Regular x) (h : d.Alike d') :
    x.reply d' = x.reply d ∧ (x.run d).2.Alike (x.run d').2 := by
  obtain ⟨r, d₁, hrun⟩ := Decode.exists_run x d
  obtain ⟨d₁', hrun', h₁⟩ := hx.run_alike h hrun
  have hunread : d₁'.unread = d₁.unread := by
    unfold Decoder.unread
    rw [h₁.source.unread]
  unfold reply
  rw [hrun, hrun', h₁.offset, hunread]
  exact ⟨rfl, h₁⟩

theorem Decoder.Alike.replies {d d' : Decoder} (h : d.Alike d') (limit count : Nat) :
    d'.replies limit count = d.replies limit count := by
  induction count generalizing d d' with
  | zero => rfl
  | succ count ih =>
    obtain ⟨hreply, hnext⟩ := (Decode.regular_frame limit).reply_alike h
    unfold Decoder.replies
    rw [hreply, ih hnext]

/-- Two sources with the same bytes and the same failure, if any, are told apart neither by opening the trace nor by
any number of calls for a frame, whatever these answer: the answers, the offsets and the numbers of bytes left are the
same, in pieces of whatever lengths the bytes are delivered and wherever and however often reads are interrupted. -/
theorem replies_of_sameBytes {s s' : Source} (hs : s.Flows) (hs' : s'.Flows) (h : s.SameBytes s') (limit count : Nat) :
    (Decode.openTrace limit).reply (.ofSource s') = (Decode.openTrace limit).reply (.ofSource s) ∧
    ((Decode.openTrace limit).run (.ofSource s')).2.replies limit count =
      ((Decode.openTrace limit).run (.ofSource s)).2.replies limit count := by
  have halike : (Decoder.ofSource s).Alike (.ofSource s') := ⟨h, hs, hs', rfl⟩
  obtain ⟨hopen, hnext⟩ := (Decode.regular_openTrace limit).reply_alike halike
  exact ⟨hopen, hnext.replies limit count⟩

/-- The bytes of `unusual` up to a failure in its second frame, in one piece where nothing stops a read. -/
def failing : Source where
  unread := unusual.unread
  failure := some (47, .other "source failure")

/-- The same bytes and the same failure in short pieces; a read in front of the failure is interrupted twice. -/
def failingInPieces : Source where
  unread := unusual.unread
  failure := some (47, .other "source failure")
  chunk := some 4
  interrupts := [47, 0, 21, 47]
  cuts := [1, 18, 29]

theorem replies_failing : failing.Flows ∧ failingInPieces.Flows ∧ failing.SameBytes failingInPieces ∧
    (Decode.openTrace 0).reply (.ofSource failingInPieces) = (Decode.openTrace 0).reply (.ofSource failing) ∧
    ((Decode.openTrace 0).run (.ofSource failingInPieces)).2.replies 0 3 =
      ((Decode.openTrace 0).run (.ofSource failing)).2.replies 0 3 := by
  have hs : failing.Flows := nofun
  have hs' : failingInPieces.Flows := by
    intro hzero
    cases hzero
  have h : failing.SameBytes failingInPieces := ⟨rfl, rfl, rfl⟩
  exact ⟨hs, hs', h, replies_of_sameBytes hs hs' h 0 3⟩

end NodeTrace
