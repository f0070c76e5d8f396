import NodeTrace.Proofs.Calls
import NodeTrace.Proofs.Offsets

/-!
# Decoding makes progress and ends

A call for a frame passes some bytes if there are any, at least four if it brings a frame and all of them if the trace is
truncated (`Decode.Progresses`), also in the middle of an element that an earlier call has refused.  So whatever calls
for frames over and over ends: the loop over the elements of a scope run (`Decode.exists_rounds`), an iteration that goes
on behind errors (`Decoder.exists_pulls`), and a dispatch, which passes at least four bytes for each frame that it counts
(`Handler.Stops.passes`).
-/

namespace NodeTrace

/-! ## Scope runs -/

namespace Decode

/-- The loop over the elements of a scope run, round by round.  A round reads a header.  It ends the loop if there is
none, if the header closes the run, or if the element behind the header is refused; else the next round follows. -/
inductive Rounds : Bool → Scope → Decoder → Nat → Except DecodeError Scope → Decoder → Prop where
  | unheaded {first : Bool} {scope : Scope} {d d₁ : Decoder} {e : DecodeError}
      (hheader : (nextHeader first).run d = (.error e, d₁)) : Rounds first scope d 1 (.error e) d₁
  | closed {first : Bool} {scope : Scope} {d d₁ : Decoder} {h : ElementHeader}
      (hheader : (nextHeader first).run d = (.ok h, d₁)) (h0 : h.tag = 0) : Rounds first scope d 1 (.ok scope) d₁
  | refused {first : Bool} {scope : Scope} {d d₁ d₂ : Decoder} {h : ElementHeader} {e : DecodeError}
      (hheader : (nextHeader first).run d = (.ok h, d₁)) (h0 : h.tag ≠ 0)
      (helement : (scopeElement h scope).inside.run d₁ = (.error e, d₂)) : Rounds first scope d 1 (.error e) d₂
  | again {first : Bool} {scope scope' : Scope} {d d₁ d₂ d₃ : Decoder} {h : ElementHeader} {count : Nat}
      {r : Except DecodeError Scope} (hheader : (nextHeader first).run d = (.ok h, d₁)) (h0 : h.tag ≠ 0)
      (helement : (scopeElement h scope).inside.run d₁ = (.ok scope', d₂))
      (hrest : Rounds false scope' d₂ count r d₃) : Rounds first scope d (count + 1) r d₃

theorem consumes_nextHeader (first : Bool) : Consumes 2 (nextHeader first) := by
  cases first with
  | true => exact consumes_elementHeader
  | false => exact consumes_elementHeader.inside

theorem Rounds.run_scopeRun {first : Bool} {scope : Scope} {d d' : Decoder} {count : Nat} {r : Except DecodeError Scope}
    (h : Rounds first scope d count r d') : (scopeRun first scope).run d = (r, d') := by
  induction h with
  | unheaded hheader => rw [scopeRun_eq, run_bind, hheader]
  | closed hheader h0 =>
    rw [scopeRun_eq, run_bind, hheader]
    dsimp only
    rw [behindHeader_separator _ h0]
    rfl
  | refused hheader h0 helement =>
    rw [scopeRun_eq, run_bind, hheader]
    dsimp only
    rw [behindHeader_element _ h0, run_bind, helement]
  | again hheader h0 helement _ ih =>
    rw [scopeRun_eq, run_bind, hheader]
    dsimp only
    rw [behindHeader_element _ h0, run_bind, helement]
    exact ih

/-- The loop over the elements of a scope run ends, since all its rounds but the last one pass two bytes or more. -/
theorem exists_rounds (first : Bool) (scope : Scope) (d : Decoder) :
    ∃ count r d', Rounds first scope d count r d' ∧ 2 * count ≤ d.unread + 2 := by
  induction hn : d.unread using Nat.strongRecOn generalizing first scope d with
  | ind n ih =>
    obtain ⟨header, d₁, hheader⟩ := exists_run (nextHeader first) d
    cases header with
    | error e => exact ⟨1, _, d₁, .unheaded hheader, by omega⟩
    | ok h =>
      by_cases h0 : h.tag = 0
      · exact ⟨1, _, d₁, .closed hheader h0, by omega⟩
      · obtain ⟨element, d₂, helement⟩ := exists_run (scopeElement h scope).inside d₁
        cases element with
        | error e => exact ⟨1, _, d₂, .refused hheader h0 helement, by omega⟩
        | ok scope' =>
          have hpassed := consumes_nextHeader first (run_eq_ok.1 hheader)
          have helse := (consumes_scopeElement h scope).inside (run_eq_ok.1 helement)
          obtain ⟨count, r, d', hrest, hcount⟩ := ih d₂.unread (by omega) false scope' d₂ rfl
          exact ⟨count + 1, r, d', .again hheader h0 helement hrest, by omega⟩

/-! ## Calls -/

/-- A call for a frame that answers `r` has passed the bytes `w`: none at the end of the trace, which is clean there and
nowhere else, some bytes in front of it, at least four for a frame, and all if the trace is truncated. -/
structure Progresses (d : Decoder) (r : Except DecodeError Frame) (w : List UInt8) (d' : Decoder) : Prop where
  passes : d.Passes w d'
  clean_iff : r = .error .endOfStream ↔ d.source.unread = []
  nothing_iff : w = [] ↔ d.source.unread = []
  four_of_ok : ∀ f, r = .ok f → 4 ≤ w.length
  all_of_truncated : r = .error .truncated → d'.source.unread = []

variable {limit : Nat} {d d' : Decoder} {r : Except DecodeError Frame}

/-- No frame is read of no bytes, and none is refused. -/
theorem Reads.ne_nil_of_frame {w : List UInt8} (h : Reads (frame limit) w r) : w ≠ [] := by
  rintro rfl
  obtain ⟨rfl, -⟩ := (h.whole [] .exhausted).unique (answers_frame_atEnd limit)
  exact h.judged.1 rfl

theorem exists_progresses (hd : d.source.Reliable) (h : (frame limit).run d = (r, d')) : ∃ w, Progresses d r w d' := by
  -- the unread bytes end within a frame, or some of them in front decide the answer
  rcases regular_frame limit d.source.unread with hshort | ⟨w, r', ⟨rest, hw⟩, hread⟩
  · obtain ⟨d₁, hrun, hp, hnil⟩ := (answers_frame_runsOut hshort).run_short hd rfl
    obtain ⟨rfl, rfl⟩ := Prod.mk.inj (h.symm.trans hrun)
    refine ⟨d.source.unread, hp, ?_, Iff.rfl, nofun, fun _ => hnil⟩
    by_cases hu : d.source.unread = []
    · simp [hu]
    · simp [hu]
  · obtain ⟨d₁, hrun, hp, -⟩ := hread.run hd hw.symm
    obtain ⟨rfl, rfl⟩ := Prod.mk.inj (h.symm.trans hrun)
    have hne := hread.ne_nil_of_frame
    have hu : d.source.unread ≠ [] := by
      rw [← hw]
      exact List.append_ne_nil_of_left_ne_nil hne rest
    refine ⟨w, hp, ⟨fun he => absurd he hread.judged.1, fun he => absurd he hu⟩,
      ⟨fun he => absurd he hne, fun he => absurd he hu⟩, ?_, fun he => absurd he hread.judged.2⟩
    rintro f rfl
    have hfour := consumes_frame limit (run_eq_ok.1 h)
    have hlength := hp.length_unread
    omega

theorem exists_call (limit : Nat) (hd : d.source.Reliable) :
    ∃ r d' w, (frame limit).run d = (r, d') ∧ Progresses d r w d' := by
  obtain ⟨r, d', hrun⟩ := exists_run (frame limit) d
  obtain ⟨w, hw⟩ := exists_progresses hd hrun
  exact ⟨r, d', w, hrun, hw⟩

end Decode

namespace Decoder

variable {limit : Nat} {d d' d₁ d₂ : Decoder}

/-- Behind a truncated frame the end is clean. -/
theorem endOfStream_of_truncated (hd : d.source.Reliable)
    (h : (Decode.frame limit).run d = (.error .truncated, d')) :
    ∃ d'', (Decode.frame limit).run d' = (.error .endOfStream, d'') := by
  obtain ⟨w, hw⟩ := Decode.exists_progresses hd h
  obtain ⟨d'', hrun, -⟩ := run_frame_atEnd limit hw.passes.reliable (hw.all_of_truncated rfl)
  exact ⟨d'', hrun⟩

/-! ## Iteration -/

theorem pull_snd (limit : Nat) (d : Decoder) : (d.pull limit).2 = ((Decode.frame limit).run d).2 := by
  unfold pull Decode.run
  cases Decode.frame limit d with
  | ok f d₁ => rfl
  | error e d₁ => cases e <;> rfl

theorem pull_none_iff (hd : d.source.Reliable) : (d.pull limit).1 = none ↔ d.unread = 0 := by
  obtain ⟨r, d', w, hrun, hw⟩ := Decode.exists_call limit hd
  have hclean : (d.pull limit).1 = none ↔ r = .error .endOfStream := by
    unfold pull
    cases r with
    | ok f => simp [Decode.run_eq_ok.1 hrun]
    | error e =>
      rw [Decode.run_eq_error.1 hrun]
      cases e <;> simp
  rw [hclean, hw.clean_iff, Decoder.unread, List.length_eq_zero_iff]

theorem exists_passes_after (limit : Nat) (hd : d.source.Reliable) (i : Nat) : ∃ w, d.Passes w (d.after limit i) := by
  induction i generalizing d with
  | zero => exact ⟨[], .nil hd⟩
  | succ i ih =>
    obtain ⟨r, d', w, hrun, hw⟩ := Decode.exists_call limit hd
    obtain ⟨v, hv⟩ := ih hw.passes.reliable
    rw [after, hrun]
    exact ⟨w ++ v, hw.passes.append hv⟩

/-- Pulling again and again goes through the decoders behind the calls. -/
theorem after_succ_eq_pull (limit i : Nat) (d : Decoder) : d.after limit (i + 1) = ((d.after limit i).pull limit).2 := by
  rw [pull_snd]
  induction i generalizing d with
  | zero => rfl
  | succ i ih => exact ih ((Decode.frame limit).run d).2

/-- An iteration that goes on behind errors ends: nothing is yielded from some call on, and before it something always
is. -/
theorem exists_pulls (limit : Nat) (hd : d.source.Reliable) :
    ∃ count ≤ d.unread, ∀ i, ((d.after limit i).pull limit).1 = none ↔ count ≤ i := by
  induction hn : d.unread using Nat.strongRecOn generalizing d with
  | ind n ih =>
    by_cases h0 : d.unread = 0
    · refine ⟨0, Nat.zero_le n, fun i => ⟨fun _ => Nat.zero_le i, fun _ => ?_⟩⟩
      obtain ⟨v, hv⟩ := exists_passes_after limit hd i
      have hlength := hv.length_unread
      exact (pull_none_iff hv.reliable).2 (by omega)
    · obtain ⟨r, d', w, hrun, hw⟩ := Decode.exists_call limit hd
      -- the call passes some bytes, so there are fewer calls behind it
      have hpos : w.length ≠ 0 := fun hw0 => h0 (by
        rw [Decoder.unread, hw.nothing_iff.1 (List.length_eq_zero_iff.1 hw0), List.length_nil])
      have hlength := hw.passes.length_unread
      obtain ⟨count, hcount, hpulls⟩ := ih d'.unread (by omega) hw.passes.reliable rfl
      refine ⟨count + 1, by omega, fun i => ?_⟩
      cases i with
      | zero => exact ⟨fun h => absurd ((pull_none_iff hd).1 h) h0, fun h => absurd h (Nat.not_succ_le_zero count)⟩
      | succ i => rw [after, hrun, hpulls, Nat.succ_le_succ_iff]

/-! ## Dispatches -/

theorem Yields.passes {fs : List Frame} (h : d.Yields limit fs d₁) (hd : d.source.Reliable) :
    ∃ w, d.Passes w d₁ ∧ 4 * fs.length ≤ w.length := by
  induction h with
  | nil d => exact ⟨[], .nil hd, Nat.le_refl 0⟩
  | @cons d d₁ d₂ f fs hpull _ ih =>
    obtain ⟨w, hw⟩ := Decode.exists_progresses hd (Decode.run_eq_ok.2 (pull_eq_ok_iff.1 hpull))
    obtain ⟨v, hv, hfour⟩ := ih hw.passes.reliable
    have hfirst := hw.four_of_ok f rfl
    refine ⟨w ++ v, hw.passes.append hv, ?_⟩
    rw [List.length_cons, List.length_append]
    omega

theorem exists_passes_pull (limit : Nat) (hd : d.source.Reliable) : ∃ w, d.Passes w (d.pull limit).2 := by
  obtain ⟨r, d', w, hrun, hw⟩ := Decode.exists_call limit hd
  rw [pull_snd, hrun]
  exact ⟨w, hw.passes⟩

end Decoder

variable {σ ε : Type} {limit count : Nat} {h : Handler σ ε} {d d₁ d₂ : Decoder} {s s₁ t : σ} {r : Except ε Nat}
  {last : Option Frame}

/-- What stops a dispatch has passed some bytes. -/
theorem Handler.Stops.passes (hstops : h.Stops limit count d s last d₂ r t) (hd : d.source.Reliable) :
    ∃ w, d.Passes w d₂ := by
  have hpull : (d.pull limit).2 = d₂ := by
    cases hstops with
    | ended hpull => rw [hpull]
    | failed hpull => rw [hpull]
    | refused hpull hcall => rw [hpull]
  exact hpull ▸ Decoder.exists_passes_pull limit hd

theorem Handler.Stops.count_eq {n : Nat} (hstops : h.Stops limit count d s last d₂ (.ok n) t) : n = count := by
  cases hstops
  rfl

theorem Dispatched.ComesTo.passes {out : Dispatched σ ε} (hcomes : out.ComesTo r t d) (hd : d.source.Reliable) :
    d.Passes [] out.decoder where
  unread := hcomes.source.unread.symm
  reliable := ⟨hcomes.flows hd.flows, hcomes.source.failure.trans hd.failure⟩
  offset := hcomes.offset

/-- A dispatch ends. -/
theorem Decoder.exists_passes_dispatch (limit : Nat) (h : Handler σ ε) (hd : d.source.Reliable) (s : σ) :
    ∃ fs d₁ s₁ last d₂, d.Yields limit fs d₁ ∧ (fs.forM h.handle).run s = .ok () s₁ ∧
      h.Stops limit fs.length d₁ s₁ last d₂ (d.dispatch limit h s).outcome (d.dispatch limit h s).state ∧
      ∃ w, d.Passes w (d.dispatch limit h s).decoder ∧ 4 * fs.length ≤ w.length := by
  obtain ⟨fs, d₁, s₁, last, d₂, r, t, hyields, hfs, hstops⟩ := h.exists_stops limit 0 d s
  rw [Nat.zero_add] at hstops
  have hcomes := Decoder.dispatch_of_yields hyields hfs hstops
  obtain ⟨w, hw, hfour⟩ := hyields.passes hd
  obtain ⟨v, hv⟩ := hstops.passes hw.reliable
  refine ⟨fs, d₁, s₁, last, d₂, hyields, hfs, ?_, w ++ v, ?_, ?_⟩
  · rw [hcomes.outcome, hcomes.state]
    exact hstops
  · have hall := (hw.append hv).append (hcomes.passes hv.reliable)
    rwa [List.append_nil] at hall
  · rw [List.length_append]
    omega

/-! ## Any calls -/

/-- The decoders that stand behind the header of a trace and any calls: for a frame, for the next item of an iteration,
or for a dispatch, whatever they have answered. -/
inductive Decoder.Reached (limit : Nat) (s : Source) : Decoder → Prop where
  | opened {h : TraceHeader} {d : Decoder} (hopen : (Decode.openTrace limit).run (.ofSource s) = (.ok h, d)) :
      Reached limit s d
  | called {d : Decoder} (hd : Reached limit s d) : Reached limit s ((Decode.frame limit).run d).2
  | pulled {d : Decoder} (hd : Reached limit s d) : Reached limit s (d.pull limit).2
  | dispatched {σ ε : Type} {d : Decoder} (hd : Reached limit s d) (h : Handler σ ε) (t : σ) :
      Reached limit s (d.dispatch limit h t).decoder

/-- Calls pass the header and some bytes behind it, one after the other. -/
theorem Decoder.Reached.passes {s : Source} (hd : d.Reached limit s) (hs : s.Reliable) :
    ∃ w, (Decoder.ofSource s).Passes w d ∧ 16 ≤ w.length := by
  have hmore {d d' : Decoder} (hd : ∃ w, (Decoder.ofSource s).Passes w d ∧ 16 ≤ w.length)
      (hcall : d.source.Reliable → ∃ v, d.Passes v d') : ∃ w, (Decoder.ofSource s).Passes w d' ∧ 16 ≤ w.length := by
    obtain ⟨w, hw, hheader⟩ := hd
    obtain ⟨v, hv⟩ := hcall hw.reliable
    refine ⟨w ++ v, hw.append hv, ?_⟩
    rw [List.length_append]
    omega
  induction hd with
  | @opened h d hopen =>
    obtain ⟨w, hread, hw⟩ := Decode.reads_of_run (Decode.regular_openTrace limit) hs hopen (Decode.judged_ok h)
    obtain ⟨-, rfl⟩ := Decode.reads_openTrace_iff.1 hread
    exact ⟨_, hw, Nat.le_refl 16⟩
  | called _ ih => exact hmore ih fun hd => Decoder.exists_passes_after limit hd 1
  | pulled _ ih => exact hmore ih fun hd => Decoder.exists_passes_pull limit hd
  | dispatched _ h t ih =>
    refine hmore ih fun hd => ?_
    obtain ⟨-, -, -, -, -, -, -, -, w, hw, -⟩ := Decoder.exists_passes_dispatch limit h hd t
    exact ⟨w, hw⟩

/-- Decoding makes progress and ends.  Behind any calls, the next call for a frame passes bytes if there are any, as
`Decode.Progresses` says, and behind a truncated frame the end is clean.  So the loop over the elements of a scope run
ends, an iteration ends also if it goes on behind errors, and a dispatch ends; one that succeeds has read sixteen bytes
and four more for each frame that it counts. -/
theorem decoding_progresses {s : Source} (hs : s.Reliable) {limit : Nat} {d : Decoder} (hd : d.Reached limit s) :
    (∀ r d', (Decode.frame limit).run d = (r, d') → (∃ w, Decode.Progresses d r w d') ∧
      (r = .error .truncated → ∃ d'', (Decode.frame limit).run d' = (.error .endOfStream, d''))) ∧
    (∃ count r d', Decode.Rounds true {} d count r d' ∧ Decode.scope.run d = (r, d') ∧ 2 * count ≤ d.unread + 2) ∧
    ((∀ i, d.after limit (i + 1) = ((d.after limit i).pull limit).2) ∧
      ∃ count ≤ d.unread, ∀ i, ((d.after limit i).pull limit).1 = none ↔ count ≤ i) ∧
    ∀ (σ ε : Type) (h : Handler σ ε) (t : σ),
      (∃ fs d₁ t₁ last d₂, d.Yields limit fs d₁ ∧ (fs.forM h.handle).run t = .ok () t₁ ∧
        h.Stops limit fs.length d₁ t₁ last d₂ (d.dispatch limit h t).outcome (d.dispatch limit h t).state ∧
        4 * fs.length ≤ d.unread) ∧
      ∀ n, (d.dispatch limit h t).outcome = .ok n → 16 + 4 * n ≤ (d.dispatch limit h t).decoder.offset ∧
        (d.dispatch limit h t).decoder.offset + (d.dispatch limit h t).decoder.unread = s.unread.length := by
  obtain ⟨w, hw, hheader⟩ := hd.passes hs
  have hreliable := hw.reliable
  refine ⟨fun r d' hrun => ⟨Decode.exists_progresses hreliable hrun, ?_⟩, ?_,
    ⟨fun i => Decoder.after_succ_eq_pull limit i d, Decoder.exists_pulls limit hreliable⟩, fun σ ε h t => ?_⟩
  · rintro rfl
    exact Decoder.endOfStream_of_truncated hreliable hrun
  · obtain ⟨count, r, d', hrounds, hcount⟩ := Decode.exists_rounds true {} d
    exact ⟨count, r, d', hrounds, hrounds.run_scopeRun, hcount⟩
  · obtain ⟨fs, d₁, t₁, last, d₂, hyields, hfs, hstops, v, hv, hfour⟩ :=
      Decoder.exists_passes_dispatch limit h hreliable t
    have hlength := hv.length_unread
    refine ⟨⟨fs, d₁, t₁, last, d₂, hyields, hfs, hstops, by omega⟩, fun n hn => ?_⟩
    rw [hn] at hstops
    obtain rfl := hstops.count_eq
    have hall := hw.append hv
    have hread : (Decoder.ofSource s).unread = s.unread.length := rfl
    have hstart : (Decoder.ofSource s).offset = 0 := rfl
    have hoffset := hall.offset
    have htotal := hall.length_unread
    rw [List.length_append] at hoffset htotal
    omega

/-- A node creation that declares two bytes, which are refused and then taken for a separator. -/
def lengthyCreation : Source where
  unread := Written.header 0 ++ [0, 0, 0, 8, 2, 0, 0]
  chunk := some 2
  interrupts := [4, 19]

theorem decoding_progresses_lengthyCreation : lengthyCreation.Reliable ∧
    ∃ d : Decoder, d.Reached 0 lengthyCreation ∧ d.unread = 2 ∧
      (∃ count ≤ 2, ∀ i, ((d.after 0 i).pull 0).1 = none ↔ count ≤ i) ∧
      ∀ n, (d.dispatch 0 Tally.handler {}).outcome = .ok n → 16 + 4 * n ≤ 23 := by
  have hs : lengthyCreation.Reliable := ⟨nofun, rfl⟩
  have hevent : Decode.Reads (Decode.event 0) [0, 8, 2]
      (.error (.inconsistentLength EventKind.nodeCreate.name (.exactly 0) 2)) :=
    Decode.reads_event_body_iff.2 ⟨4, false, 2, [], ⟨by decide, by decide⟩, rfl,
      Decode.requireLength_refuses (by decide) [] rfl⟩
  have hframe := Decode.reads_frame_refused (List.forall_mem_nil _) false hevent
  obtain ⟨d, hopen, hw, hrest⟩ := Decode.run_openTrace_written 0 (d := .ofSource lengthyCreation) hs rfl
  obtain ⟨d', hrun, -, hrest'⟩ := hframe.run hw.reliable (show d.source.unread = _ ++ [0, 0] from hrest)
  have hreached : d'.Reached 0 lengthyCreation := by
    have hcalled := (Decoder.Reached.opened hopen).called
    rwa [hrun] at hcalled
  have hunread : d'.unread = 2 := congrArg List.length hrest'
  obtain ⟨-, -, ⟨-, hpulls⟩, hdispatch⟩ := decoding_progresses hs hreached
  rw [hunread] at hpulls
  refine ⟨hs, d', hreached, hunread, hpulls, fun n hn => ?_⟩
  obtain ⟨hread, htotal⟩ := (hdispatch _ _ Tally.handler {}).2 n hn
  have hlength : lengthyCreation.unread.length = 23 := rfl
  omega

end NodeTrace
