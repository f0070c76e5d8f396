import NodeTrace.Analysis
import NodeTrace.Proofs.Dispatch
import NodeTrace.Proofs.Truncation

/-!
# A source that fails is not taken for a trace that ends

A source that fails is compared with one that ends where the other fails.  A regular step answers the same from both,
but says that the source failed where it would say that the trace ended (`Decode.Regular.run_failsBehind`).  So no frame
in front of the failure is lost, none is made up, and neither a dispatch nor an analysis succeeds
(`decodes_up_to_failure`).
-/

namespace NodeTrace

/-- The error that takes the place of an error over a source that fails with `fault` instead of ending. -/
def DecodeError.atFailure (fault : Fault) : DecodeError → DecodeError
  | .endOfStream => .io fault
  | .truncated => .io fault
  | error => error

theorem DecodeError.atFailure_ne_endOfStream (fault : Fault) (error : DecodeError) :
    error.atFailure fault ≠ .endOfStream := by
  cases error <;> simp [atFailure]

/-- An answer that was not brought about by the end of the trace is not changed by a failure in its place. -/
theorem Decode.Judged.mapError_atFailure {α : Type} {r : Except DecodeError α} (h : Judged r) (fault : Fault) :
    r.mapError (DecodeError.atFailure fault) = r := by
  cases r with
  | ok a => rfl
  | error e =>
    cases e with
    | endOfStream => exact absurd rfl h.1
    | truncated => exact absurd rfl h.2
    | _ => rfl

/-! ## A failure in the place of the end -/

/-- The source fails with `fault` behind the bytes ahead, and brings something while there is something. -/
structure Source.FailsWith (s : Source) (fault : Fault) : Prop where
  flows : s.Flows
  close : s.close = .failed fault

theorem Source.Advanced.failsWith {s s' : Source} {n : Nat} {fault : Fault} (h : s.Advanced n s')
    (hs : s.FailsWith fault) : s'.FailsWith fault :=
  ⟨h.flows hs.flows, h.close.trans hs.close⟩

/-- A failure that is not behind the last byte is met. -/
theorem Source.failsWith_of_failure {s : Source} {p : Nat} {fault : Fault} (hs : s.Flows)
    (hf : s.failure = some (s.position + p, fault)) (hp : p ≤ s.unread.length) :
    s.FailsWith fault ∧ s.ahead = s.unread.take p := by
  have hle : s.position ≤ s.position + p := Nat.le_add_right s.position p
  have hin : s.position + p ≤ s.position + s.unread.length := Nat.add_le_add_left hp s.position
  refine ⟨⟨hs, ?_⟩, ?_⟩
  · unfold close
    rw [hf]
    exact if_pos ⟨hle, hin⟩
  · unfold ahead
    rw [hf]
    dsimp only
    rw [if_pos hle, Nat.add_sub_cancel_left]

/-- The same bytes are ahead of both decoders; behind them the source of `d` ends and that of `d'` fails. -/
structure Decoder.FailsBehind (fault : Fault) (d d' : Decoder) : Prop where
  ahead : d'.source.ahead = d.source.ahead
  flows : d.source.Flows
  ends : d.source.close = .exhausted
  fails : d'.source.FailsWith fault

/-- Beside every decoder that will fail there is one that will end instead. -/
theorem Source.FailsWith.failsBehind {d : Decoder} {fault : Fault} (h : d.source.FailsWith fault) :
    (Decoder.ofSource (.ofBytes d.source.ahead)).FailsBehind fault d :=
  ⟨rfl, Source.flows_ofBytes _, rfl, h⟩

/-- What a step answers in front of the end, it answers in front of the failure, except that the failure is met in the
place of the end. -/
theorem Decode.Regular.run_failsBehind {α : Type} {x : Decode α} (hx : Regular x) {d d' d₁ : Decoder} {fault : Fault}
    {r : Except DecodeError α} (h : d.FailsBehind fault d') (hr : x.run d = (r, d₁)) :
    ∃ d₁', x.run d' = (r.mapError (DecodeError.atFailure fault), d₁') ∧ d₁.FailsBehind fault d₁' := by
  have hnext {n : Nat} {d₁ d₁' : Decoder} (ha : d.source.Advanced n d₁.source)
      (ha' : d'.source.Advanced n d₁'.source) : d₁.FailsBehind fault d₁' := by
    refine ⟨?_, ha.flows h.flows, ha.close.trans h.ends, ha'.failsWith h.fails⟩
    rw [ha'.ahead, ha.ahead, h.ahead]
  rcases hx d.source.ahead with hshort | ⟨w, r', ⟨rest, hw⟩, hread⟩
  · obtain ⟨e, he, hanswers⟩ := hshort.atEnd
    obtain ⟨k, hanswers'⟩ := hshort.atFailure fault
    obtain ⟨d₂, hrun, ha, -⟩ := hanswers d h.flows rfl h.ends
    obtain ⟨d₂', hrun', ha', -⟩ := hanswers' d' h.fails.flows h.ahead h.fails.close
    rw [hr] at hrun
    obtain ⟨rfl, rfl⟩ := Prod.mk.inj hrun
    refine ⟨d₂', ?_, hnext ha ha'⟩
    rcases he with rfl | rfl
    · exact hrun'
    · exact hrun'
  · obtain ⟨d₂, hrun, ha, -⟩ := hread.whole rest .exhausted d h.flows hw.symm h.ends
    obtain ⟨d₂', hrun', ha', -⟩ :=
      hread.whole rest (.failed fault) d' h.fails.flows (h.ahead.trans hw.symm) h.fails.close
    rw [hr] at hrun
    obtain ⟨rfl, rfl⟩ := Prod.mk.inj hrun
    refine ⟨d₂', ?_, hnext ha ha'⟩
    rw [hread.judged.mapError_atFailure]
    exact hrun'

/-! ## Frames in front of a failure -/

section Frames

variable {d d' : Decoder} {fault : Fault} {limit : Nat}

/-- The frames in front of a failure are those in front of the end in its place. -/
theorem Decoder.FailsBehind.frames (h : d.FailsBehind fault d') (limit : Nat) :
    (d'.frames limit).1 = (d.frames limit).1 ∧
      (d'.frames limit).2.1 = ((d.frames limit).2.1).atFailure fault := by
  fun_induction Decoder.frames limit d generalizing d' with
  | case1 d e d₁ he =>
    obtain ⟨d₁', hrun, -⟩ := (Decode.regular_frame limit).run_failsBehind h (Decode.run_eq_error.2 he)
    rw [Decoder.frames_of_error hrun]
    exact ⟨rfl, rfl⟩
  | case2 d f d₁ hf ih =>
    obtain ⟨d₁', hrun, h₁⟩ := (Decode.regular_frame limit).run_failsBehind h (Decode.run_eq_ok.2 hf)
    obtain ⟨hframes, herror⟩ := ih h₁
    rw [Decoder.frames_of_ok hrun]
    exact ⟨congrArg (f :: ·) hframes, herror⟩

/-- No dispatch over a source that fails succeeds. -/
theorem Decoder.dispatch_failsWith {σ ε : Type} (h : d.source.FailsWith fault) (handler : Handler σ ε) (state : σ) :
    ∃ e, (d.dispatch limit handler state).outcome = .error e := by
  obtain ⟨houtcome, -⟩ := Decoder.dispatchFrom_eq h.flows limit handler 0 state
  obtain ⟨-, herror⟩ := h.failsBehind.frames limit
  have hne : (d.frames limit).2.1 ≠ .endOfStream := by
    rw [herror]
    exact DecodeError.atFailure_ne_endOfStream fault _
  obtain ⟨e, he⟩ := Handler.handleAll_of_ne hne 0 (d.frames limit).1 state
  exact ⟨e, houtcome.trans he⟩

end Frames

/-- An analysis whose dispatch fails fails. -/
theorem Analysis.runOpened_of_error {a : Analysis} {limit : Nat} {names : Names} {d : Decoder} {sink : Sink}
    (h : ∀ (σ : Type) (handler : Handler σ AnalysisError) (state : σ),
      ∃ e, (d.dispatch limit handler state).outcome = .error e) :
    ∃ e, (a.runOpened limit names d sink).outcome = .error e := by
  have hfinish {outcome : Except AnalysisError Nat} (ho : ∃ e, outcome = .error e) (lines : List String)
      (sink : Sink) (d : Decoder) : ∃ e, (finish outcome lines sink d).outcome = .error e := by
    obtain ⟨e, rfl⟩ := ho
    exact ⟨e, rfl⟩
  unfold runOpened
  cases a.mode with
  | listing => exact hfinish (h _ _ _) _ _ _
  | graph => exact hfinish (h _ _ _) _ _ _
  | report => exact hfinish (h _ _ _) _ _ _

/-- A source that fails `p` bytes ahead is opened and decoded as a source of these `p` bytes is, up to and with the
first error, except that the failure is reported where the other trace ends or is truncated.  Neither a dispatch to any
handler nor an analysis of it succeeds. -/
theorem decodes_up_to_failure {s s' : Source} {p : Nat} {fault : Fault} (hs : s.Flows)
    (hf : s.failure = some (s.position + p, fault)) (hp : p ≤ s.unread.length) (hs' : s'.Reliable)
    (hu : s'.unread = s.unread.take p) (limit : Nat) :
    ((Decode.openTrace limit).run (.ofSource s)).1 =
      ((Decode.openTrace limit).run (.ofSource s')).1.mapError (DecodeError.atFailure fault) ∧
    (∀ (h : TraceHeader) (d : Decoder), (Decode.openTrace limit).run (.ofSource s) = (.ok h, d) →
      (∃ d', (Decode.openTrace limit).run (.ofSource s') = (.ok h, d') ∧
        (d.frames limit).1 = (d'.frames limit).1 ∧
        (d.frames limit).2.1 = ((d'.frames limit).2.1).atFailure fault) ∧
      ∀ (σ ε : Type) (handler : Handler σ ε) (state : σ),
        ∃ e, (d.dispatch limit handler state).outcome = .error e) ∧
    ∀ (a : Analysis) (names : Names) (sink : Sink), ∃ e, (a.run limit names s sink).outcome = .error e := by
  obtain ⟨hfails, hahead⟩ := Source.failsWith_of_failure hs hf hp
  have hbehind : (Decoder.ofSource s').FailsBehind fault (.ofSource s) := by
    refine ⟨?_, hs'.flows, hs'.close, hfails⟩
    show s.ahead = s'.ahead
    rw [hahead, hs'.ahead, hu]
  obtain ⟨r, d', hrun⟩ := Decode.exists_run (Decode.openTrace limit) (.ofSource s')
  obtain ⟨d₁, hopen, hnext⟩ := (Decode.regular_openTrace limit).run_failsBehind hbehind hrun
  have hdispatch (σ ε : Type) (handler : Handler σ ε) (state : σ) (d : Decoder) (hd : d.source.FailsWith fault) :
      ∃ e, (d.dispatch limit handler state).outcome = .error e :=
    Decoder.dispatch_failsWith hd handler state
  refine ⟨by rw [hopen, hrun], ?_, ?_⟩
  · intro h d hd
    rw [hd] at hopen
    obtain ⟨hheader, rfl⟩ := Prod.mk.inj hopen
    cases r with
    | error e => cases hheader
    | ok h' =>
      cases hheader
      exact ⟨⟨d', hrun, hnext.frames limit⟩, fun σ ε handler state => hdispatch σ ε handler state d hnext.fails⟩
  · intro a names sink
    unfold Analysis.run
    cases ho : Decode.openTrace limit (.ofSource s) with
    | error e d => exact ⟨_, rfl⟩
    | ok h d =>
      rw [Decode.run_eq_ok.2 ho] at hopen
      obtain ⟨-, rfl⟩ := Prod.mk.inj hopen
      exact Analysis.runOpened_of_error fun σ handler state => hdispatch σ _ handler state _ hnext.fails

/-- The failure is met inside the second frame: the first one is decoded, and no analysis succeeds. -/
theorem failing_up_to_failure : ∃ d d', (Decode.openTrace 0).run (.ofSource failing) = (.ok ⟨1, 7⟩, d) ∧
    d.frames 0 = ([⟨⟨⟨true, true, false⟩, 256, 0, {}⟩, .monitorState ⟨1, 2, 3⟩⟩], .io (.other "source failure"), d') ∧
    ∃ e, (Analysis.run ⟨.report, none, true⟩ 0 {} failing {}).outcome = .error e := by
  have hs' : (Source.ofBytes (failing.unread.take 47)).Reliable := ⟨nofun, rfl⟩
  obtain ⟨hopen, hnext, hrun⟩ := decodes_up_to_failure (s := failing) (p := 47) nofun rfl (by decide) hs' rfl 0
  have hu : failing.unread.take 47 = Written.header 7 ++ (unusualFrames.flatMap Written.Frame.bytes).take 31 := rfl
  obtain ⟨d₁, hopen₁, hp₁, hrest⟩ :=
    Decode.run_openTrace_written 0 (d := .ofSource (.ofBytes (failing.unread.take 47))) hs' hu
  obtain ⟨d₂, hframes, -⟩ := Decoder.frames_of_cut unusualFrames_wellFormed hp₁.reliable (by decide) hrest
  rw [hp₁.offset] at hframes
  rw [hopen₁] at hopen
  obtain ⟨d, hd⟩ : ∃ d, (Decode.openTrace 0).run (.ofSource failing) = (.ok ⟨1, 7⟩, d) := ⟨_, Prod.ext hopen rfl⟩
  obtain ⟨⟨d', hd', hps, he⟩, -⟩ := hnext _ d hd
  rw [hopen₁] at hd'
  obtain ⟨-, rfl⟩ := Prod.mk.inj hd'
  rw [hframes] at hps he
  exact ⟨d, _, hd, Prod.ext hps (Prod.ext he rfl), hrun _ _ _⟩

end NodeTrace
