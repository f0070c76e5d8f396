import NodeTrace.Handler
import NodeTrace.Proofs.Schedules

/-!
# What a dispatch comes to

A dispatch decodes and handles in turn, but a handler sees nothing of the decoder.  So what a dispatch comes to depends
on the frames that are decoded and on the error behind them alone (`Decoder.dispatchFrom_eq`), and a handler whose
actions do not fail has handled all of these frames (`Handler.handleAll_eq`).
-/

namespace NodeTrace

/-- What the error behind `count` frames says of them: the clean end is none. -/
def DecodeError.verdict (count : Nat) : DecodeError → Except DecodeError Nat
  | .endOfStream => .ok count
  | error => .error error

theorem DecodeError.verdict_eq_ok_iff {count n : Nat} {error : DecodeError} :
    error.verdict count = .ok n ↔ error = .endOfStream ∧ count = n := by
  cases error <;> simp [verdict]

theorem DecodeError.verdict_of_ne {error : DecodeError} (h : error ≠ .endOfStream) (count : Nat) :
    error.verdict count = .error error := by
  cases error with
  | endOfStream => exact absurd rfl h
  | _ => rfl

namespace Handler

variable {σ ε : Type} {h : Handler σ ε}

/-- Handle frames, after `count` others, up to the first action that fails; `e` is the error behind the frames. -/
def handleAll (h : Handler σ ε) (e : DecodeError) : Nat → List Frame → σ → Except ε Nat × σ
  | count, [], s => ((e.verdict count).mapError h.ofDecodeError, s)
  | count, f :: fs, s =>
    match h.handle f s with
    | .error e' s' => (.error e', s')
    | .ok _ s' => h.handleAll e (count + 1) fs s'

theorem handleAll_of_error {e : DecodeError} {e' : ε} {f : Frame} {s s' : σ} (hf : h.handle f s = .error e' s')
    (count : Nat) (fs : List Frame) : h.handleAll e count (f :: fs) s = (.error e', s') := by
  rw [handleAll, hf]

theorem handleAll_of_ok {e : DecodeError} {f : Frame} {s s' : σ} {u : Unit} (hf : h.handle f s = .ok u s')
    (count : Nat) (fs : List Frame) : h.handleAll e count (f :: fs) s = h.handleAll e (count + 1) fs s' := by
  rw [handleAll, hf]

/-- Handling frames in front of an error other than the clean end does not succeed. -/
theorem handleAll_of_ne {e : DecodeError} (he : e ≠ .endOfStream) (count : Nat) (fs : List Frame) (s : σ) :
    ∃ e', (h.handleAll e count fs s).1 = .error e' := by
  induction fs generalizing count s with
  | nil =>
    rw [handleAll, DecodeError.verdict_of_ne he]
    exact ⟨_, rfl⟩
  | cons f fs ih =>
    cases hf : h.handle f s with
    | error e' s' =>
      rw [handleAll_of_error hf]
      exact ⟨e', rfl⟩
    | ok u s' =>
      rw [handleAll_of_ok hf]
      exact ih (count + 1) s'

/-- If the state is a function of the frames that were handled, all frames are handled. -/
theorem handleAll_eq {after : List Frame → σ} (hstep : ∀ past f, h.handle f (after past) = .ok () (after (past ++ [f])))
    (e : DecodeError) (count : Nat) (past fs : List Frame) : h.handleAll e count fs (after past) =
      ((e.verdict (count + fs.length)).mapError h.ofDecodeError, after (past ++ fs)) := by
  induction fs generalizing count past with
  | nil => rw [handleAll, List.append_nil, List.length_nil, Nat.add_zero]
  | cons f fs ih =>
    have hlen : count + (f :: fs).length = count + 1 + fs.length := by
      rw [List.length_cons]
      omega
    rw [handleAll_of_ok (hstep past f), ih, hlen, List.append_assoc, List.singleton_append]

/-- The same of all frames of a trace that ends cleanly. -/
theorem handleAll_endOfStream {after : List Frame → σ}
    (hstep : ∀ past f, h.handle f (after past) = .ok () (after (past ++ [f]))) (fs : List Frame) :
    h.handleAll .endOfStream 0 fs (after []) = (.ok fs.length, after fs) := by
  rw [handleAll_eq hstep, Nat.zero_add, List.nil_append]
  rfl

end Handler

namespace Decoder

variable {σ ε : Type} {d d' : Decoder}

/-- Records do not count. -/
theorem Alike.remark (h : d.Alike d') (records : List LogRecord) : d.Alike (d'.remark records) :=
  ⟨⟨h.source.unread, h.source.position, h.source.failure⟩, h.flows, h.flows', h.offset⟩

theorem Alike.note (h : d.Alike d') (level : LogLevel) (text : String) : d.Alike (d'.note level text) :=
  ⟨⟨h.source.unread, h.source.position, h.source.failure⟩, h.flows, h.flows', h.offset⟩

section DispatchFrom

variable {limit : Nat} {h : Handler σ ε}

/-- A dispatch ends with the error behind the frames. -/
theorem dispatchFrom_of_error {e : DecodeError} (hf : Decode.frame limit d = .error e d') (count : Nat) (s : σ) :
    (d.dispatchFrom limit h count s).outcome = (e.verdict count).mapError h.ofDecodeError ∧
      (d.dispatchFrom limit h count s).state = s := by
  unfold dispatchFrom
  rw [hf]
  cases e <;> exact ⟨rfl, rfl⟩

/-- A dispatch ends with the first action that fails. -/
theorem dispatchFrom_of_refused {f : Frame} {e : ε} {s s' : σ} (hf : Decode.frame limit d = .ok f d')
    (hh : h.handle f s = .error e s') (count : Nat) :
    (d.dispatchFrom limit h count s).outcome = .error e ∧ (d.dispatchFrom limit h count s).state = s' := by
  unfold dispatchFrom
  rw [hf]
  dsimp only
  rw [hh]
  exact ⟨rfl, rfl⟩

/-- A dispatch goes on behind an action that succeeds. -/
theorem dispatchFrom_of_handled {f : Frame} {u : Unit} {s s' : σ} (hf : Decode.frame limit d = .ok f d')
    (hh : h.handle f s = .ok u s') (count : Nat) :
    d.dispatchFrom limit h count s = (d'.remark (h.remarks f.event)).dispatchFrom limit h (count + 1) s' := by
  rw [dispatchFrom, hf]
  dsimp only
  rw [hh]

/-- What holds of the state and is kept by every action, also by one that fails, holds of the state at the end. -/
theorem dispatchFrom_invariant {P : σ → Prop}
    (hstep : ∀ f s, P s → ∃ s', P s' ∧ (h.handle f s = .ok () s' ∨ ∃ e, h.handle f s = .error e s'))
    {s : σ} (hs : P s) (count : Nat) (d : Decoder) : P (d.dispatchFrom limit h count s).state := by
  fun_induction Decoder.dispatchFrom limit h count d s with
  | case1 count d s d₁ hf => exact hs
  | case2 count d s e d₁ hne hf => exact hs
  | case3 count d s f d₁ hf e s' hh =>
    obtain ⟨s₁, hs₁, hok | ⟨e₁, herror⟩⟩ := hstep f s hs
    · rw [hok] at hh
      cases hh
    · rw [herror] at hh
      cases hh
      exact hs₁
  | case4 count d s f d₁ hf u s' hh ih =>
    obtain ⟨s₁, hs₁, hok | ⟨e₁, herror⟩⟩ := hstep f s hs
    · rw [hok] at hh
      cases hh
      exact ih hs₁
    · rw [herror] at hh
      cases hh

end DispatchFrom

/-- A dispatch comes to what handling the decoded frames comes to. -/
theorem dispatchFrom_eq (hd : d.source.Flows) (limit : Nat) (h : Handler σ ε) (count : Nat) (s : σ) :
    (d.dispatchFrom limit h count s).outcome =
        (h.handleAll (d.frames limit).2.1 count (d.frames limit).1 s).1 ∧
      (d.dispatchFrom limit h count s).state =
        (h.handleAll (d.frames limit).2.1 count (d.frames limit).1 s).2 := by
  fun_induction Decoder.dispatchFrom limit h count d s with
  | case1 count d s d₁ hf =>
    rw [frames_of_error (Decode.run_eq_error.2 hf)]
    exact ⟨rfl, rfl⟩
  | case2 count d s e d₁ hne hf =>
    rw [frames_of_error (Decode.run_eq_error.2 hf)]
    dsimp only [Handler.handleAll]
    rw [DecodeError.verdict_of_ne hne]
    exact ⟨rfl, rfl⟩
  | case3 count d s f d₁ hf e s' hh =>
    rw [frames_of_ok (Decode.run_eq_ok.2 hf), Handler.handleAll_of_error hh]
    exact ⟨rfl, rfl⟩
  | case4 count d s f d₁ hf u s' hh ih =>
    have hd₁ := (Decode.regular_frame limit).flows hd (Decode.run_eq_ok.2 hf)
    have hremark := (Alike.refl hd₁).remark (h.remarks f.event)
    obtain ⟨hframes, herror⟩ := hremark.frames limit
    rw [frames_of_ok (Decode.run_eq_ok.2 hf), Handler.handleAll_of_ok hh, ← hframes, ← herror]
    exact ih hremark.flows'

/-- What a trace comes to: how many frames there are in front of its clean end, or the first error. -/
def result (limit : Nat) (d : Decoder) : Except DecodeError Nat :=
  (d.frames limit).2.1.verdict (d.frames limit).1.length

theorem Alike.result (h : d.Alike d') (limit : Nat) : d'.result limit = d.result limit := by
  obtain ⟨hframes, herror⟩ := h.frames limit
  unfold Decoder.result
  rw [hframes, herror]

/-- A dispatch to a handler whose state is a function of the frames that were handled. -/
theorem dispatch_of_history (hd : d.source.Flows) (limit : Nat) {h : Handler σ ε} {after : List Frame → σ}
    (hstep : ∀ past f, h.handle f (after past) = .ok () (after (past ++ [f]))) :
    (d.dispatch limit h (after [])).outcome = (d.result limit).mapError h.ofDecodeError ∧
      (d.dispatch limit h (after [])).state = after (d.frames limit).1 := by
  obtain ⟨houtcome, hstate⟩ := dispatchFrom_eq hd limit h 0 (after [])
  rw [Handler.handleAll_eq hstep, Nat.zero_add] at houtcome
  rw [Handler.handleAll_eq hstep, List.nil_append] at hstate
  exact ⟨houtcome, hstate⟩

end Decoder

end NodeTrace
