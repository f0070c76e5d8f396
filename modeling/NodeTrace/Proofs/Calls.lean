import NodeTrace.Proofs.Dispatch

/-!
# A dispatch folds the handler over the iterator

A dispatch calls the handler with what pulling yields, in this order, until nothing more is yielded, an error is, or a
call fails (`Handler.Stops`).  What it hands over is told by a handler that puts down each call as the frame of which its
method would be called (`Handler.recording`).  Behind a call that fails, the decoder stands at the end of the frame, and
goes on as if there had been no dispatch (`Decoder.Behind`).
-/

namespace NodeTrace

/-! ## Iteration -/

/-- Pulling yields these frames, one after the other. -/
inductive Decoder.Yields (limit : Nat) : Decoder → List Frame → Decoder → Prop where
  | nil (d : Decoder) : Yields limit d [] d
  | cons {d d₁ d₂ : Decoder} {f : Frame} {fs : List Frame} (hpull : d.pull limit = (some (.ok f), d₁))
      (hrest : Yields limit d₁ fs d₂) : Yields limit d (f :: fs) d₂

/-- The decoder `d'` stands behind the frames `fs`, which are the next ones of `d`: all bytes of them were passed and no
other, and calls for more frames are answered as they are answered behind `fs`. -/
structure Decoder.Behind (limit : Nat) (fs : List Frame) (d d' : Decoder) : Prop where
  spelled : ∃ ws : List Written.Frame, (∀ w ∈ ws, w.WellFormed limit) ∧ fs = ws.map Written.Frame.meaning ∧
    d.source.unread = ws.flatMap Written.Frame.bytes ++ d'.source.unread ∧
    d'.offset = d.offset + (ws.flatMap Written.Frame.bytes).length
  answers : (d.replies limit fs.length).map (·.answer) = fs.map .ok
  replies : ∀ n, d.replies limit (fs.length + n) = d.replies limit fs.length ++ d'.replies limit n

namespace Decoder

variable {limit : Nat} {d d' d₁ : Decoder} {f : Frame} {fs : List Frame}

theorem pull_eq_ok_iff : d.pull limit = (some (.ok f), d₁) ↔ Decode.frame limit d = .ok f d₁ := by
  unfold pull
  cases Decode.frame limit d with
  | ok f' d' => simp
  | error e d' => cases e <;> simp

theorem pull_eq_none_iff : d.pull limit = (none, d₁) ↔ Decode.frame limit d = .error .endOfStream d₁ := by
  unfold pull
  cases Decode.frame limit d with
  | ok f' d' => simp
  | error e d' => cases e <;> simp

theorem pull_eq_error_iff {e : DecodeError} :
    d.pull limit = (some (.error e), d₁) ↔ Decode.frame limit d = .error e d₁ ∧ e ≠ .endOfStream := by
  unfold pull
  cases Decode.frame limit d with
  | ok f' d' => simp
  | error e' d' =>
    constructor
    · intro h
      cases e' <;> cases h <;> exact ⟨rfl, nofun⟩
    · rintro ⟨h, he⟩
      cases h
      cases e <;> first | rfl | exact absurd rfl he

/-- Decoders that are alike are pulled alike. -/
theorem Alike.pull {r : Option (Except DecodeError Frame)} (h : d.Alike d') (hr : d.pull limit = (r, d₁)) :
    ∃ d₁', d'.pull limit = (r, d₁') ∧ d₁.Alike d₁' := by
  obtain ⟨answer, d₂, hrun⟩ := Decode.exists_run (Decode.frame limit) d
  obtain ⟨d₂', hrun', h₂⟩ := (Decode.regular_frame limit).run_alike h hrun
  unfold Decoder.pull at hr ⊢
  cases answer with
  | ok f =>
    rw [Decode.run_eq_ok.1 hrun] at hr
    rw [Decode.run_eq_ok.1 hrun']
    cases hr
    exact ⟨d₂', rfl, h₂⟩
  | error e =>
    rw [Decode.run_eq_error.1 hrun] at hr
    rw [Decode.run_eq_error.1 hrun']
    cases e <;> cases hr <;> exact ⟨d₂', rfl, h₂⟩

theorem Yields.concat (h : d.Yields limit fs d₁) (hpull : d₁.pull limit = (some (.ok f), d')) :
    d.Yields limit (fs ++ [f]) d' := by
  induction h with
  | nil d => exact .cons hpull (.nil d')
  | cons hfirst _ ih => exact .cons hfirst (ih hpull)

theorem Behind.nil (d : Decoder) : d.Behind limit [] d where
  spelled := ⟨[], nofun, rfl, rfl, rfl⟩
  answers := rfl
  replies n := by rw [List.length_nil, Nat.zero_add]; rfl

theorem Behind.cons (hf : Decode.frame limit d = .ok f d₁) (h : d₁.Behind limit fs d') :
    d.Behind limit (f :: fs) d' := by
  have hfirst (n : Nat) : d.replies limit (n + 1) = (Decode.frame limit).reply d :: d₁.replies limit n := by
    rw [Decoder.replies, Decode.run_eq_ok.2 hf]
  obtain ⟨w, hread, hunread, hoffset⟩ :=
    (Decode.regular_frame limit).reads_of_ok (Decode.flows_of_frame hf) (Decode.run_eq_ok.2 hf)
  obtain ⟨u, hu, rfl, rfl⟩ := Decode.reads_frame_iff.1 hread
  obtain ⟨ws, hws, rfl, hrest, hend⟩ := h.spelled
  refine ⟨⟨u :: ws, List.forall_mem_cons.2 ⟨hu, hws⟩, rfl, ?_, ?_⟩, ?_, fun n => ?_⟩
  · rw [hunread, hrest, List.flatMap_cons, List.append_assoc]
  · rw [hend, hoffset, List.flatMap_cons, List.length_append, Nat.add_assoc]
  · rw [List.length_cons, hfirst, List.map_cons, h.answers, Decode.reply, Decode.run_eq_ok.2 hf, List.map_cons]
  · rw [List.length_cons, Nat.add_right_comm, hfirst, hfirst, h.replies n, List.cons_append]

/-- An iterator stands behind what it has yielded. -/
theorem Yields.behind (h : d.Yields limit fs d₁) : d.Behind limit fs d₁ := by
  induction h with
  | nil d => exact .nil d
  | cons hpull _ ih => exact .cons (pull_eq_ok_iff.1 hpull) ih

theorem Behind.alike (h : d.Behind limit fs d₁) (halike : d₁.Alike d') : d.Behind limit fs d' where
  spelled := by
    rw [halike.source.unread, halike.offset]
    exact h.spelled
  answers := h.answers
  replies n := by rw [halike.replies, h.replies]

end Decoder

/-! ## Calls -/

namespace Handler

variable {σ ε : Type}

/-- How calls end when `count` of them have succeeded: nothing is yielded any more, an error is, or the call with the
next frame fails. -/
inductive Stops (limit : Nat) (h : Handler σ ε) (count : Nat) (d : Decoder) (s : σ) :
    Option Frame → Decoder → Except ε Nat → σ → Prop where
  | ended {d' : Decoder} (hpull : d.pull limit = (none, d')) : Stops limit h count d s none d' (.ok count) s
  | failed {e : DecodeError} {d' : Decoder} (hpull : d.pull limit = (some (.error e), d')) :
      Stops limit h count d s none d' (.error (h.ofDecodeError e)) s
  | refused {f : Frame} {e : ε} {d' : Decoder} {s' : σ} (hpull : d.pull limit = (some (.ok f), d'))
      (hcall : h.handle f s = .error e s') : Stops limit h count d s (some f) d' (.error e) s'

/-- Act on one part of the state, and put down the frame in the other. -/
def noting (f : Frame) (act : EStateM ε σ Unit) : EStateM ε (σ × List Frame) Unit := fun s =>
  match act s.1 with
  | .ok u s' => .ok u (s', s.2 ++ [f])
  | .error e s' => .error e (s', s.2 ++ [f])

/-- A handler that puts down each call of a method as a frame of the kind of this method with the arguments of the
call. -/
def recording (h : Handler σ ε) : Handler (σ × List Frame) ε where
  unknown scope tag length := noting ⟨scope, .unknown tag length⟩ (h.unknown scope tag length)
  monitorCreate scope calibration := noting ⟨scope, .monitorCreate calibration⟩ (h.monitorCreate scope calibration)
  monitorState scope change := noting ⟨scope, .monitorState change⟩ (h.monitorState scope change)
  monitorData scope attachment := noting ⟨scope, .monitorData attachment⟩ (h.monitorData scope attachment)
  nodeCreate scope := noting ⟨scope, .nodeCreate⟩ (h.nodeCreate scope)
  nodeDestroy scope := noting ⟨scope, .nodeDestroy⟩ (h.nodeDestroy scope)
  nodePosition scope position := noting ⟨scope, .nodePosition position⟩ (h.nodePosition scope position)
  ofDecodeError := h.ofDecodeError
  remarks := h.remarks

variable {limit count : Nat} {h : Handler σ ε} {d d' d₁ d₂ : Decoder} {s s₁ t : σ} {fs : List Frame}
  {last : Option Frame} {r : Except ε Nat}

/-- The method that is called for a frame is that of its kind, with its scope and what it carries. -/
theorem handle_recording (h : Handler σ ε) (f : Frame) : h.recording.handle f = noting f (h.handle f) := by
  obtain ⟨scope, event⟩ := f
  cases event <;> rfl

/-- Frames are handled if the first one is, and the others from the state that this leaves. -/
theorem forM_cons_eq_ok_iff {act : Frame → EStateM ε σ Unit} {f : Frame} :
    ((f :: fs).forM act).run s = .ok () s₁ ↔
      ∃ s', (act f).run s = .ok () s' ∧ (fs.forM act).run s' = .ok () s₁ := by
  show EStateM.bind (act f) (fun _ => fs.forM act) s = _ ↔ _
  unfold EStateM.bind EStateM.run
  cases act f s with
  | ok u s' => simp
  | error e s' => simp

theorem forM_recording (hfs : (fs.forM h.handle).run s = .ok () s₁) (calls : List Frame) :
    (fs.forM h.recording.handle).run (s, calls) = .ok () (s₁, calls ++ fs) := by
  induction fs generalizing s calls with
  | nil =>
    cases hfs
    rw [List.append_nil]
    rfl
  | cons f fs ih =>
    obtain ⟨s', hf, hfs⟩ := forM_cons_eq_ok_iff.1 hfs
    have hnoted : (h.recording.handle f).run (s, calls) = .ok () (s', calls ++ [f]) := by
      show h.recording.handle f (s, calls) = _
      rw [handle_recording, noting, show h.handle f s = .ok () s' from hf]
    have hrest := ih hfs (calls ++ [f])
    rw [List.append_assoc] at hrest
    exact forM_cons_eq_ok_iff.2 ⟨_, hnoted, hrest⟩

theorem Stops.recording (hstops : h.Stops limit count d s last d₂ r t) (calls : List Frame) :
    h.recording.Stops limit count d (s, calls) last d₂ r (t, calls ++ last.toList) := by
  cases hstops with
  | ended hpull =>
    rw [Option.toList_none, List.append_nil]
    exact .ended hpull
  | failed hpull =>
    rw [Option.toList_none, List.append_nil]
    exact .failed hpull
  | refused hpull hcall =>
    refine .refused hpull ?_
    rw [handle_recording, noting, hcall]
    rfl

/-- Iteration goes on until it stops, since every frame has some bytes. -/
theorem exists_stops (limit : Nat) (h : Handler σ ε) (count : Nat) (d : Decoder) (s : σ) :
    ∃ fs d₁ s₁ last d₂ r t, d.Yields limit fs d₁ ∧ (fs.forM h.handle).run s = .ok () s₁ ∧
      h.Stops limit (count + fs.length) d₁ s₁ last d₂ r t := by
  induction hn : d.unread using Nat.strongRecOn generalizing count d s with
  | ind n ih =>
    obtain ⟨answer, d', hpull⟩ : ∃ answer d', d.pull limit = (answer, d') := ⟨_, _, rfl⟩
    cases answer with
    | none => exact ⟨[], d, s, none, d', _, s, .nil d, rfl, .ended hpull⟩
    | some answer =>
      cases answer with
      | error e => exact ⟨[], d, s, none, d', _, s, .nil d, rfl, .failed hpull⟩
      | ok f =>
        cases hf : h.handle f s with
        | error e s' => exact ⟨[], d, s, some f, d', _, s', .nil d, rfl, .refused hpull hf⟩
        | ok u s' =>
          have hless := Decode.consumes_frame limit (Decoder.pull_eq_ok_iff.1 hpull)
          obtain ⟨fs, d₁, s₁, last, d₂, r, t, hyields, hfs, hstops⟩ :=
            ih d'.unread (by omega) (count + 1) d' s' rfl
          rw [Nat.add_assoc, Nat.add_comm 1] at hstops
          exact ⟨f :: fs, d₁, s₁, last, d₂, r, t, .cons hpull hyields, forM_cons_eq_ok_iff.2 ⟨s', hf, hfs⟩, hstops⟩

theorem Stops.alike (hstops : h.Stops limit count d s last d₂ r t) (halike : d.Alike d') :
    ∃ d₂', h.Stops limit count d' s last d₂' r t ∧ d₂.Alike d₂' := by
  cases hstops with
  | ended hpull =>
    obtain ⟨d₂', hpull', h₂⟩ := halike.pull hpull
    exact ⟨d₂', .ended hpull', h₂⟩
  | failed hpull =>
    obtain ⟨d₂', hpull', h₂⟩ := halike.pull hpull
    exact ⟨d₂', .failed hpull', h₂⟩
  | refused hpull hcall =>
    obtain ⟨d₂', hpull', h₂⟩ := halike.pull hpull
    exact ⟨d₂', .refused hpull' hcall, h₂⟩

end Handler

/-- What a dispatch has come to: an outcome, a state, and a decoder that stands where the decoder `d` does. -/
structure Dispatched.ComesTo {σ ε : Type} (out : Dispatched σ ε) (r : Except ε Nat) (t : σ) (d : Decoder) : Prop where
  outcome : out.outcome = r
  state : out.state = t
  source : d.source.SameBytes out.decoder.source
  offset : out.decoder.offset = d.offset
  flows : d.source.Flows → out.decoder.source.Flows

namespace Decoder

variable {σ ε : Type} {limit count : Nat} {h : Handler σ ε} {d d' d₁ d₂ : Decoder} {s s₁ t : σ} {fs : List Frame}
  {last : Option Frame} {r : Except ε Nat}

/-- A dispatch stops as iteration does. -/
theorem dispatchFrom_of_stops (hstops : h.Stops limit count d s last d₂ r t) :
    (d.dispatchFrom limit h count s).ComesTo r t d₂ := by
  cases hstops with
  | ended hpull =>
    unfold dispatchFrom
    rw [pull_eq_none_iff.1 hpull]
    exact ⟨rfl, rfl, ⟨rfl, rfl, rfl⟩, rfl, id⟩
  | @failed e _ hpull =>
    obtain ⟨hf, hne⟩ := pull_eq_error_iff.1 hpull
    unfold dispatchFrom
    rw [hf]
    cases e with
    | endOfStream => exact absurd rfl hne
    | _ => exact ⟨rfl, rfl, ⟨rfl, rfl, rfl⟩, rfl, id⟩
  | refused hpull hcall =>
    unfold dispatchFrom
    rw [pull_eq_ok_iff.1 hpull]
    dsimp only
    rw [hcall]
    exact ⟨rfl, rfl, ⟨rfl, rfl, rfl⟩, rfl, id⟩

/-- A dispatch handles what is yielded beside it, and then stops; the records that it makes do not count. -/
theorem dispatchFrom_of_alike (halike : d.Alike d') (hyields : d.Yields limit fs d₁)
    (hfs : (fs.forM h.handle).run s = .ok () s₁) (hstops : h.Stops limit (count + fs.length) d₁ s₁ last d₂ r t) :
    (d'.dispatchFrom limit h count s).ComesTo r t d₂ := by
  induction hyields generalizing d' s count with
  | nil d =>
    cases hfs
    obtain ⟨d₂', hstops', h₂⟩ := hstops.alike halike
    obtain ⟨houtcome, hstate, hsource, hoffset, hflows⟩ := dispatchFrom_of_stops hstops'
    exact ⟨houtcome, hstate, h₂.source.trans hsource, hoffset.trans h₂.offset, fun _ => hflows h₂.flows'⟩
  | @cons d d₀ d₁ f fs hpull hyields ih =>
    obtain ⟨d₀', hpull', h₀⟩ := halike.pull hpull
    obtain ⟨s', hf, hfs⟩ := Handler.forM_cons_eq_ok_iff.1 hfs
    rw [dispatchFrom_of_handled (pull_eq_ok_iff.1 hpull') hf]
    rw [List.length_cons, Nat.add_comm fs.length, ← Nat.add_assoc] at hstops
    exact ih (h₀.remark _) hfs hstops

/-- A dispatch handles what an iterator would yield, and then stops as it does. -/
theorem dispatch_of_yields (hyields : d.Yields limit fs d₁) (hfs : (fs.forM h.handle).run s = .ok () s₁)
    (hstops : h.Stops limit fs.length d₁ s₁ last d₂ r t) : (d.dispatch limit h s).ComesTo r t d₂ := by
  have hall : h.Stops limit (0 + fs.length) d₁ s₁ last d₂ r t := by rwa [Nat.zero_add]
  cases hyields with
  | nil =>
    cases hfs
    exact dispatchFrom_of_stops hall
  | cons hpull hrest =>
    exact dispatchFrom_of_alike (.refl (Decode.flows_of_frame (pull_eq_ok_iff.1 hpull))) (.cons hpull hrest) hfs hall

end Decoder

/-- A dispatch is the fold of a handler over an iterator.  The frames that pulling yields are handed over in their order,
each once and to the method of its kind, and the calls go on until nothing more is yielded, which is a success and tells
the number of calls, or an error is yielded, which is converted, or a call fails.  Then no other call was made, the bytes
of the frames up to that one and no more were passed, and who calls for frames is answered as behind this frame. -/
theorem dispatch_folds {σ ε : Type} (limit : Nat) (h : Handler σ ε) (d : Decoder) (s : σ) :
    ∃ fs d₁ s₁ last d₂, d.Yields limit fs d₁ ∧ (fs.forM h.handle).run s = .ok () s₁ ∧
      h.Stops limit fs.length d₁ s₁ last d₂ (d.dispatch limit h s).outcome (d.dispatch limit h s).state ∧
      d₂.source.SameBytes (d.dispatch limit h s).decoder.source ∧ (d.dispatch limit h s).decoder.offset = d₂.offset ∧
      (d.dispatch limit h.recording (s, [])).outcome = (d.dispatch limit h s).outcome ∧
      (d.dispatch limit h.recording (s, [])).state = ((d.dispatch limit h s).state, fs ++ last.toList) ∧
      ∀ f, last = some f → d.Behind limit (fs ++ [f]) (d.dispatch limit h s).decoder := by
  obtain ⟨fs, d₁, s₁, last, d₂, r, t, hyields, hfs, hstops⟩ := h.exists_stops limit 0 d s
  rw [Nat.zero_add] at hstops
  have hcomes := Decoder.dispatch_of_yields hyields hfs hstops
  have hrecorded := Decoder.dispatch_of_yields hyields (Handler.forM_recording hfs []) (hstops.recording _)
  refine ⟨fs, d₁, s₁, last, d₂, hyields, hfs, ?_, hcomes.source, hcomes.offset, ?_, ?_, fun f hlast => ?_⟩
  · rw [hcomes.outcome, hcomes.state]
    exact hstops
  · rw [hrecorded.outcome, hcomes.outcome]
  · rw [hrecorded.state, hcomes.state, List.nil_append]
  · subst hlast
    cases hstops with
    | refused hpull hcall =>
      have hf := Decoder.pull_eq_ok_iff.1 hpull
      have hd₂ := (Decode.regular_frame limit).flows (Decode.flows_of_frame hf) (Decode.run_eq_ok.2 hf)
      exact (hyields.concat hpull).behind.alike ⟨hcomes.source, hd₂, hcomes.flows hd₂, hcomes.offset⟩

end NodeTrace
