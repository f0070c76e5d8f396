import NodeTrace.Proofs.Elements

/-!
# Decoding reads the frames that are written

A scope run is read as the fold of its elements (`reads_scopeRun_iff`), and a frame as what it means
(`reads_frame_iff`).  The trace ends cleanly in front of a frame and nowhere else (`answers_frame_runsOut`).
-/

namespace NodeTrace.Decode

open Written (HeadFits EventAllows)

/-! ## Scope runs -/

/-- The header of the next element of a run. -/
def nextHeader (first : Bool) : Decode ElementHeader := if first then elementHeader else elementHeader.inside

theorem regular_elementHeader : Regular elementHeader :=
  fixed_word16.regular.bind fun control => (fixed_behindControl control).regular

theorem regular_nextHeader (first : Bool) : Regular (nextHeader first) := by
  cases first with
  | true => exact regular_elementHeader
  | false => exact regular_elementHeader.inside

theorem reads_nextHeader_iff {first : Bool} {w : List UInt8} {r : Except DecodeError ElementHeader} :
    Reads (nextHeader first) w r ↔
      ∃ tag wide n, HeadFits tag wide n ∧ w = Written.head tag wide n ∧ r = .ok ⟨tag, UInt32.ofNat n⟩ := by
  cases first with
  | true => exact reads_elementHeader_iff
  | false => exact (reads_inside_iff regular_elementHeader).trans reads_elementHeader_iff

/-- The rest of a scope run behind the header of one of its elements. -/
def behindHeader (scope : Scope) (h : ElementHeader) : Decode Scope :=
  if h.tag = 0 then pure scope else (scopeElement h scope).inside >>= scopeRun false

theorem behindHeader_separator (scope : Scope) {h : ElementHeader} (h0 : h.tag = 0) :
    behindHeader scope h = pure scope := if_pos h0

theorem behindHeader_element (scope : Scope) {h : ElementHeader} (h0 : h.tag ≠ 0) :
    behindHeader scope h = (scopeElement h scope).inside >>= scopeRun false := if_neg h0

theorem scopeRun_eq (first : Bool) (scope : Scope) :
    scopeRun first scope = nextHeader first >>= behindHeader scope := by
  funext d
  rw [scopeRun]
  show _ = EStateM.bind (nextHeader first) _ d
  have hnext : nextHeader first d = match elementHeader d with
      | .ok h d' => .ok h d'
      | .error e d' => .error (if first then e else e.inside) d' := by
    cases first with
    | true =>
      show elementHeader d = _
      cases elementHeader d <;> rfl
    | false =>
      show elementHeader.inside d = _
      unfold inside
      cases elementHeader d <;> rfl
  unfold EStateM.bind
  rw [hnext]
  cases hh : elementHeader d with
  | error e d₁ => rfl
  | ok h d₁ =>
    dsimp only
    unfold ElementHeader.isSeparator
    by_cases h0 : h.tag = 0
    · rw [if_pos (decide_eq_true (show h.tag = Format.separatorTag from h0)), behindHeader_separator scope h0]
      rfl
    · have hb : ¬ decide (h.tag = Format.separatorTag) = true := fun h' => h0 (of_decide_eq_true h')
      rw [if_neg hb, behindHeader_element scope h0]
      show _ = EStateM.bind (scopeElement h scope).inside (scopeRun false) d₁
      unfold EStateM.bind
      cases hs : (scopeElement h scope).inside d₁ <;> rfl

theorem regular_scopeRun (first : Bool) (scope : Scope) : Regular (scopeRun first scope) := by
  have key : ∀ n (b : List UInt8), b.length = n → ∀ first scope, Settled (scopeRun first scope) b := by
    intro n
    induction n using Nat.strongRecOn with
    | ind n ih =>
      intro b hb first scope
      rw [scopeRun_eq]
      refine (regular_nextHeader first b).bind fun h u v hbu hu => ?_
      by_cases h0 : h.tag = 0
      · rw [behindHeader_separator scope h0]
        exact (fixed_pure scope).regular v
      · rw [behindHeader_element scope h0]
        refine ((regular_scopeElement h0 scope).inside v).bind fun scope' u' v' hv _ => ?_
        obtain ⟨tag, wide, k, -, rfl, -⟩ := reads_nextHeader_iff.1 hu
        refine ih v'.length ?_ v' rfl false scope'
        rw [← hb, hbu, hv, Written.head]
        simp only [List.length_append, BigEndian.length_ofNat]
        omega
  exact fun b => key b.length b rfl first scope

theorem regular_behindHeader (scope : Scope) (h : ElementHeader) : Regular (behindHeader scope h) := by
  by_cases h0 : h.tag = 0
  · rw [behindHeader_separator scope h0]
    exact (fixed_pure scope).regular
  · rw [behindHeader_element scope h0]
    exact (regular_scopeElement h0 scope).inside.bind (regular_scopeRun false)

theorem reads_scopeRun {run : List Written.Element} (hrun : ∀ e ∈ run, e.Fits ∧ e.InScope) (closing : Bool)
    (first : Bool) (scope : Scope) :
    Reads (scopeRun first scope) (run.flatMap Written.Element.bytes ++ Written.separator closing)
      (.ok (run.foldl Written.Element.intoScope scope)) := by
  induction run generalizing first scope with
  | nil =>
    have hsep : Reads (nextHeader first) (Written.separator closing) (.ok ⟨0, 0⟩) := by
      refine reads_nextHeader_iff.2 ⟨0, closing, 0, ⟨by decide, Nat.one_pos⟩, ?_, rfl⟩
      cases closing <;> rfl
    have hpure := fixed_pure scope [] rfl
    rw [scopeRun_eq, List.flatMap_nil, List.nil_append, ← List.append_nil (Written.separator closing)]
    exact hsep.bind (by rw [behindHeader_separator scope rfl]; exact hpure)
  | cons e run ih =>
    obtain ⟨hf, hs⟩ := hrun e List.mem_cons_self
    have h0 : e.tag ≠ 0 := by
      intro h0
      rw [Written.Element.InScope, h0] at hs
      exact hs
    have hhead : Reads (nextHeader first) (Written.head e.tag e.wide e.payload.length)
        (.ok ⟨e.tag, UInt32.ofNat e.payload.length⟩) :=
      reads_nextHeader_iff.2 ⟨_, _, _, hf, rfl, rfl⟩
    have hrest := ih (fun e he => hrun e (List.mem_cons_of_mem _ he)) false (e.intoScope scope)
    rw [scopeRun_eq, List.flatMap_cons, Written.Element.bytes, List.append_assoc, List.append_assoc]
    refine hhead.bind ?_
    rw [behindHeader_element scope h0]
    exact (reads_scopeElement hf hs scope).inside.bind hrest

/-- A scope run is read as the fold of its elements. -/
theorem reads_scopeRun_iff {first : Bool} {scope scope' : Scope} {w : List UInt8} :
    Reads (scopeRun first scope) w (.ok scope') ↔
      ∃ (run : List Written.Element) (closing : Bool), (∀ e ∈ run, e.Fits ∧ e.InScope) ∧
        w = run.flatMap Written.Element.bytes ++ Written.separator closing ∧
        scope' = run.foldl Written.Element.intoScope scope := by
  constructor
  · have key : ∀ n (w : List UInt8), w.length = n → ∀ first scope, Reads (scopeRun first scope) w (.ok scope') →
        ∃ (run : List Written.Element) (closing : Bool), (∀ e ∈ run, e.Fits ∧ e.InScope) ∧
          w = run.flatMap Written.Element.bytes ++ Written.separator closing ∧
          scope' = run.foldl Written.Element.intoScope scope := by
      intro n
      induction n using Nat.strongRecOn with
      | ind n ih =>
        intro w hn first scope h
        rw [scopeRun_eq] at h
        rcases h.bind_inv (regular_nextHeader first) (regular_behindHeader scope) with
          ⟨e, he, -⟩ | ⟨header, u, v, rfl, hu, hv⟩
        · cases he
        · obtain ⟨tag, wide, k, hfit, rfl, hheader⟩ := reads_nextHeader_iff.1 hu
          cases hheader
          by_cases h0 : tag = 0
          · subst h0
            rw [behindHeader_separator scope rfl] at hv
            obtain ⟨hnil, hscope⟩ := (fixed_pure scope).reads_iff.1 hv
            cases hscope
            obtain rfl : k = 0 := Nat.lt_one_iff.1 hfit.length_lt
            refine ⟨[], wide, nofun, ?_, rfl⟩
            rw [List.length_eq_zero_iff.1 hnil]
            cases wide <;> rfl
          · rw [behindHeader_element scope h0] at hv
            rcases hv.bind_inv (regular_scopeElement h0 scope).inside (regular_scopeRun false) with
              ⟨e, he, -⟩ | ⟨next, u, v, rfl, hu, hv⟩
            · cases he
            · obtain ⟨rfl, hallows, rfl⟩ := scopeElement_of_reads hfit h0
                ((reads_inside_iff (regular_scopeElement h0 scope)).1 hu)
              obtain ⟨run, closing, hrun, rfl, rfl⟩ := ih v.length (by
                rw [← hn, Written.head]
                simp only [List.length_append, BigEndian.length_ofNat]
                omega) v rfl false _ hv
              refine ⟨⟨tag, wide, u⟩ :: run, closing, ?_, ?_, rfl⟩
              · intro e he
                rcases List.mem_cons.1 he with rfl | he
                · exact ⟨hfit, hallows⟩
                · exact hrun e he
              · rw [List.flatMap_cons, Written.Element.bytes, List.append_assoc, List.append_assoc]
    exact key w.length w rfl first scope
  · rintro ⟨run, closing, hrun, rfl, rfl⟩
    exact reads_scopeRun hrun closing first scope

/-! ## Frames -/

theorem regular_event (limit : Nat) : Regular (event limit) :=
  (regular_elementHeader.bind (regular_eventBody limit)).inside

/-- An event element is read as what is read behind its header. -/
theorem reads_event_body_iff {limit : Nat} {w : List UInt8} {r : Except DecodeError Event} :
    Reads (event limit) w r ↔
      ∃ tag wide n v, HeadFits tag wide n ∧ w = Written.head tag wide n ++ v ∧
        Reads (eventBody limit ⟨tag, UInt32.ofNat n⟩) v r := by
  rw [show event limit = (elementHeader >>= eventBody limit).inside from rfl,
    reads_inside_iff (regular_elementHeader.bind (regular_eventBody limit))]
  constructor
  · intro h
    rcases h.bind_inv regular_elementHeader (regular_eventBody limit) with ⟨e, -, he⟩ | ⟨header, u, v, rfl, hu, hv⟩
    · obtain ⟨tag, wide, n, -, -, hr⟩ := reads_elementHeader_iff.1 he
      cases hr
    · obtain ⟨tag, wide, n, hfit, rfl, hr⟩ := reads_elementHeader_iff.1 hu
      cases hr
      exact ⟨tag, wide, n, v, hfit, rfl, hv⟩
  · rintro ⟨tag, wide, n, v, hfit, rfl, hv⟩
    exact (reads_elementHeader_iff.2 ⟨tag, wide, n, hfit, rfl, rfl⟩).bind hv

/-- An event element is read as the event that it reports. -/
theorem reads_event_iff {limit : Nat} {w : List UInt8} {ev : Event} :
    Reads (event limit) w (.ok ev) ↔
      ∃ e : Written.Element, e.Fits ∧ e.InEvent limit ∧ w = e.bytes ∧ ev = e.event := by
  rw [reads_event_body_iff]
  constructor
  · rintro ⟨tag, wide, n, v, hfit, rfl, hv⟩
    have hlen := toNat_length hfit
    by_cases hh : EventAllows limit tag (UInt32.ofNat n).toNat
    · obtain ⟨hw, hev⟩ := (fixed_eventBody (h := ⟨tag, UInt32.ofNat n⟩) hh wide).reads_iff.1 hv
      cases hev
      rw [hlen] at hh
      obtain rfl : v.length = n := hw.trans hlen
      exact ⟨⟨tag, wide, v⟩, hfit, hh, rfl, rfl⟩
    · obtain ⟨m, e, he⟩ := eventBody_refuses (h := ⟨tag, UInt32.ofNat n⟩) hh
      cases (he.reads_iff.1 hv).2
  · rintro ⟨e, hfit, hin, rfl, rfl⟩
    have hlen := toNat_length hfit
    have hin : EventAllows limit e.tag (UInt32.ofNat e.payload.length).toNat := by rw [hlen]; exact hin
    exact ⟨e.tag, e.wide, e.payload.length, e.payload, hfit, rfl, fixed_eventBody hin e.wide e.payload hlen.symm⟩

/-- The rest of a frame behind its scope. -/
def behindScope (limit : Nat) (scope : Scope) : Decode Frame := event limit >>= fun ev => pure ⟨scope, ev⟩

theorem frame_eq (limit : Nat) : frame limit = scopeRun true {} >>= behindScope limit := rfl

theorem regular_behindScope (limit : Nat) (scope : Scope) : Regular (behindScope limit scope) :=
  (regular_event limit).bind fun _ => (fixed_pure _).regular

theorem regular_frame (limit : Nat) : Regular (frame limit) :=
  (regular_scopeRun true {}).bind (regular_behindScope limit)

/-- A frame is read as what it means. -/
theorem reads_frame_iff {limit : Nat} {w : List UInt8} {f : Frame} :
    Reads (frame limit) w (.ok f) ↔
      ∃ u : Written.Frame, u.WellFormed limit ∧ w = u.bytes ∧ f = u.meaning := by
  rw [frame_eq]
  constructor
  · intro h
    rcases h.bind_inv (regular_scopeRun true {}) (regular_behindScope limit) with
      ⟨e, he, -⟩ | ⟨scope, u, v, rfl, hu, hv⟩
    · cases he
    · rcases hv.bind_inv (regular_event limit) (fun ev => (fixed_pure _).regular) with
        ⟨e, he, -⟩ | ⟨ev, v, t, rfl, hev, ht⟩
      · cases he
      · obtain ⟨hnil, hf⟩ := (fixed_pure _).reads_iff.1 ht
        cases hf
        obtain ⟨run, closing, hrun, rfl, rfl⟩ := reads_scopeRun_iff.1 hu
        obtain ⟨e, hfit, hin, rfl, rfl⟩ := reads_event_iff.1 hev
        refine ⟨⟨run, closing, e⟩, ⟨hrun, hfit, hin⟩, ?_, rfl⟩
        rw [List.length_eq_zero_iff.1 hnil, List.append_nil]
        rfl
  · rintro ⟨⟨run, closing, e⟩, ⟨hrun, hfit, hin⟩, rfl, rfl⟩
    have hevent : Reads (event limit) e.bytes (.ok e.event) := reads_event_iff.2 ⟨e, hfit, hin, rfl, rfl⟩
    have hpure := fixed_pure (⟨Written.scope run, e.event⟩ : Frame) [] rfl
    have hrest : Reads (behindScope limit (Written.scope run)) (e.bytes ++ []) (.ok ⟨Written.scope run, e.event⟩) :=
      hevent.bind hpure
    rw [List.append_nil] at hrest
    exact (reads_scopeRun hrun closing true {}).bind hrest

/-- A frame is refused with its event element. -/
theorem reads_frame_refused {limit : Nat} {run : List Written.Element} (hrun : ∀ e ∈ run, e.Fits ∧ e.InScope)
    (closing : Bool) {v : List UInt8} {e : DecodeError} (h : Reads (event limit) v (.error e)) :
    Reads (frame limit) (run.flatMap Written.Element.bytes ++ Written.separator closing ++ v) (.error e) :=
  (reads_scopeRun hrun closing true {}).bind h.bind_error

theorem reads_frame {limit : Nat} {f : Written.Frame} (hf : f.WellFormed limit) :
    Reads (frame limit) f.bytes (.ok f.meaning) :=
  reads_frame_iff.2 ⟨f, hf, rfl, rfl⟩

/-! ## The clean end -/

/-- The step never meets the clean end. -/
def Closed {α : Type} (x : Decode α) : Prop := ∀ d d', x.run d ≠ (.error .endOfStream, d')

theorem closed_pure {α : Type} (a : α) : Closed (pure a) := fun _ _ h => by cases h

theorem closed_throw {α : Type} {e : DecodeError} (he : e ≠ .endOfStream) : Closed (throw e : Decode α) :=
  fun _ _ h => he (Except.error.inj (Prod.mk.inj h).1)

theorem closed_inside {α : Type} (x : Decode α) : Closed x.inside := by
  intro d d' h
  rw [run_inside] at h
  have he := (Prod.mk.inj h).1
  cases hr : (x.run d).1 with
  | ok a => rw [hr] at he; cases he
  | error e =>
    rw [hr] at he
    exact DecodeError.inside_ne_endOfStream e (Except.error.inj he)

/-- Of two steps only the first meets the clean end if the second never does. -/
theorem run_of_bind_endOfStream {α β : Type} {x : Decode α} {f : α → Decode β} {d d' : Decoder}
    (hf : ∀ a, Closed (f a)) (h : (x >>= f).run d = (.error .endOfStream, d')) :
    x.run d = (.error .endOfStream, d') := by
  rw [run_bind] at h
  split at h
  · exact absurd h (hf _ _ _)
  · rename_i hx
    cases h
    exact hx

theorem Closed.bind {α β : Type} {x : Decode α} {f : α → Decode β} (hx : Closed x) (hf : ∀ a, Closed (f a)) :
    Closed (x >>= f) := fun d d' h => hx d d' (run_of_bind_endOfStream hf h)

/-- A step that never meets the clean end is truncated by the end. -/
theorem Closed.answers_runsOut {α : Type} {x : Decode α} {w : List UInt8} (hx : Closed x) (h : RunsOut x w) :
    Answers x w .exhausted (.error .truncated) w.length w.length := by
  obtain ⟨e, he, ha⟩ := h.atEnd
  rcases he with rfl | rfl
  · obtain ⟨d', hd', -⟩ := ha { source := .ofBytes w } (Source.flows_ofBytes w) rfl rfl
    exact absurd hd' (hx _ _)
  · exact ha

theorem closed_behindControl (control : UInt16) : Closed (behindControl control) := by
  unfold behindControl
  split
  · exact closed_pure _
  · exact (closed_inside _).bind fun _ => closed_pure _

theorem ahead_of_take_endOfStream {n : Nat} (hn : n ≠ 0) {d d' : Decoder} (hd : d.source.Flows)
    (h : take n d = .error .endOfStream d') : d.source.ahead = [] := by
  simp only [take] at h
  split at h
  · cases h
  · split at h
    · rename_i hempty
      rw [(Source.gather_spec hd n).1, List.isEmpty_iff, List.take_eq_nil_iff] at hempty
      exact hempty.resolve_left hn
    · cases h
  · cases h

theorem ahead_of_elementHeader_endOfStream {d d' : Decoder} (hd : d.source.Flows)
    (h : elementHeader d = .error .endOfStream d') : d.source.ahead = [] := by
  have hword : word16.run d = (.error .endOfStream, d') :=
    run_of_bind_endOfStream closed_behindControl (run_eq_error.2 h)
  rw [word16, run_map, number, run_map] at hword
  cases htake : take 2 d with
  | ok w d₁ => rw [run_eq_ok.2 htake] at hword; cases hword
  | error e d₁ =>
    rw [run_eq_error.2 htake] at hword
    cases hword
    exact ahead_of_take_endOfStream (by decide) hd htake

/-- Only the first header of a run may meet the clean end. -/
theorem scopeRun_error {first : Bool} {scope : Scope} {d d' : Decoder} {e : DecodeError}
    (h : scopeRun first scope d = .error e d') :
    (first = true ∧ elementHeader d = .error e d') ∨ e ≠ .endOfStream := by
  fun_induction scopeRun first scope d with
  | case1 first scope d e' d₁ h₁ =>
    cases first with
    | true =>
      cases h
      exact .inl ⟨rfl, h₁⟩
    | false =>
      cases h
      exact .inr (DecodeError.inside_ne_endOfStream e')
  | case2 => cases h
  | case3 first scope d header d₁ h₁ hs e' d₂ h₂ =>
    cases h
    refine .inr fun he => closed_inside (scopeElement header scope) d₁ d' (run_eq_error.2 ?_)
    rw [h₂, he]
  | case4 first scope d header d₁ h₁ hs scope' d₂ h₂ ih =>
    rcases ih h with ⟨hf, -⟩ | hne
    · cases hf
    · exact .inr hne

theorem ahead_of_endOfStream {limit : Nat} {d d' : Decoder} (hd : d.source.Flows)
    (h : frame limit d = .error .endOfStream d') : d.source.ahead = [] := by
  have htail (scope : Scope) : Closed (behindScope limit scope) :=
    (closed_inside _).bind fun _ => closed_pure _
  rcases scopeRun_error (run_eq_error.1 (run_of_bind_endOfStream htail (run_eq_error.2 h))) with ⟨-, he⟩ | hne
  · exact ahead_of_elementHeader_endOfStream hd he
  · exact absurd rfl hne

/-- With no byte ahead, the end in front of a frame is clean. -/
theorem answers_frame_atEnd (limit : Nat) : Answers (frame limit) [] .exhausted (.error .endOfStream) 0 0 := by
  have htake : Answers (take 2) [] .exhausted (.error .endOfStream) 0 0 :=
    answers_take_atEnd (b := []) (n := 2) (by decide)
  have hheader : Answers (nextHeader true) [] .exhausted (.error .endOfStream) 0 0 :=
    Answers.bind_error ((htake.map BigEndian.toNat).map UInt16.ofNat)
  have hrun : Answers (scopeRun true {}) [] .exhausted (.error .endOfStream) 0 0 := by
    rw [scopeRun_eq]
    exact hheader.bind_error
  exact hrun.bind_error

/-- The end is clean if no byte is ahead, and the trace is truncated if there are some but too few. -/
theorem answers_frame_runsOut {limit : Nat} {b : List UInt8} (h : RunsOut (frame limit) b) :
    Answers (frame limit) b .exhausted (.error (if b = [] then .endOfStream else .truncated))
      b.length b.length := by
  obtain ⟨e, he, ha⟩ := h.atEnd
  by_cases hb : b = []
  · rw [if_pos hb]
    subst hb
    exact answers_frame_atEnd limit
  · rw [if_neg hb]
    rcases he with rfl | rfl
    · have hflows := Source.flows_ofBytes b
      obtain ⟨d', hd', -⟩ := ha { source := .ofBytes b } hflows rfl rfl
      exact absurd (ahead_of_endOfStream hflows (run_eq_error.1 hd')) hb
    · exact ha

end NodeTrace.Decode
