import NodeTrace.Decoder.Basic
import NodeTrace.Proofs.Delivery

/-!
# What a step of decoding reads

A step depends on its decoder only through the bytes ahead and the way the source closes behind them
(`Answers`).  A step `Reads` the bytes `w` as `r` if it uses exactly these bytes whatever follows them, and
runs out of bytes on every proper prefix of them (`RunsOut`).  A step is `Regular` if on all bytes it either
reads some of them or runs out; regular steps are closed under `>>=` (`Settled.bind`), and what a sequence of
steps reads comes apart into what each of them reads (`Reads.bind_inv`).  Steps that always read the same number
of bytes are `Fixed`; most steps are, and `Fixed` then says what is read as what.
-/

namespace NodeTrace.Decode

variable {α β : Type}

/-- What a step answers, and the decoder behind it. -/
def run (x : Decode α) (d : Decoder) : Except DecodeError α × Decoder :=
  match x d with
  | .ok a d' => (.ok a, d')
  | .error e d' => (.error e, d')

theorem exists_run (x : Decode α) (d : Decoder) : ∃ r d', x.run d = (r, d') := ⟨_, _, rfl⟩

theorem run_eq_ok {x : Decode α} {d d' : Decoder} {a : α} : x.run d = (.ok a, d') ↔ x d = .ok a d' := by
  unfold run
  cases x d with
  | ok b e => simp
  | error b e => simp

theorem run_eq_error {x : Decode α} {d d' : Decoder} {e : DecodeError} :
    x.run d = (.error e, d') ↔ x d = .error e d' := by
  unfold run
  cases x d with
  | ok b e => simp
  | error b e => simp

theorem run_bind (x : Decode α) (f : α → Decode β) (d : Decoder) :
    (x >>= f).run d = match x.run d with
      | (.ok a, d') => (f a).run d'
      | (.error e, d') => (.error e, d') := by
  show run (EStateM.bind x f) d = _
  unfold run EStateM.bind
  cases x d <;> rfl

theorem run_map (x : Decode α) (f : α → β) (d : Decoder) :
    (f <$> x).run d = ((x.run d).1.map f, (x.run d).2) := by
  show run (EStateM.map f x) d = _
  unfold run EStateM.map
  cases x d <;> rfl

theorem run_inside (x : Decode α) (d : Decoder) :
    x.inside.run d = ((x.run d).1.mapError DecodeError.inside, (x.run d).2) := by
  unfold run inside
  cases x d <;> rfl

/-- With the bytes `b` ahead of a close of kind `c`, the step answers `r`, passes `n` bytes and counts `k`. -/
def Answers (x : Decode α) (b : List UInt8) (c : Ending) (r : Except DecodeError α) (n k : Nat) : Prop :=
  ∀ d : Decoder, d.source.Flows → d.source.ahead = b → d.source.close = c →
    ∃ d', x.run d = (r, d') ∧ d.source.Advanced n d'.source ∧ d'.offset = d.offset + k

section Answers

variable {x : Decode α} {f : α → Decode β} {b : List UInt8} {c : Ending} {n k m l : Nat}

theorem Answers.bind {a : α} {r : Except DecodeError β} (hx : Answers x b c (.ok a) n k)
    (hf : Answers (f a) (b.drop n) c r m l) : Answers (x >>= f) b c r (n + m) (k + l) := by
  intro d hd hb hc
  obtain ⟨d₁, h₁, ha₁, ho₁⟩ := hx d hd hb hc
  obtain ⟨d₂, h₂, ha₂, ho₂⟩ := hf d₁ (ha₁.flows hd) (by rw [ha₁.ahead, hb]) (by rw [ha₁.close, hc])
  refine ⟨d₂, ?_, ha₁.trans ha₂, by rw [ho₂, ho₁, Nat.add_assoc]⟩
  rw [run_bind, h₁]
  exact h₂

theorem Answers.bind_error {e : DecodeError} (hx : Answers x b c (.error e) n k) :
    Answers (x >>= f) b c (.error e) n k := by
  intro d hd hb hc
  obtain ⟨d₁, h₁, ha₁, ho₁⟩ := hx d hd hb hc
  refine ⟨d₁, ?_, ha₁, ho₁⟩
  rw [run_bind, h₁]

theorem Answers.map {r : Except DecodeError α} (g : α → β) (hx : Answers x b c r n k) :
    Answers (g <$> x) b c (r.map g) n k := by
  intro d hd hb hc
  obtain ⟨d₁, h₁, ha₁, ho₁⟩ := hx d hd hb hc
  refine ⟨d₁, ?_, ha₁, ho₁⟩
  rw [run_map, h₁]

theorem Answers.inside {r : Except DecodeError α} (hx : Answers x b c r n k) :
    Answers x.inside b c (r.mapError DecodeError.inside) n k := by
  intro d hd hb hc
  obtain ⟨d₁, h₁, ha₁, ho₁⟩ := hx d hd hb hc
  refine ⟨d₁, ?_, ha₁, ho₁⟩
  rw [run_inside, h₁]

/-- A record made before a step, even of what the decoder looks like, changes nothing of its answer. -/
theorem Answers.noted {r : Except DecodeError α} (level : LogLevel) (text : Decoder → String)
    (hx : Answers x b c r n k) : Answers (get >>= fun d => note level (text d) >>= fun _ => x) b c r n k :=
  fun d hd hb hc => hx (d.note level (text d)) hd hb hc

theorem Answers.unique {r r' : Except DecodeError α} (h : Answers x b .exhausted r n k)
    (h' : Answers x b .exhausted r' m l) : r = r' ∧ n = m := by
  obtain ⟨d, hr, ha, -⟩ := h { source := .ofBytes b } nofun rfl rfl
  obtain ⟨d', hr', ha', -⟩ := h' { source := .ofBytes b } nofun rfl rfl
  rw [hr] at hr'
  obtain ⟨rfl, rfl⟩ := Prod.mk.inj hr'
  have hp := ha.position.symm.trans ha'.position
  exact ⟨rfl, Nat.add_left_cancel hp⟩

end Answers

/-- The bytes `b` are too few for the step: it passes all of them, and the end of the trace or the failure of the
source stops it. -/
structure RunsOut (x : Decode α) (b : List UInt8) : Prop where
  atEnd : ∃ e, (e = .endOfStream ∨ e = .truncated) ∧
    Answers x b .exhausted (.error e) b.length b.length
  atFailure : ∀ fault, ∃ k, Answers x b (.failed fault) (.error (.io fault)) b.length k

/-- The answer was not brought about by the end of the trace. -/
def Judged (r : Except DecodeError α) : Prop := r ≠ .error .endOfStream ∧ r ≠ .error .truncated

theorem judged_ok (a : α) : Judged (.ok a) := ⟨nofun, nofun⟩

/-- The step uses exactly the bytes `w` for its answer `r`, whatever follows them; fewer of them are too few. -/
structure Reads (x : Decode α) (w : List UInt8) (r : Except DecodeError α) : Prop where
  judged : Judged r
  whole : ∀ rest c, Answers x (w ++ rest) c r w.length w.length
  short : ∀ v, v <+: w → v ≠ w → RunsOut x v

section RunsOut

variable {x : Decode α} {f : α → Decode β} {b : List UInt8}

theorem RunsOut.bind (h : RunsOut x b) : RunsOut (x >>= f) b := by
  obtain ⟨⟨e, he, ha⟩, hf⟩ := h
  refine ⟨⟨e, he, ha.bind_error⟩, fun fault => ?_⟩
  obtain ⟨k, hk⟩ := hf fault
  exact ⟨k, hk.bind_error⟩

theorem RunsOut.map (g : α → β) (h : RunsOut x b) : RunsOut (g <$> x) b := by
  obtain ⟨⟨e, he, ha⟩, hf⟩ := h
  refine ⟨⟨e, he, ha.map g⟩, fun fault => ?_⟩
  obtain ⟨k, hk⟩ := hf fault
  exact ⟨k, hk.map g⟩

theorem RunsOut.inside (h : RunsOut x b) : RunsOut x.inside b := by
  obtain ⟨⟨e, he, ha⟩, hf⟩ := h
  refine ⟨⟨e.inside, .inr ?_, ha.inside⟩, fun fault => ?_⟩
  · rcases he with rfl | rfl <;> rfl
  · obtain ⟨k, hk⟩ := hf fault
    exact ⟨k, hk.inside⟩

/-- The first step succeeds and leaves too few bytes to the second. -/
theorem Reads.bind_runsOut {a : α} {w v : List UInt8} (hx : Reads x w (.ok a)) (hf : RunsOut (f a) v) :
    RunsOut (x >>= f) (w ++ v) := by
  obtain ⟨⟨e, he, ha⟩, hfail⟩ := hf
  refine ⟨⟨e, he, ?_⟩, fun fault => ?_⟩
  · rw [List.length_append]
    exact (hx.whole v _).bind (by rwa [List.drop_left])
  · obtain ⟨k, hk⟩ := hfail fault
    rw [List.length_append]
    exact ⟨w.length + k, (hx.whole v _).bind (by rwa [List.drop_left])⟩

theorem RunsOut.not_reads {r : Except DecodeError α} (h : RunsOut x b) : ¬ Reads x b r := by
  intro hr
  obtain ⟨e, he, ha⟩ := h.atEnd
  have hw := hr.whole [] .exhausted
  rw [List.append_nil] at hw
  obtain ⟨rfl, -⟩ := hw.unique ha
  rcases he with rfl | rfl
  · exact hr.judged.1 rfl
  · exact hr.judged.2 rfl

end RunsOut

namespace Reads

variable {x : Decode α} {f : α → Decode β} {w v : List UInt8}

/-- On the same bytes a step cannot read two things. -/
theorem unique {b : List UInt8} {r r' : Except DecodeError α} (h : Reads x w r) (h' : Reads x v r')
    (hw : w <+: b) (hv : v <+: b) : w = v ∧ r = r' := by
  obtain ⟨rest, rfl⟩ := hw
  obtain ⟨rest', hv⟩ := hv
  have h₁ := h.whole rest .exhausted
  have h₂ := h'.whole rest' .exhausted
  rw [hv] at h₂
  obtain ⟨hr, hn⟩ := h₁.unique h₂
  exact ⟨(List.append_inj hv.symm hn).1, hr⟩

theorem bind {a : α} {r : Except DecodeError β} (hx : Reads x w (.ok a)) (hf : Reads (f a) v r) :
    Reads (x >>= f) (w ++ v) r where
  judged := hf.judged
  whole rest c := by
    rw [List.append_assoc, List.length_append]
    exact (hx.whole (v ++ rest) c).bind (by rw [List.drop_left]; exact hf.whole rest c)
  short u hu hne := by
    -- a proper prefix of `w ++ v` ends either within `w` or behind it
    rcases Nat.lt_or_ge u.length w.length with hlt | hge
    · have hpre : u <+: w :=
        List.prefix_of_prefix_length_le hu (List.prefix_append w v) (Nat.le_of_lt hlt)
      exact (hx.short u hpre (fun h => by rw [h] at hlt; omega)).bind
    · obtain ⟨t, rfl⟩ := List.prefix_of_prefix_length_le (List.prefix_append w v) hu hge
      have ht : t <+: v := (List.prefix_append_right_inj w).1 hu
      exact hx.bind_runsOut (hf.short t ht (fun h => hne (by rw [h])))

theorem bind_error {e : DecodeError} (hx : Reads x w (.error e)) : Reads (x >>= f) w (.error e) where
  judged := ⟨fun h => hx.judged.1 (by cases h; rfl), fun h => hx.judged.2 (by cases h; rfl)⟩
  whole rest c := (hx.whole rest c).bind_error
  short u hu hne := (hx.short u hu hne).bind

theorem map {r : Except DecodeError α} (g : α → β) (hx : Reads x w r) : Reads (g <$> x) w (r.map g) where
  judged := by
    have hj := hx.judged
    cases r with
    | ok a => exact judged_ok _
    | error e => exact ⟨fun h => hj.1 (by cases h; rfl), fun h => hj.2 (by cases h; rfl)⟩
  whole rest c := (hx.whole rest c).map g
  short u hu hne := (hx.short u hu hne).map g

theorem inside {r : Except DecodeError α} (hx : Reads x w r) : Reads x.inside w r := by
  have hr : r.mapError DecodeError.inside = r := by
    have hj := hx.judged
    cases r with
    | ok a => rfl
    | error e =>
      cases e with
      | endOfStream => exact absurd rfl hj.1
      | _ => rfl
  refine ⟨hx.judged, fun rest c => ?_, fun u hu hne => (hx.short u hu hne).inside⟩
  have h := (hx.whole rest c).inside
  rwa [hr] at h

end Reads

/-! ## Regular steps -/

/-- On the bytes `b` the step runs out or reads some of them. -/
def Settled (x : Decode α) (b : List UInt8) : Prop := RunsOut x b ∨ ∃ w r, w <+: b ∧ Reads x w r

/-- The step is settled on all bytes. -/
def Regular (x : Decode α) : Prop := ∀ b, Settled x b

section Settled

variable {x : Decode α} {f : α → Decode β} {b w : List UInt8}

theorem Settled.bind (hx : Settled x b)
    (hf : ∀ a u v, b = u ++ v → Reads x u (.ok a) → Settled (f a) v) : Settled (x >>= f) b := by
  rcases hx with hx | ⟨u, r, ⟨v, rfl⟩, hx⟩
  · exact .inl hx.bind
  · cases r with
    | error e => exact .inr ⟨u, _, List.prefix_append u v, hx.bind_error⟩
    | ok a =>
      rcases hf a u v rfl hx with hf | ⟨w, r, hw, hf⟩
      · exact .inl (hx.bind_runsOut hf)
      · exact .inr ⟨u ++ w, r, (List.prefix_append_right_inj u).2 hw, hx.bind hf⟩

theorem Settled.inside (hx : Settled x b) : Settled x.inside b := by
  rcases hx with hx | ⟨w, r, hw, hx⟩
  · exact .inl hx.inside
  · exact .inr ⟨w, r, hw, hx.inside⟩

theorem Regular.bind (hx : Regular x) (hf : ∀ a, Regular (f a)) : Regular (x >>= f) :=
  fun b => (hx b).bind fun a _ v _ _ => hf a v

theorem Regular.inside (hx : Regular x) : Regular x.inside := fun b => (hx b).inside

theorem reads_inside_iff (hx : Regular x) {r : Except DecodeError α} : Reads x.inside w r ↔ Reads x w r := by
  refine ⟨fun h => ?_, Reads.inside⟩
  rcases hx w with hx | ⟨u, r', hu, hx⟩
  · exact absurd h hx.inside.not_reads
  · obtain ⟨rfl, rfl⟩ := h.unique hx.inside (List.prefix_refl w) hu
    exact hx

/-- What two steps read in a row comes apart: the first of them fails, or each reads its part. -/
theorem Reads.bind_inv {r : Except DecodeError β} (h : Reads (x >>= f) w r) (hx : Regular x)
    (hf : ∀ a, Regular (f a)) :
    (∃ e, r = .error e ∧ Reads x w (.error e)) ∨
    ∃ a u v, w = u ++ v ∧ Reads x u (.ok a) ∧ Reads (f a) v r := by
  rcases hx w with hx | ⟨u, r', ⟨v, rfl⟩, hx⟩
  · exact absurd h hx.bind.not_reads
  · cases r' with
    | error e =>
      obtain ⟨hu, hr⟩ := h.unique hx.bind_error (List.prefix_refl _) (List.prefix_append u v)
      exact .inl ⟨e, hr, by rw [hu]; exact hx⟩
    | ok a =>
      rcases hf a v with hf | ⟨v', r', hv, hf⟩
      · exact absurd h (hx.bind_runsOut hf).not_reads
      · obtain ⟨hu, rfl⟩ := h.unique (hx.bind hf) (List.prefix_refl _)
          ((List.prefix_append_right_inj u).2 hv)
        obtain rfl : v = v' := List.append_cancel_left hu
        exact .inr ⟨a, u, v, rfl, hx, hf⟩

/-- From a source that brings something while there is something, a regular step answers by the bytes ahead and the
close behind them alone. -/
theorem Regular.answers (hx : Regular x) {s : Source} :
    ∃ r n k, Answers x s.ahead s.close r n k := by
  rcases hx s.ahead with hshort | ⟨w, r, ⟨rest, hw⟩, hread⟩
  · rcases s.close_cases with hc | ⟨fault, hc⟩
    · obtain ⟨e, -, ha⟩ := hshort.atEnd
      rw [hc]
      exact ⟨_, _, _, ha⟩
    · obtain ⟨k, ha⟩ := hshort.atFailure fault
      rw [hc]
      exact ⟨_, _, _, ha⟩
  · rw [← hw]
    exact ⟨_, _, _, hread.whole rest s.close⟩

end Settled

/-! ## Steps of fixed width -/

/-- The step reads `n` bytes, whatever they are, and `g` says as what. -/
def Fixed (n : Nat) (x : Decode α) (g : List UInt8 → Except DecodeError α) : Prop :=
  ∀ w, w.length = n → Reads x w (g w)

namespace Fixed

variable {x : Decode α} {n m : Nat} {g : List UInt8 → Except DecodeError α}

theorem regular (h : Fixed n x g) : Regular x := by
  intro b
  rcases Nat.lt_or_ge b.length n with hlt | hge
  · -- bytes behind `b` complete it to something that is read
    have hr := h (b ++ List.replicate (n - b.length) 0) (by
      rw [List.length_append, List.length_replicate]; omega)
    refine .inl (hr.short b (List.prefix_append _ _) fun he => ?_)
    have hlen := congrArg List.length he
    rw [List.length_append, List.length_replicate] at hlen
    omega
  · exact .inr ⟨b.take n, g (b.take n), List.take_prefix n b, h _ (List.length_take_of_le hge)⟩

theorem reads_iff (h : Fixed n x g) {w : List UInt8} {r : Except DecodeError α} :
    Reads x w r ↔ w.length = n ∧ r = g w := by
  refine ⟨fun hr => ?_, fun ⟨hn, hr⟩ => hr ▸ h w hn⟩
  rcases Nat.lt_or_ge w.length n with hlt | hge
  · have hs := h (w ++ List.replicate (n - w.length) 0) (by
      rw [List.length_append, List.length_replicate]; omega)
    obtain ⟨he, -⟩ := hr.unique hs (List.prefix_append _ _) (List.prefix_refl _)
    have hlen := congrArg List.length he
    rw [List.length_append, List.length_replicate] at hlen
    omega
  · have hn : (w.take n).length = n := List.length_take_of_le hge
    obtain ⟨he, hr⟩ := hr.unique (h _ hn) (List.prefix_refl w) (List.take_prefix n w)
    rw [← he] at hn hr
    exact ⟨hn, hr⟩

theorem noted (level : LogLevel) (text : Decoder → String) (h : Fixed n x g) :
    Fixed n (get >>= fun d => note level (text d) >>= fun _ => x) g := by
  intro w hw
  have hr := h w hw
  refine ⟨hr.judged, fun rest c => (hr.whole rest c).noted level text, fun v hv hne => ?_⟩
  obtain ⟨⟨e, he, ha⟩, hf⟩ := hr.short v hv hne
  refine ⟨⟨e, he, ha.noted level text⟩, fun fault => ?_⟩
  obtain ⟨k, hk⟩ := hf fault
  exact ⟨k, hk.noted level text⟩

theorem congr {g' : List UInt8 → Except DecodeError α} (h : Fixed n x g)
    (hg : ∀ w, w.length = n → g w = g' w) : Fixed n x g' :=
  fun w hw => hg w hw ▸ h w hw

theorem bind {p : List UInt8 → α} {f : α → Decode β} {q : α → List UInt8 → Except DecodeError β}
    (hx : Fixed n x fun w => .ok (p w)) (hf : ∀ a, Fixed m (f a) (q a)) :
    Fixed (n + m) (x >>= f) fun w => q (p (w.take n)) (w.drop n) := by
  intro w hw
  have hr := (hx (w.take n) (List.length_take_of_le (by omega))).bind
    (hf _ (w.drop n) (by rw [List.length_drop]; omega))
  rwa [List.take_append_drop] at hr

/-- Two steps in a row, the width of the second given by what the first has read. -/
theorem reads_bind_iff {p : List UInt8 → α} {f : α → Decode β} {m : α → Nat}
    {q : α → List UInt8 → Except DecodeError β} (hx : Fixed n x fun w => .ok (p w))
    (hf : ∀ a, Fixed (m a) (f a) (q a)) {w : List UInt8} {r : Except DecodeError β} :
    Reads (x >>= f) w r ↔
      ∃ u v, w = u ++ v ∧ u.length = n ∧ v.length = m (p u) ∧ r = q (p u) v := by
  constructor
  · intro h
    rcases h.bind_inv hx.regular fun a => (hf a).regular with ⟨e, -, he⟩ | ⟨a, u, v, hw, hu, hv⟩
    · cases (hx.reads_iff.1 he).2
    · obtain ⟨hn, ha⟩ := hx.reads_iff.1 hu
      cases ha
      obtain ⟨hm, hr⟩ := (hf _).reads_iff.1 hv
      exact ⟨u, v, hw, hn, hm, hr⟩
  · rintro ⟨u, v, rfl, hn, hm, rfl⟩
    exact (hx u hn).bind (hf _ v hm)

theorem map (h : Fixed n x g) (f : α → β) : Fixed n (f <$> x) fun w => (g w).map f :=
  fun w hw => (h w hw).map f

theorem inside (h : Fixed n x g) : Fixed n x.inside g := fun w hw => (h w hw).inside

end Fixed

theorem fixed_pure (a : α) : Fixed 0 (pure a : Decode α) fun _ => .ok a := by
  intro w hw
  obtain rfl := List.length_eq_zero_iff.1 hw
  exact ⟨judged_ok a, fun _ _ d _ _ _ => ⟨d, rfl, .refl _, rfl⟩,
    fun u hu hne => absurd (List.prefix_nil.1 hu) hne⟩

theorem fixed_throw {e : DecodeError} (he : Judged (.error e : Except DecodeError α)) :
    Fixed 0 (throw e : Decode α) fun _ => .error e := by
  intro w hw
  obtain rfl := List.length_eq_zero_iff.1 hw
  exact ⟨he, fun _ _ d _ _ _ => ⟨d, rfl, .refl _, rfl⟩,
    fun u hu hne => absurd (List.prefix_nil.1 hu) hne⟩

theorem fixed_note (level : LogLevel) (text : String) : Fixed 0 (note level text) fun _ => .ok () := by
  intro w hw
  obtain rfl := List.length_eq_zero_iff.1 hw
  exact ⟨judged_ok (), fun _ _ d _ _ _ => ⟨d.note level text, rfl, .refl _, rfl⟩,
    fun u hu hne => absurd (List.prefix_nil.1 hu) hne⟩

end NodeTrace.Decode
