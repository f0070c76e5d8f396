import NodeTrace.Proofs.Failures

/-!
# Which bytes a step counts

A step counts the bytes that it takes, also when it fails (`Decode.Counts`), unless it skips.  A skip that meets a failure
of the source has passed bytes that are not counted (`Decode.Misses`).  What is skipped is the payload of an element
without a meaning, so a frame misses the bytes of such a payload if the source fails inside it, and no others
(`Decode.missesOnly_frame`, `Decode.misses_frame`).
-/

namespace NodeTrace

/-- A source that fails behind these bytes. -/
def Source.failingBehind (b : List UInt8) (fault : Fault) : Source where
  unread := b
  failure := some (0 + b.length, fault)

theorem Source.failsWith_failingBehind (b : List UInt8) (fault : Fault) :
    (failingBehind b fault).FailsWith fault ∧ (failingBehind b fault).ahead = b := by
  have h := failsWith_of_failure (s := failingBehind b fault) nofun rfl (Nat.le_refl b.length)
  rwa [show (failingBehind b fault).unread.take b.length = b from List.take_length] at h

/-! ## Cuts inside a payload that is skipped -/

namespace Written

/-- The bytes are the head of an element whose tag is `least` or more, and `k` bytes of its payload, which has more. -/
structure CutPayload (least : Nat) (b : List UInt8) (k : Nat) : Prop where
  cut : ∃ tag wide n part, HeadFits tag wide n ∧ least ≤ tag.toNat ∧ b = head tag wide n ++ part ∧
    part.length = k ∧ k < n
  some_passed : 0 < k

/-- The bytes are those of a frame up to a cut inside the payload of an element without a meaning: an element of the
scope run, or the event. -/
inductive CutInside : List UInt8 → Nat → Prop where
  | scope {run : List Element} {b : List UInt8} {k : Nat} (hrun : ∀ e ∈ run, e.Fits ∧ e.InScope)
      (hcut : CutPayload 3 b k) : CutInside (run.flatMap Element.bytes ++ b) k
  | event {run : List Element} {closing : Bool} {b : List UInt8} {k : Nat} (hrun : ∀ e ∈ run, e.Fits ∧ e.InScope)
      (hcut : CutPayload 7 b k) : CutInside (run.flatMap Element.bytes ++ separator closing ++ b) k

theorem CutInside.pos {b : List UInt8} {k : Nat} (h : CutInside b k) : 0 < k := by
  cases h with
  | scope _ hcut => exact hcut.some_passed
  | event _ hcut => exact hcut.some_passed

end Written

namespace Decode

open Written (HeadFits CutPayload CutInside)

variable {α β : Type} {x : Decode α} {f : α → Decode β} {b w v : List UInt8} {k : Nat}

/-! ## Steps that count -/

/-- The step counts the bytes that it takes, however it ends. -/
def Counts (x : Decode α) : Prop := ∀ d, (x.run d).2.offset + (x.run d).2.unread = d.offset + d.unread

theorem counts_pure (a : α) : Counts (pure a : Decode α) := fun _ => rfl

theorem counts_throw (e : DecodeError) : Counts (throw e : Decode α) := fun _ => rfl

theorem counts_note (level : LogLevel) (text : String) : Counts (note level text) := fun _ => rfl

theorem Counts.bind (hx : Counts x) (hf : ∀ a, Counts (f a)) : Counts (x >>= f) := by
  intro d
  have hfirst := hx d
  obtain ⟨r, d', hrun⟩ := exists_run x d
  rw [hrun] at hfirst
  rw [run_bind, hrun]
  cases r with
  | ok a => exact (hf a d').trans hfirst
  | error e => exact hfirst

theorem Counts.map (hx : Counts x) (g : α → β) : Counts (g <$> x) := by
  intro d
  rw [run_map]
  exact hx d

theorem Counts.inside (hx : Counts x) : Counts x.inside := by
  intro d
  rw [run_inside]
  exact hx d

theorem counts_take (n : Nat) : Counts (take n) := by
  intro d
  have hall := congrArg List.length (d.source.gather_append_unread n)
  rw [List.length_append] at hall
  have hbehind : ((take n).run d).2 =
      { d with source := (d.source.gather n).source, offset := d.offset + (d.source.gather n).bytes.length } := by
    unfold run take
    dsimp only
    cases (d.source.gather n).ending <;> rfl
  rw [hbehind]
  unfold Decoder.unread
  dsimp only
  omega

theorem counts_number (width : Nat) : Counts (number width) := (counts_take width).map _
theorem counts_word8 : Counts word8 := (counts_number 1).map _
theorem counts_word16 : Counts word16 := (counts_number 2).map _
theorem counts_word32 : Counts word32 := (counts_number 4).map _
theorem counts_word64 : Counts word64 := (counts_number 8).map _
theorem counts_double : Counts double := counts_word64.map _

theorem counts_nodeTime : Counts nodeTime := counts_word64.bind fun _ => counts_double.bind fun _ => counts_pure _

theorem counts_behindControl (control : UInt16) : Counts (behindControl control) := by
  unfold behindControl lengthField
  split
  · exact counts_pure _
  · refine Counts.bind (Counts.inside ?_) fun _ => counts_pure _
    split
    · exact counts_word32
    · exact counts_word8.map _

theorem counts_elementHeader : Counts elementHeader := counts_word16.bind counts_behindControl

theorem counts_nextHeader (first : Bool) : Counts (nextHeader first) := by
  cases first with
  | true => exact counts_elementHeader
  | false => exact counts_elementHeader.inside

theorem counts_requireLength (element : String) (found expected : UInt32) :
    Counts (requireLength element found expected) := by
  unfold requireLength
  split
  · exact counts_pure _
  · exact counts_throw _

theorem counts_requireAtLeast (element : String) (found least : UInt32) :
    Counts (requireAtLeast element found least) := by
  unfold requireAtLeast
  split
  · exact counts_pure _
  · exact counts_throw _

theorem counts_requireWithin (limit size : Nat) : Counts (requireWithin limit size) := by
  unfold requireWithin
  split
  · exact counts_pure _
  · exact counts_throw _

theorem counts_judgeHeader (first second major minor : UInt32) : Counts (judgeHeader first second major minor) := by
  have hmagic (found expected : UInt32) : Counts (requireMagic found expected) := by
    unfold requireMagic
    split
    · exact counts_pure _
    · exact counts_throw _
  refine (hmagic _ _).bind fun _ => (hmagic _ _).bind fun _ => ?_
  split
  · exact counts_pure _
  · exact counts_throw _

theorem counts_recorded (limit : Nat) (h : TraceHeader) : Counts (recorded limit h) := by
  unfold recorded
  refine (counts_note _ _).bind fun _ => ?_
  split
  · exact counts_pure _
  · exact (counts_note _ _).bind fun _ => counts_pure _

theorem counts_openTrace (limit : Nat) : Counts (openTrace limit) := by
  have hheader : Counts header := counts_word32.inside.bind fun first => counts_word32.inside.bind fun second =>
    counts_word32.inside.bind fun major => counts_word32.inside.bind fun minor =>
      counts_judgeHeader first second major minor
  exact hheader.bind (counts_recorded limit)

/-! ## Steps that miss bytes -/

/-- With the bytes `b` ahead of a failure, the step passes all of them and fails, but does not count `k` of them. -/
structure Misses (x : Decode α) (b : List UInt8) (k : Nat) : Prop where
  le : k ≤ b.length
  answers : ∀ fault, Answers x b (.failed fault) (.error (.io fault)) b.length (b.length - k)

/-- On these bytes the step reads some of them, or misses none, or misses as many as `P` says. -/
def MissesOnly (x : Decode α) (P : Nat → Prop) (b : List UInt8) : Prop :=
  (∃ k, Misses x b k ∧ (k ≠ 0 → P k)) ∨ ∃ w r, w <+: b ∧ Reads x w r

theorem Misses.unique {l : Nat} (h : Misses x b k) (h' : Misses x b l) : k = l := by
  obtain ⟨hfails, hahead⟩ := Source.failsWith_failingBehind b .writeZero
  obtain ⟨d, hrun, -, hoffset⟩ := h.answers _ (.ofSource (.failingBehind b .writeZero)) hfails.flows hahead hfails.close
  obtain ⟨d', hrun', -, hoffset'⟩ :=
    h'.answers _ (.ofSource (.failingBehind b .writeZero)) hfails.flows hahead hfails.close
  obtain ⟨-, rfl⟩ := Prod.mk.inj (hrun.symm.trans hrun')
  have hle := h.le
  have hle' := h'.le
  omega

/-- A step that counts misses nothing. -/
theorem Counts.misses_zero (hx : Counts x) (h : RunsOut x b) : Misses x b 0 := by
  refine ⟨Nat.zero_le _, fun fault => ?_⟩
  obtain ⟨k, hanswers⟩ := h.atFailure fault
  obtain ⟨hfails, hahead⟩ := Source.failsWith_failingBehind b fault
  obtain ⟨d, hrun, hadv, hoffset⟩ := hanswers (.ofSource (.failingBehind b fault)) hfails.flows hahead hfails.close
  have hcounts := hx (.ofSource (.failingBehind b fault))
  have hunread : d.unread = 0 := by
    unfold Decoder.unread
    rw [hadv.unread]
    exact (congrArg List.length List.drop_length)
  have hall : (Decoder.ofSource (.failingBehind b fault)).unread = b.length := rfl
  rw [hrun, hoffset, hunread, hall] at hcounts
  have hk : k = b.length - 0 := by omega
  exact hk ▸ hanswers

theorem Misses.bind_error (h : Misses x b k) : Misses (x >>= f) b k :=
  ⟨h.le, fun fault => (h.answers fault).bind_error⟩

theorem Misses.inside (h : Misses x b k) : Misses x.inside b k :=
  ⟨h.le, fun fault => (h.answers fault).inside⟩

/-- The first step succeeds, and the second misses bytes. -/
theorem Reads.bind_misses {a : α} (hx : Reads x w (.ok a)) (hf : Misses (f a) v k) : Misses (x >>= f) (w ++ v) k := by
  have hle := hf.le
  refine ⟨by rw [List.length_append]; omega, fun fault => ?_⟩
  have hall := (hx.whole v _).bind (by rw [List.drop_left]; exact hf.answers fault)
  have hcount : (w ++ v).length - k = w.length + (v.length - k) := by
    rw [List.length_append]
    omega
  rw [hcount, List.length_append]
  exact hall

theorem MissesOnly.bind {P : Nat → Prop} (hx : MissesOnly x P b)
    (hf : ∀ a u v, b = u ++ v → Reads x u (.ok a) → MissesOnly (f a) P v) : MissesOnly (x >>= f) P b := by
  rcases hx with ⟨k, hx, hk⟩ | ⟨u, r, ⟨v, rfl⟩, hx⟩
  · exact .inl ⟨k, hx.bind_error, hk⟩
  · cases r with
    | error e => exact .inr ⟨u, _, List.prefix_append u v, hx.bind_error⟩
    | ok a =>
      rcases hf a u v rfl hx with ⟨k, hf, hk⟩ | ⟨w, r, hw, hf⟩
      · exact .inl ⟨k, hx.bind_misses hf, hk⟩
      · exact .inr ⟨u ++ w, r, (List.prefix_append_right_inj u).2 hw, hx.bind hf⟩

theorem MissesOnly.inside {P : Nat → Prop} (hx : MissesOnly x P b) : MissesOnly x.inside P b := by
  rcases hx with ⟨k, hx, hk⟩ | ⟨w, r, hw, hx⟩
  · exact .inl ⟨k, hx.inside, hk⟩
  · exact .inr ⟨w, r, hw, hx.inside⟩

theorem MissesOnly.mono {P Q : Nat → Prop} (hx : MissesOnly x P b) (h : ∀ k, k ≠ 0 → P k → Q k) : MissesOnly x Q b := by
  rcases hx with ⟨k, hx, hk⟩ | hx
  · exact .inl ⟨k, hx, fun hne => h k hne (hk hne)⟩
  · exact .inr hx

theorem Counts.missesOnly (hx : Counts x) (hregular : Regular x) (P : Nat → Prop) (b : List UInt8) :
    MissesOnly x P b := by
  rcases hregular b with h | h
  · exact .inl ⟨0, hx.misses_zero h, fun hne => absurd rfl hne⟩
  · exact .inr h

/-! ## Payloads that are skipped -/

/-- Make a record and pass over a payload. -/
def passOver (text : Decoder → String) (n : Nat) (a : α) : Decode α :=
  get >>= fun d => note .debug (text d) >>= fun _ => skip n >>= fun _ => pure a

theorem fixed_passOver (text : Decoder → String) (n : Nat) (a : α) : Fixed n (passOver text n a) fun _ => .ok a :=
  ((fixed_skip n).bind fun _ => fixed_pure a).noted _ _

theorem misses_passOver (text : Decoder → String) {n : Nat} (a : α) (h : v.length < n) :
    Misses (passOver text n a) v v.length := by
  refine ⟨Nat.le_refl _, fun fault => ?_⟩
  rw [Nat.sub_self]
  exact ((answers_skip_atFailure h fault).bind_error).noted _ _

theorem missesOnly_passOver (text : Decoder → String) (n : Nat) (a : α) (b : List UInt8) :
    MissesOnly (passOver text n a) (fun k => k = b.length ∧ k < n) b := by
  rcases Nat.lt_or_ge b.length n with h | h
  · exact .inl ⟨_, misses_passOver text a h, fun _ => ⟨rfl, h⟩⟩
  · exact .inr ⟨b.take n, _, List.take_prefix n b, fixed_passOver text n a _ (List.length_take_of_le h)⟩

theorem scopeElement_of_three_le {h : ElementHeader} (htag : 3 ≤ h.tag.toNat) (scope : Scope) :
    ∃ text, scopeElement h scope = passOver text h.length.toNat scope.withUnknown := by
  have h1 : h.tag ≠ Format.simulationTag := fun he => by
    rw [he] at htag
    exact absurd htag (by decide)
  have h2 : h.tag ≠ Format.nodeTag := fun he => by
    rw [he] at htag
    exact absurd htag (by decide)
  rw [scopeElement, if_neg h1, if_neg h2]
  exact ⟨_, rfl⟩

theorem eventBody_of_unknown (limit : Nat) {h : ElementHeader} (hkind : Format.kindOfTag h.tag = .unknown) :
    ∃ text, eventBody limit h = passOver text h.length.toNat (.unknown h.tag h.length) := by
  rw [eventBody, hkind]
  exact ⟨_, rfl⟩

/-- Of the scope elements, those with a tag from 3 on are skipped. -/
theorem missesOnly_scopeElement {h : ElementHeader} (h0 : h.tag ≠ 0) (scope : Scope) (b : List UInt8) :
    MissesOnly (scopeElement h scope) (fun k => 3 ≤ h.tag.toNat ∧ k = b.length ∧ k < h.length.toNat) b := by
  by_cases htag : 3 ≤ h.tag.toNat
  · obtain ⟨text, heq⟩ := scopeElement_of_three_le htag scope
    rw [heq]
    exact (missesOnly_passOver text _ _ b).mono fun k _ hk => ⟨htag, hk⟩
  · refine Counts.missesOnly ?_ (regular_scopeElement h0 scope) _ b
    unfold scopeElement
    split
    · exact (counts_requireLength _ _ _).bind fun _ => counts_word64.bind fun _ => counts_pure _
    · split
      · exact (counts_requireLength _ _ _).bind fun _ => counts_nodeTime.bind fun _ => counts_word16.bind fun _ =>
          counts_pure _
      · rename_i h1 h2
        have hne1 : h.tag.toNat ≠ 1 := fun he => h1 (UInt16.toNat_inj.1 he)
        have hne2 : h.tag.toNat ≠ 2 := fun he => h2 (UInt16.toNat_inj.1 he)
        have hne0 : h.tag.toNat ≠ 0 := fun he => h0 (UInt16.toNat_inj.1 he)
        omega

/-- Of the events, those without a meaning are skipped. -/
theorem missesOnly_eventBody (limit : Nat) (h : ElementHeader) (b : List UInt8) : MissesOnly (eventBody limit h)
    (fun k => Format.kindOfTag h.tag = .unknown ∧ k = b.length ∧ k < h.length.toNat) b := by
  by_cases hkind : Format.kindOfTag h.tag = .unknown
  · obtain ⟨text, heq⟩ := eventBody_of_unknown limit hkind
    rw [heq]
    exact (missesOnly_passOver text _ _ b).mono fun k _ hk => ⟨hkind, hk⟩
  · refine Counts.missesOnly ?_ (regular_eventBody limit h) _ b
    unfold eventBody
    simp only [buffer_toNat]
    split
    · exact (counts_requireLength _ _ _).bind fun _ => counts_nodeTime.bind fun _ => counts_nodeTime.bind fun _ =>
        counts_nodeTime.bind fun _ => counts_word8.bind fun _ => counts_pure _
    · exact (counts_requireLength _ _ _).bind fun _ => counts_word16.bind fun _ => counts_word16.bind fun _ =>
        counts_word16.bind fun _ => counts_pure _
    · exact (counts_requireAtLeast _ _ _).bind fun _ => counts_word16.bind fun _ => counts_word16.bind fun _ =>
        (counts_requireWithin _ _).bind fun _ => (counts_take _).bind fun _ => counts_pure _
    · exact (counts_requireLength _ _ _).bind fun _ => counts_pure _
    · exact (counts_requireLength _ _ _).bind fun _ => counts_pure _
    · exact (counts_requireLength _ _ _).bind fun _ => counts_double.bind fun _ => counts_double.bind fun _ =>
        counts_double.bind fun _ => counts_pure _
    · contradiction

/-! ## Frames -/

/-- The bytes are elements of a scope run up to a cut inside a payload that is skipped. -/
def CutRun (b : List UInt8) (k : Nat) : Prop := ∃ (run : List Written.Element) (v : List UInt8),
  (∀ e ∈ run, e.Fits ∧ e.InScope) ∧ b = run.flatMap Written.Element.bytes ++ v ∧ CutPayload 3 v k

theorem CutRun.cons {e : Written.Element} (he : e.Fits ∧ e.InScope) (h : CutRun b k) : CutRun (e.bytes ++ b) k := by
  obtain ⟨run, v, hrun, rfl, hcut⟩ := h
  refine ⟨e :: run, v, List.forall_mem_cons.2 ⟨he, hrun⟩, ?_, hcut⟩
  rw [List.flatMap_cons, List.append_assoc]

/-- A scope run misses the bytes of a payload that is cut off, and no other. -/
theorem missesOnly_scopeRun (first : Bool) (scope : Scope) (b : List UInt8) :
    MissesOnly (scopeRun first scope) (CutRun b) b := by
  induction hn : b.length using Nat.strongRecOn generalizing b first scope with
  | ind n ih =>
    rw [scopeRun_eq]
    refine ((counts_nextHeader first).missesOnly (regular_nextHeader first) _ b).bind fun h u v hb hu => ?_
    by_cases h0 : h.tag = 0
    · rw [behindHeader_separator scope h0]
      exact (counts_pure scope).missesOnly (fixed_pure scope).regular _ v
    · obtain ⟨tag, wide, m, hfit, rfl, hheader⟩ := reads_nextHeader_iff.1 hu
      cases hheader
      have hlen := toNat_length hfit
      rw [behindHeader_element scope h0]
      refine MissesOnly.bind ((missesOnly_scopeElement h0 scope v).inside.mono ?_) fun scope' u' v' hv hu' => ?_
      · rintro k hk ⟨htag, hlength, hless⟩
        rw [hlen] at hless
        exact ⟨[], b, List.forall_mem_nil _, rfl,
          ⟨tag, wide, m, v, hfit, htag, hb, hlength.symm, hless⟩, Nat.pos_of_ne_zero hk⟩
      · obtain ⟨hm, hallows, -⟩ :=
          scopeElement_of_reads hfit h0 ((reads_inside_iff (regular_scopeElement h0 scope)).1 hu')
        have hbytes : b = (⟨tag, wide, u'⟩ : Written.Element).bytes ++ v' := by
          rw [Written.Element.bytes, hm, List.append_assoc, hb, hv]
        have hless : v'.length < n := by
          rw [← hn, hb, hv, Written.head]
          simp only [List.length_append, BigEndian.length_ofNat]
          omega
        refine (ih _ hless false scope' v' rfl).mono fun k _ hk => ?_
        rw [hbytes]
        exact hk.cons ⟨by rwa [Written.Element.Fits, hm], by rwa [Written.Element.InScope, hm]⟩

/-- A scope run that is cut off inside a payload that is skipped misses what is there of it. -/
theorem misses_scopeRun {run : List Written.Element} (hrun : ∀ e ∈ run, e.Fits ∧ e.InScope) (hcut : CutPayload 3 v k)
    (first : Bool) (scope : Scope) : Misses (scopeRun first scope) (run.flatMap Written.Element.bytes ++ v) k := by
  induction run generalizing first scope with
  | nil =>
    obtain ⟨tag, wide, n, part, hfit, htag, rfl, rfl, hless⟩ := hcut.cut
    have h0 : tag ≠ 0 := fun he => by
      rw [he] at htag
      exact absurd htag (by decide)
    have hhead : Reads (nextHeader first) (Written.head tag wide n) (.ok ⟨tag, UInt32.ofNat n⟩) :=
      reads_nextHeader_iff.2 ⟨_, _, _, hfit, rfl, rfl⟩
    rw [← toNat_length hfit] at hless
    obtain ⟨text, heq⟩ := scopeElement_of_three_le (h := ⟨tag, UInt32.ofNat n⟩) htag scope
    rw [scopeRun_eq, List.flatMap_nil, List.nil_append]
    refine hhead.bind_misses ?_
    rw [behindHeader_element scope h0, heq]
    exact (misses_passOver text _ hless).inside.bind_error
  | cons e run ih =>
    obtain ⟨hf, hs⟩ := hrun e List.mem_cons_self
    have h0 : e.tag ≠ 0 := by
      intro h0
      rw [Written.Element.InScope, h0] at hs
      exact hs
    have hhead : Reads (nextHeader first) (Written.head e.tag e.wide e.payload.length)
        (.ok ⟨e.tag, UInt32.ofNat e.payload.length⟩) :=
      reads_nextHeader_iff.2 ⟨_, _, _, hf, rfl, rfl⟩
    have hrest := ih (fun e he => hrun e (List.mem_cons_of_mem _ he)) false (e.intoScope scope)
    rw [scopeRun_eq, List.flatMap_cons, Written.Element.bytes, List.append_assoc, List.append_assoc]
    refine hhead.bind_misses ?_
    rw [behindHeader_element scope h0]
    exact (reads_scopeElement hf hs scope).inside.bind_misses hrest

theorem kindOfTag_eq_unknown_iff {tag : UInt16} :
    Format.kindOfTag tag = .unknown ↔ tag.toNat = 0 ∨ 7 ≤ tag.toNat := by
  constructor
  · intro h
    have hne (t : UInt16) (ht : Format.kindOfTag t ≠ .unknown) : tag.toNat ≠ t.toNat :=
      fun he => ht (UInt16.toNat_inj.1 he ▸ h)
    have h1 : tag.toNat ≠ 1 := hne 1 (by decide)
    have h2 : tag.toNat ≠ 2 := hne 2 (by decide)
    have h3 : tag.toNat ≠ 3 := hne 3 (by decide)
    have h4 : tag.toNat ≠ 4 := hne 4 (by decide)
    have h5 : tag.toNat ≠ 5 := hne 5 (by decide)
    have h6 : tag.toNat ≠ 6 := hne 6 (by decide)
    omega
  · intro h
    exact kindOfTag_unknown (by omega) (by omega) (by omega) (by omega) (by omega) (by omega)

/-- An event misses the bytes of its payload if that is skipped and cut off, and no other. -/
theorem missesOnly_event (limit : Nat) (b : List UInt8) : MissesOnly (event limit) (CutPayload 7 b) b := by
  refine (MissesOnly.bind (counts_elementHeader.missesOnly regular_elementHeader _ b) fun h u v hb hu => ?_).inside
  obtain ⟨tag, wide, n, hfit, rfl, hheader⟩ := reads_elementHeader_iff.1 hu
  cases hheader
  refine (missesOnly_eventBody limit _ v).mono ?_
  rintro k hk ⟨hkind, hlength, hless⟩
  rw [toNat_length hfit] at hless
  have htag : 7 ≤ tag.toNat := by
    refine (kindOfTag_eq_unknown_iff.1 hkind).resolve_left fun h0 => ?_
    -- behind tag 0 there is no payload
    have hzero : tag = 0 := UInt16.toNat_inj.1 h0
    have hlt := hfit.length_lt
    rw [hzero] at hlt
    have hnil : n < 1 := hlt
    omega
  exact ⟨⟨tag, wide, n, v, hfit, htag, hb, hlength.symm, hless⟩, Nat.pos_of_ne_zero hk⟩

theorem misses_event (limit : Nat) (hcut : CutPayload 7 b k) : Misses (event limit) b k := by
  obtain ⟨tag, wide, n, part, hfit, htag, rfl, rfl, hless⟩ := hcut.cut
  have hhead := reads_elementHeader_iff.2 ⟨tag, wide, n, hfit, rfl, rfl⟩
  rw [← toNat_length hfit] at hless
  obtain ⟨text, heq⟩ := eventBody_of_unknown (h := ⟨tag, UInt32.ofNat n⟩) limit (kindOfTag_eq_unknown_iff.2 (.inr htag))
  refine (hhead.bind_misses ?_).inside
  rw [heq]
  exact misses_passOver text _ hless

theorem missesOnly_frame (limit : Nat) (b : List UInt8) : MissesOnly (frame limit) (CutInside b) b := by
  rw [frame_eq]
  refine MissesOnly.bind ((missesOnly_scopeRun true {} b).mono ?_) fun scope u v hb hu => ?_
  · rintro k - ⟨run, v, hrun, rfl, hcut⟩
    exact .scope hrun hcut
  · obtain ⟨run, closing, hrun, rfl, -⟩ := reads_scopeRun_iff.1 hu
    refine ((missesOnly_event limit v).mono fun k _ hcut => ?_).bind fun ev _ v' _ _ =>
      (counts_pure _).missesOnly (fixed_pure _).regular _ v'
    rw [hb]
    exact .event hrun hcut

/-- A frame that is cut off inside a payload that is skipped misses what is there of this payload. -/
theorem misses_frame (limit : Nat) (h : CutInside b k) : Misses (frame limit) b k := by
  rw [frame_eq]
  cases h with
  | scope hrun hcut => exact (misses_scopeRun hrun hcut true {}).bind_error
  | event hrun hcut =>
    exact (reads_scopeRun hrun _ true {}).bind_misses (misses_event limit hcut).bind_error

end Decode

end NodeTrace
