import NodeTrace.Proofs.Output
import NodeTrace.Proofs.RoundTrip

/-!
# Writing again what was decoded

Whatever spelling a trace has, what it is decoded as is written in one form: the elements of a scope once, in a fixed
order, with the shortest length field, and an unknown payload as zeros.  The form is never longer than the trace
(`Written.length_ofFrame_le`), means the same but for the marks of unknown elements (`Scope.Tidy.normal`), and is
its own form (`reencoding_canonical`).  Only an event with the tag of the separator has none.
-/

namespace NodeTrace

/-- The scope without the mark of unknown elements. -/
def Scope.unmarked (s : Scope) : Scope := { s with kinds := { s.kinds with unknown := false } }

/-- The frame without the mark of unknown elements. -/
def Frame.unmarked (f : Frame) : Frame := ⟨f.scope.unmarked, f.event⟩

/-! ## Scopes that were decoded -/

/-- The fields that the kinds do not count are as in a new scope. -/
structure Scope.Tidy (s : Scope) : Prop where
  simulation : s.kinds.simulation = false → s.simMicros = 0
  node : s.kinds.node = false → s.nodeId = 0 ∧ s.nodeTime = {}

/-- A tidy scope loses nothing but its mark when it is written. -/
theorem Scope.Tidy.normal {s : Scope} (h : s.Tidy) : s.normal = s.unmarked := by
  obtain ⟨⟨unknown, simulation, node⟩, micros, id, time⟩ := s
  obtain ⟨hsim, hnode⟩ := h
  dsimp only at hsim hnode
  have hmicros : (if simulation then micros else 0) = micros := by
    cases simulation with
    | false => exact (hsim rfl).symm
    | true => rfl
  have hid : (if node then id else 0) = id ∧ (if node then time else {}) = time := by
    cases node with
    | false => exact ⟨(hnode rfl).1.symm, (hnode rfl).2.symm⟩
    | true => exact ⟨rfl, rfl⟩
  unfold Scope.normal Scope.unmarked
  dsimp only
  rw [hmicros, hid.1, hid.2]

namespace Written

theorem Element.tidy_intoScope (e : Element) {scope : NodeTrace.Scope} (h : scope.Tidy) : (e.intoScope scope).Tidy := by
  unfold Element.intoScope
  split
  · exact ⟨nofun, h.node⟩
  · exact ⟨h.simulation, nofun⟩
  · exact ⟨h.simulation, h.node⟩

theorem tidy_scope (run : List Element) : (scope run).Tidy := by
  induction run using List.reverseRecOn with
  | nil => exact ⟨fun _ => rfl, fun _ => ⟨rfl, rfl⟩⟩
  | append_singleton run e ih =>
    rw [scope_concat]
    exact e.tidy_intoScope ih

/-! ## Lengths -/

theorem Element.length_bytes (e : Element) : e.bytes.length = 2 + lengthWidth e.tag e.wide + e.payload.length := by
  unfold Element.bytes head
  rw [List.length_append, List.length_append, BigEndian.length_ofNat, BigEndian.length_ofNat]

theorem lengthWidth_pos {tag : UInt16} (h0 : tag ≠ 0) (wide : Bool) : 1 ≤ lengthWidth tag wide := by
  unfold lengthWidth
  rw [if_neg h0]
  cases wide <;> decide

/-- How many bytes the elements take as which a scope is written. -/
theorem length_ofScope (s : NodeTrace.Scope) : ((ofScope s).flatMap Element.bytes).length =
    (if s.kinds.simulation then 11 else 0) + if s.kinds.node then 21 else 0 := by
  have hsim (micros : UInt64) : (simulationElement micros).bytes.length = 11 := by
    rw [Element.length_bytes]
    show 2 + lengthWidth Format.simulationTag (256 ≤ (Encode.word64 micros).length) + (Encode.word64 micros).length = 11
    rw [length_word64]
    rfl
  have hnode (id : UInt16) (time : NodeTime) : (nodeElement id time).bytes.length = 21 := by
    rw [Element.length_bytes]
    show 2 + lengthWidth Format.nodeTag (256 ≤ (Encode.nodeTime time ++ Encode.word16 id).length) +
      (Encode.nodeTime time ++ Encode.word16 id).length = 21
    rw [length_nodePayload]
    rfl
  unfold ofScope Scope.simulation? Scope.node?
  rw [List.flatMap_append, List.length_append]
  cases s.kinds.simulation <;> cases s.kinds.node <;> simp [hsim, hnode]

/-- Control word and length field take three bytes at least, unless the tag is that of the separator. -/
theorem Element.le_length_bytes {e : Element} (h0 : e.tag.toNat ≠ 0) : 3 + e.payload.length ≤ e.bytes.length := by
  have hwidth := lengthWidth_pos (fun h => h0 (congrArg UInt16.toNat h)) e.wide
  rw [e.length_bytes]
  omega

/-- One more element of a run adds at most its own length to what the scope takes. -/
theorem length_ofScope_intoScope {e : Element} (hin : e.InScope) (scope : NodeTrace.Scope) :
    ((ofScope (e.intoScope scope)).flatMap Element.bytes).length ≤
      ((ofScope scope).flatMap Element.bytes).length + e.bytes.length := by
  rw [length_ofScope, length_ofScope]
  unfold Element.InScope ScopeAllows at hin
  unfold Element.intoScope
  split
  · rename_i htag
    have hlen := e.le_length_bytes (by rw [htag]; decide)
    rw [htag] at hin
    change e.payload.length = 8 at hin
    show (if true then 11 else 0) + (if scope.kinds.node then 21 else 0) ≤ _
    rw [if_pos rfl]
    omega
  · rename_i htag
    have hlen := e.le_length_bytes (by rw [htag]; decide)
    rw [htag] at hin
    change e.payload.length = 18 at hin
    show (if scope.kinds.simulation then 11 else 0) + (if true then 21 else 0) ≤ _
    rw [if_pos (rfl : true = true)]
    omega
  · exact Nat.le_add_right _ _

/-- The elements of the scope that a run adds up to take no more bytes than the run. -/
theorem length_ofScope_le {run : List Element} (hrun : ∀ e ∈ run, e.Fits ∧ e.InScope) :
    ((ofScope (scope run)).flatMap Element.bytes).length ≤ (run.flatMap Element.bytes).length := by
  induction run using List.reverseRecOn with
  | nil => exact Nat.le_refl _
  | append_singleton run e ih =>
    have hprefix := ih fun e' he' => hrun e' (List.mem_append_left _ he')
    have hstep := length_ofScope_intoScope (hrun e List.mem_concat_self).2 (scope run)
    rw [scope_concat, List.flatMap_append, List.length_append, List.flatMap_singleton]
    omega

/-! ## Events that were decoded -/

theorem tagOf_event (e : Element) : tagOf e.event = e.tag := by
  unfold Element.event
  split
  all_goals first
    | rfl
    | (rename_i htag; exact (UInt16.toNat_inj.1 htag).symm)

/-- An event is written with as many bytes of payload as it was read with. -/
theorem length_payloadOf_event {limit : Nat} {e : Element} (hf : e.Fits) (hin : e.InEvent limit) :
    (payloadOf e.event).length = e.payload.length := by
  unfold Element.InEvent EventAllows at hin
  unfold Element.event
  split at hin
  · rw [hin]; exact length_calibration _
  · rw [hin]; exact length_stateChange _
  · rw [length_attachment]
    show (e.payload.drop 4).length + 4 = _
    rw [List.length_drop]
    omega
  · rw [hin]; rfl
  · rw [hin]; rfl
  · rw [hin]; exact length_position _
  · rw [payloadOf, List.length_replicate]
    exact Decode.toNat_length hf

/-- Only an element with the tag of the separator is read as an event of tag 0. -/
theorem event_eq_unknown_zero {e : Element} : (∃ n, e.event = .unknown 0 n) ↔ e.tag = 0 := by
  constructor
  · rintro ⟨n, he⟩
    rw [← tagOf_event, he]
    rfl
  · intro h0
    unfold Element.event
    rw [h0]
    exact ⟨_, rfl⟩

/-- An event that was read can be written, unless it has the tag of the separator. -/
theorem writable_event {limit : Nat} {e : Element} (hf : e.Fits) (hin : e.InEvent limit) (h0 : e.tag ≠ 0) :
    e.event.Writable limit := by
  have hsize : e.payload.length < UInt32.size := by
    rw [← Decode.toNat_length hf]
    exact UInt32.toNat_lt _
  have hne : e.tag.toNat ≠ 0 := fun h => h0 (UInt16.toNat_inj.1 h)
  have htag : e.tag.toNat ≤ 0x7fff := hf.tag_le
  unfold Element.InEvent EventAllows at hin
  unfold Element.event
  split at hin
  · trivial
  · trivial
  · refine ⟨?_, ?_⟩
    · show (e.payload.drop 4).length + 4 < UInt32.size
      rw [List.length_drop, Nat.sub_add_cancel hin.1]
      exact hsize
    · show (e.payload.drop 4).length ≤ _
      rw [List.length_drop]
      exact hin.2
  · trivial
  · trivial
  · trivial
  · rename_i h1 h2 h3 h4 h5 h6
    have hge : 7 ≤ e.tag.toNat := by
      simp only [imp_false] at h1 h2 h3 h4 h5 h6
      omega
    exact ⟨hge, htag⟩

/-- The element as which an event is written takes no more bytes than the one that it was read from. -/
theorem length_ofEvent_le {limit : Nat} {e : Element} (hf : e.Fits) (hin : e.InEvent limit) (h0 : e.tag ≠ 0) :
    (ofEvent e.event).bytes.length ≤ e.bytes.length := by
  have hpayload := length_payloadOf_event hf hin
  have hfits : e.payload.length < BigEndian.capacity (lengthWidth e.tag e.wide) := hf.length_lt
  rw [Element.length_bytes, Element.length_bytes, ofEvent]
  show 2 + lengthWidth (tagOf e.event) (256 ≤ (payloadOf e.event).length) + (payloadOf e.event).length ≤ _
  rw [hpayload, tagOf_event]
  unfold lengthWidth at hfits ⊢
  rw [if_neg h0] at hfits
  rw [if_neg h0, if_neg h0]
  by_cases hlong : 256 ≤ e.payload.length
  · -- one byte cannot say the length, so the field had four before
    cases hwide : e.wide with
    | false =>
      rw [hwide] at hfits
      exact absurd hfits (Nat.not_lt_of_le hlong)
    | true => exact Nat.le_of_eq (by rw [decide_eq_true hlong])
  · rw [decide_eq_false hlong]
    cases e.wide <;> simp

theorem length_ofFrame_le {limit : Nat} {f : Frame} (hf : f.WellFormed limit) (h0 : f.event.tag ≠ 0) :
    (ofFrame f.meaning).bytes.length ≤ f.bytes.length := by
  have hscope := length_ofScope_le hf.scopes
  have hevent := length_ofEvent_le hf.event_fits hf.event_allowed h0
  unfold Frame.bytes
  simp only [List.length_append]
  exact Nat.add_le_add (Nat.add_le_add hscope (Nat.le_refl _)) hevent

theorem length_ofFrames_le {limit : Nat} {fs : List Frame} (hfs : ∀ f ∈ fs, f.WellFormed limit)
    (h0 : ∀ f ∈ fs, f.event.tag ≠ 0) :
    ((fs.map Frame.meaning).flatMap fun p => (ofFrame p).bytes).length ≤ (fs.flatMap Frame.bytes).length := by
  induction fs with
  | nil => exact Nat.le_refl _
  | cons f fs ih =>
    have hhead := length_ofFrame_le (hfs f List.mem_cons_self) (h0 f List.mem_cons_self)
    have htail := ih (fun f hf => hfs f (List.mem_cons_of_mem _ hf)) fun f hf => h0 f (List.mem_cons_of_mem _ hf)
    rw [List.map_cons, List.flatMap_cons, List.flatMap_cons, List.length_append, List.length_append]
    exact Nat.add_le_add hhead htail

/-- What a decoded frame is written as means the frame without its mark. -/
theorem meaning_ofFrame_meaning {limit : Nat} {f : Frame} (hf : f.WellFormed limit) (h0 : f.event.tag ≠ 0) :
    (ofFrame f.meaning).meaning = f.meaning.unmarked := by
  rw [meaning_ofFrame (writable_event hf.event_fits hf.event_allowed h0 : f.meaning.event.Writable limit)]
  have hscope : f.meaning.scope.normal = f.meaning.scope.unmarked := (tidy_scope f.scopes).normal
  unfold NodeTrace.Frame.normal NodeTrace.Frame.unmarked
  rw [hscope]

end Written

/-- What is decoded in front of an error, whichever it is, was written. -/
theorem Decoder.written_of_mem_frames {limit : Nat} {d : Decoder} (hd : d.source.Reliable) :
    ∀ p ∈ (d.frames limit).1, ∃ f : Written.Frame, f.WellFormed limit ∧ p = f.meaning := by
  fun_induction Decoder.frames limit d with
  | case1 => exact List.forall_mem_nil _
  | case2 d f d₁ hf ih =>
    obtain ⟨w, hread, hp⟩ :=
      Decode.reads_of_run (Decode.regular_frame limit) hd (Decode.run_eq_ok.2 hf) (Decode.judged_ok f)
    obtain ⟨u, hu, -, rfl⟩ := Decode.reads_frame_iff.1 hread
    intro p hmem
    rcases List.mem_cons.1 hmem with rfl | hmem
    · exact ⟨u, hu, rfl⟩
    · exact ih hp.reliable p hmem

/-! ## Refusals -/

namespace Sink

theorem perform_event_separator (n : UInt32) (s : Sink) :
    ∃ text, perform (.event (.unknown 0 n)) s = .error (.invalidInput text) s := ⟨_, rfl⟩

/-- The sink has no limit, or fails otherwise than by a refusal. -/
def TellsRefusals (s : Sink) : Prop := s.capacity = none ∨ ∀ text, s.fault ≠ .invalidInput text

/-- Of the events that were decoded only those with the tag of the separator are refused. -/
theorem perform_event_refused_iff {limit : Nat} {f : Written.Frame} (hf : f.WellFormed limit) {s : Sink}
    (hs : s.TellsRefusals) : (∃ text s', perform (.event f.event.event) s = .error (.invalidInput text) s') ↔
      ∃ n, f.event.event = .unknown 0 n := by
  constructor
  · rintro ⟨text, s', h⟩
    by_contra hnot
    have h0 : f.event.tag ≠ 0 := fun h0 => hnot (Written.event_eq_unknown_zero.2 h0)
    have hwritable := Written.writable_event hf.event_fits hf.event_allowed h0
    rw [perform, putEvent_eq hwritable.not_refused] at h
    rcases hs with hunbounded | hfault
    · rw [put_of_unbounded hunbounded] at h
      cases h
    · obtain ⟨bytes, hput | hput⟩ := exists_put (Written.ofEvent f.event.event).bytes s
      · rw [hput] at h
        cases h
      · rw [hput, EStateM.Result.error.injEq] at h
        exact hfault text h.1
  · rintro ⟨n, he⟩
    obtain ⟨text, h⟩ := perform_event_separator n s
    rw [he]
    exact ⟨text, s, h⟩

end Sink

/-! ## The canonical form -/

/-- Steps that do the same one by one do the same in turn. -/
theorem Sink.performAll_congr {steps steps' : List WriteStep} (h : steps.map perform = steps'.map perform) :
    performAll steps = performAll steps' := by
  induction steps generalizing steps' with
  | nil => rw [List.map_eq_nil_iff.1 h.symm]
  | cons step steps ih =>
    obtain ⟨step', steps', rfl, hstep, hsteps⟩ := List.map_eq_cons_iff.1 h.symm
    funext s
    simp only [performAll, hstep, ih hsteps.symm]

/-- A mark of unknown elements makes no difference to what is written. -/
theorem Sink.performAll_unmarked (frames : List Frame) :
    performAll (WriteStep.ofFrames (frames.map Frame.unmarked)) = performAll (WriteStep.ofFrames frames) := by
  apply performAll_congr
  unfold WriteStep.ofFrames
  rw [List.map_cons, List.map_cons, List.map_flatMap, List.map_flatMap, List.flatMap_map]
  rfl

/-- Frames that were written without the tag of the separator are written again in no more bytes, and these spell the
frames without their marks. -/
theorem Written.Spells.rewritten {limit : Nat} {minor : UInt32} {fs : List Frame} {bytes : List UInt8}
    (h : Spells limit minor fs bytes) (h0 : ∀ f ∈ fs, f.event.tag ≠ 0) :
    ∃ sink, Sink.performAll (Sink.WriteStep.ofFrames (fs.map Frame.meaning)) {} =
        (List.replicate (2 * fs.length + 1) none, sink) ∧
      sink.written.size ≤ bytes.length ∧
      Spells limit Format.minorVersion (fs.map fun f => ofFrame f.meaning) sink.written.toList := by
  have hwritable : ∀ p ∈ fs.map Frame.meaning, p.event.Writable limit :=
    List.forall_mem_map.2 fun f hf =>
      writable_event (h.wellFormed f hf).event_fits (h.wellFormed f hf).event_allowed (h0 f hf)
  obtain ⟨sink, hperform, htook⟩ := Sink.performAll_ofFrames hwritable (s := {}) rfl
  rw [List.length_map] at hperform
  have hwritten : sink.written.toList = header Format.minorVersion ++
      (fs.map Frame.meaning).flatMap fun p => (ofFrame p).bytes := htook.written
  refine ⟨sink, hperform, ?_, ?_, ?_⟩
  · have hheader (minor : UInt32) : (header minor).length = 16 := rfl
    rw [← Array.length_toList, hwritten, h.bytes_eq, List.length_append, List.length_append, hheader, hheader]
    exact Nat.add_le_add_left (length_ofFrames_le h.wellFormed h0) 16
  · intro f hf
    obtain ⟨f, hmem, rfl⟩ := List.mem_map.1 hf
    exact ofFrame_wellFormed (hwritable _ (List.mem_map_of_mem hmem))
  · rw [hwritten, List.flatMap_map, List.flatMap_map]

/-- Of what is decoded, also in front of an error, exactly the events with the tag of the separator are refused,
before anything is written.  A trace that ends cleanly and has none of them is written again in no more bytes; these
are decoded as the same frames without their marks, and are what those frames are written as. -/
theorem reencoding_canonical {limit : Nat} {s : Source} (hs : s.Reliable) {h : TraceHeader} {d d' : Decoder}
    (hopen : (Decode.openTrace limit).run (.ofSource s) = (.ok h, d)) {ps : List Frame} {e : DecodeError}
    (hframes : d.frames limit = (ps, e, d')) :
    (∀ f ∈ ps, ∀ sink : Sink,
      (sink.TellsRefusals →
        ((∃ text sink', Sink.perform (.event f.event) sink = .error (.invalidInput text) sink') ↔
          ∃ n, f.event = .unknown 0 n)) ∧
      ((∃ n, f.event = .unknown 0 n) → ∃ text, Sink.perform (.event f.event) sink = .error (.invalidInput text) sink) ∧
      ((¬∃ n, f.event = .unknown 0 n) → sink.capacity = none →
        ∃ sink', Sink.perform (.event f.event) sink = .ok () sink')) ∧
    (e = .endOfStream → (∀ f ∈ ps, ¬∃ n, f.event = .unknown 0 n) →
      ∃ sink, Sink.performAll (Sink.WriteStep.ofFrames ps) {} =
          (List.replicate (2 * ps.length + 1) none, sink) ∧
        sink.written.size ≤ s.unread.length ∧
        ∀ s' : Source, s'.Reliable → s'.unread = sink.written.toList →
          ∃ c c', (Decode.openTrace limit).run (.ofSource s') = (.ok Format.header, c) ∧
            c.frames limit = (ps.map Frame.unmarked, .endOfStream, c') ∧
            Sink.performAll (Sink.WriteStep.ofFrames (ps.map Frame.unmarked)) {} =
              (List.replicate (2 * ps.length + 1) none, sink)) := by
  constructor
  · intro f hf sink
    obtain ⟨w, -, hp⟩ := Decode.reads_of_run (Decode.regular_openTrace limit) hs hopen (Decode.judged_ok h)
    have hmem : f ∈ (d.frames limit).1 := by rwa [hframes]
    obtain ⟨u, hu, rfl⟩ := Decoder.written_of_mem_frames hp.reliable f hmem
    refine ⟨Sink.perform_event_refused_iff hu, ?_, ?_⟩
    · rintro ⟨n, hn⟩
      rw [hn]
      exact Sink.perform_event_separator n sink
    · intro hne hsink
      have h0 : u.event.tag ≠ 0 := fun h0 => hne (Written.event_eq_unknown_zero.2 h0)
      have hwritable := Written.writable_event hu.event_fits hu.event_allowed h0
      have hwritten : Sink.perform (.event u.meaning.event) = Sink.put (Written.ofEvent u.event.event).bytes :=
        Sink.putEvent_eq hwritable.not_refused
      obtain ⟨sink', hput, -⟩ := Sink.put_unbounded hsink (Written.ofEvent u.event.event).bytes
      rw [hwritten]
      exact ⟨sink', hput⟩
  · rintro rfl hne
    obtain ⟨-, fs, hspells, rfl⟩ := Written.spells_of_decodes hs hopen hframes
    have h0 : ∀ f ∈ fs, f.event.tag ≠ 0 := fun f hf h0 =>
      hne f.meaning (List.mem_map_of_mem hf) (Written.event_eq_unknown_zero.2 h0)
    obtain ⟨sink, hperform, hsize, hagain⟩ := hspells.rewritten h0
    rw [List.length_map]
    refine ⟨sink, hperform, hsize, fun s' hs' hu => ?_⟩
    rw [← hu] at hagain
    obtain ⟨c, c', hopen', hframes'⟩ := hagain.decodes hs'
    have hmeaning : (fs.map fun f => Written.ofFrame f.meaning).map Written.Frame.meaning =
        (fs.map Written.Frame.meaning).map Frame.unmarked := by
      rw [List.map_map, List.map_map]
      exact List.map_congr_left fun f hf => Written.meaning_ofFrame_meaning (hspells.wellFormed f hf) (h0 f hf)
    rw [hmeaning] at hframes'
    refine ⟨c, c', hopen', hframes', ?_⟩
    rw [Sink.performAll_unmarked]
    exact hperform

/-- A trace that takes more bytes than it needs: a simulation element is repeated, one of the two and the unknown event
have wide length fields, and an element without a meaning marks the scope. -/
def redundant : Source where
  unread := [0x63, 0x74, 0x6b, 0x74, 0x72, 0x61, 0x63, 0x65, 0, 0, 0, 1, 0, 0, 0, 7,
    0, 3, 0, 0, 0, 8, 0, 0, 0, 0, 0, 0, 0, 1, 0, 2, 8, 0, 0, 0, 0, 0, 0, 0, 2, 0, 18, 1, 5, 0, 1,
    0, 17, 0, 0, 0, 2, 6, 7]
  chunk := some 4
  interrupts := [3]

def redundantFrames : List Written.Frame :=
  [⟨[⟨1, true, [0, 0, 0, 0, 0, 0, 0, 1]⟩, ⟨1, false, [0, 0, 0, 0, 0, 0, 0, 2]⟩, ⟨9, false, [5]⟩], true,
    ⟨8, true, [6, 7]⟩⟩]

theorem redundant_spells : Written.Spells 0 7 redundantFrames redundant.unread := by
  refine ⟨List.forall_mem_singleton.2 ⟨?_, ⟨by decide, by decide⟩, trivial⟩, rfl⟩
  exact List.forall_mem_cons.2 ⟨⟨⟨by decide, by decide⟩, rfl⟩, List.forall_mem_cons.2
    ⟨⟨⟨by decide, by decide⟩, rfl⟩, List.forall_mem_singleton.2 ⟨⟨by decide, by decide⟩, trivial⟩⟩⟩

/-- Of the 39 bytes behind the header 18 are left. -/
theorem reencoding_canonical_redundant : redundant.Reliable ∧
    ∃ d d', (Decode.openTrace 0).run (.ofSource redundant) = (.ok ⟨1, 7⟩, d) ∧
      d.frames 0 = ([⟨⟨⟨true, true, false⟩, 2, 0, {}⟩, .unknown 8 2⟩], .endOfStream, d') ∧
      ∃ sink,
        Sink.performAll (Sink.WriteStep.ofFrames [⟨⟨⟨true, true, false⟩, 2, 0, {}⟩, .unknown 8 2⟩]) {} =
          ([none, none, none], sink) ∧
        sink.written.size ≤ 55 ∧
        ∀ s' : Source, s'.Reliable → s'.unread = sink.written.toList →
          ∃ c c', (Decode.openTrace 0).run (.ofSource s') = (.ok ⟨1, 0⟩, c) ∧
            c.frames 0 = ([⟨⟨⟨false, true, false⟩, 2, 0, {}⟩, .unknown 8 2⟩], .endOfStream, c') ∧
            Sink.performAll (Sink.WriteStep.ofFrames [⟨⟨⟨false, true, false⟩, 2, 0, {}⟩, .unknown 8 2⟩])
              {} = ([none, none, none], sink) := by
  have hs : redundant.Reliable := ⟨nofun, rfl⟩
  obtain ⟨d, d', hopen, hframes⟩ := redundant_spells.decodes hs
  refine ⟨hs, d, d', hopen, hframes, ?_⟩
  exact (reencoding_canonical hs hopen hframes).2 rfl (List.forall_mem_singleton.2 (by rintro ⟨n, hn⟩; cases hn))

end NodeTrace
