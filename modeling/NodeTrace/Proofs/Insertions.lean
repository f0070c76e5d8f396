import NodeTrace.Proofs.Agreement
import NodeTrace.Proofs.Canonical
import NodeTrace.Proofs.Rescoping

/-!
# Elements without a meaning

A trace may be written with elements that a reader does not know, in scopes and as events.  They are passed over: a
scope that received one is marked, an event is reported as unknown, and all else is read as before
(`Written.Edit.meaning_after`).  Graphs are drawn of what is known of the frames, and events with a meaning and the ids
in state changes are tallied of it; and this is the same with and without such elements (`insertions_harmless`).
-/

namespace NodeTrace

/-! ## What is known of frames -/

/-- The frame without the mark of unknown elements, if its event has a meaning. -/
def Frame.known? (f : Frame) : Option Frame := if f.event.kind = .unknown then none else some f.unmarked

/-- The frames whose events have a meaning, without the marks of unknown elements. -/
def knownFrames (frames : List Frame) : List Frame := frames.filterMap Frame.known?

/-- The visit without the mark of unknown elements. -/
def Visit.unmarked (v : Visit) : Visit := ⟨v.scope.unmarked, v.state⟩

section Known

theorem filterMap_knownFrames {α : Type} {read? : Frame → Option α} {g : α → α}
    (h : ∀ f : Frame, f.known?.bind read? = (read? f).map g) (frames : List Frame) :
    (knownFrames frames).filterMap read? = (frames.filterMap read?).map g := by
  unfold knownFrames
  rw [List.filterMap_filterMap, List.map_filterMap]
  exact List.filterMap_congr fun f _ => h f

/-- What is read of state changes alone is read of the known frames. -/
theorem filterMap_change_knownFrames {α : Type} {read? : Frame → Option α}
    (h : ∀ f : Frame, f.known?.bind read? = read? f) (frames : List Frame) :
    (knownFrames frames).filterMap read? = frames.filterMap read? := by
  rw [filterMap_knownFrames (g := id) fun f => by rw [h, Option.map_id_fun, id], List.map_id_fun, id]

theorem Frame.known?_bind_context? (f : Frame) : f.known?.bind Frame.context? = f.context? := by
  unfold known? unmarked context? Event.kind
  cases f.event <;> rfl

theorem Frame.known?_bind_entity? (f : Frame) : f.known?.bind Frame.entity? = f.entity? := by
  unfold known? unmarked entity? Event.kind
  cases f.event <;> rfl

theorem Frame.known?_bind_state? (f : Frame) : f.known?.bind Frame.state? = f.state? := by
  unfold known? unmarked state? Event.kind
  cases f.event <;> rfl

theorem Frame.known?_bind_visit? (context : UInt16) (f : Frame) :
    f.known?.bind (Frame.visit? context) = (f.visit? context).map Visit.unmarked := by
  unfold known? unmarked visit? Event.kind
  cases f.event with
  | monitorState change =>
    show (if change.context = context then _ else _) = Option.map _ (if change.context = context then _ else _)
    split <;> rfl
  | _ => rfl

theorem contexts_knownFrames (frames : List Frame) : contexts (knownFrames frames) = contexts frames :=
  filterMap_change_knownFrames Frame.known?_bind_context? frames

theorem visits_knownFrames (context : UInt16) (frames : List Frame) :
    visits context (knownFrames frames) = (visits context frames).map Visit.unmarked :=
  filterMap_knownFrames (Frame.known?_bind_visit? context) frames

theorem countP_knownFrames {kind : EventKind} (h : kind ≠ .unknown) (frames : List Frame) :
    (knownFrames frames).countP (·.event.kind = kind) = frames.countP (·.event.kind = kind) := by
  unfold knownFrames
  rw [List.countP_filterMap]
  refine List.countP_congr fun f _ => ?_
  unfold Frame.known?
  by_cases hk : f.event.kind = .unknown
  · rw [if_pos hk, hk]
    simp [Ne.symm h]
  · rw [if_neg hk]
    rfl

end Known

/-! ## Graphs -/

/-- The mark of a scope makes no difference to the time that passes. -/
theorem Scope.keepsTimes_unmarked : KeepsTimes unmarked := ⟨fun _ _ _ => rfl, rfl⟩

/-- Graphs are drawn of what is known of the frames. -/
theorem Automata.lines_knownFrames (names : Names) (metric : Option Metric) (frames : List Frame) :
    (observed (knownFrames frames)).lines names metric = (observed frames).lines names metric := by
  have hknown := observed_rescope (fun _ => Scope.keepsTimes_unmarked) (contexts_knownFrames frames)
    fun context => visits_knownFrames context frames
  rw [hknown, lines_rescope]

/-! ## Tallies -/

/-- The tallies have the same counters of events with a meaning, and saw the same ids in state changes. -/
structure Tally.KnownAlike (t t' : Tally) : Prop where
  events : ∀ kind, kind ≠ .unknown → t'.events.get kind = t.events.get kind
  contexts : t'.contexts = t.contexts
  entities : t'.entities = t.entities
  states : t'.states = t.states

namespace Tally

/-- A set of ids is made of the ids in the place of the frames from which it is taken. -/
theorem ids_ofFrames (ids : Tally → IdSet) {id? : Frame → Option UInt16} (hnil : ids {} = {})
    (hadd : ∀ t f, ids (t.add f) = (id? f).elim (ids t) (ids t).insert) (frames : List Frame) :
    ids (ofFrames frames) = (frames.filterMap id?).foldl IdSet.insert {} := by
  induction frames using List.reverseRecOn with
  | nil => exact hnil
  | append_singleton frames f ih =>
    rw [ofFrames_concat, hadd, List.filterMap_append, List.foldl_append, ← ih, List.filterMap_cons, List.filterMap_nil]
    cases id? f <;> rfl

/-- A set of ids from state changes is the same of what is known of the frames. -/
theorem ids_knownFrames (ids : Tally → IdSet) {id? : Frame → Option UInt16} (hnil : ids {} = {})
    (hadd : ∀ t f, ids (t.add f) = (id? f).elim (ids t) (ids t).insert)
    (hknown : ∀ f : Frame, f.known?.bind id? = id? f) (frames : List Frame) :
    ids (ofFrames (knownFrames frames)) = ids (ofFrames frames) := by
  rw [ids_ofFrames ids hnil hadd, ids_ofFrames ids hnil hadd, filterMap_change_knownFrames hknown]

/-- A tally is made of what is known of the frames, apart from what it counts as unknown, scopes and nodes. -/
theorem knownAlike_knownFrames (frames : List Frame) :
    (ofFrames frames).KnownAlike (ofFrames (knownFrames frames)) where
  events kind hkind := by
    rw [get_events, get_events, countP_knownFrames hkind]
  contexts := ids_knownFrames Tally.contexts rfl contexts_add Frame.known?_bind_context? frames
  entities := ids_knownFrames Tally.entities rfl entities_add Frame.known?_bind_entity? frames
  states := ids_knownFrames Tally.states rfl states_add Frame.known?_bind_state? frames

theorem KnownAlike.of_knownFrames {frames frames' : List Frame} (h : knownFrames frames' = knownFrames frames) :
    (ofFrames frames).KnownAlike (ofFrames frames') := by
  have hleft := knownAlike_knownFrames frames
  have hright := knownAlike_knownFrames frames'
  rw [h] at hright
  exact ⟨fun kind hkind => (hright.events kind hkind).symm.trans (hleft.events kind hkind),
    hright.contexts.symm.trans hleft.contexts, hright.entities.symm.trans hleft.entities,
    hright.states.symm.trans hleft.states⟩

end Tally

/-! ## Insertions -/

namespace Written

/-- An element of a scope run, and whether it was inserted there. -/
structure Placed where
  element : Element
  inserted : Bool

/-- A frame of a trace into which something was inserted. -/
inductive Edit where
  /-- A frame that was there, perhaps with elements inserted into its scope run. -/
  | kept (run : List Placed) (closing : Bool) (event : Element)
  /-- A frame that was inserted as a whole. -/
  | inserted (f : Frame)

/-- The elements of a run that were there. -/
def original (run : List Placed) : List Element := (run.filter (!·.inserted)).map (·.element)

namespace Edit

/-- The frame that was there before anything was inserted, if there was one. -/
def before? : Edit → Option Frame
  | kept run closing event => some ⟨original run, closing, event⟩
  | inserted _ => none

/-- The frame that is there now. -/
def after : Edit → Frame
  | kept run closing event => ⟨run.map (·.element), closing, event⟩
  | inserted f => f

/-- What is inserted has no meaning: elements of scopes have the tags from 3 on, events the tags from 7 on or 0. -/
def Allowed (limit : Nat) : Edit → Prop
  | kept run _ _ => ∀ p ∈ run, p.inserted = true → p.element.Fits ∧ 3 ≤ p.element.tag.toNat
  | inserted f => f.WellFormed limit ∧ (f.event.tag = 0 ∨ 7 ≤ f.event.tag.toNat)

/-- What the frame that is there now is to mean: what it meant before, with a mark if its scope received an element, or
an unknown event. -/
def meaning : Edit → NodeTrace.Frame
  | kept run _ event =>
    if run.any (·.inserted) then ⟨(scope (original run)).withUnknown, event.event⟩
    else ⟨scope (original run), event.event⟩
  | inserted f => ⟨scope f.scopes, .unknown f.event.tag (UInt32.ofNat f.event.payload.length)⟩

end Edit

theorem Element.intoScope_withUnknown (e : Element) (scope : NodeTrace.Scope) :
    e.intoScope scope.withUnknown = (e.intoScope scope).withUnknown := by
  unfold Element.intoScope
  split <;> rfl

theorem Element.intoScope_of_three_le {e : Element} (h : 3 ≤ e.tag.toNat) (scope : NodeTrace.Scope) :
    e.intoScope scope = scope.withUnknown := by
  unfold Element.intoScope
  split
  · omega
  · omega
  · rfl

theorem Element.event_of_unknown {e : Element} (h : e.tag = 0 ∨ 7 ≤ e.tag.toNat) :
    e.event = .unknown e.tag (UInt32.ofNat e.payload.length) := by
  unfold Element.event
  rcases h with h | h
  · rw [h]
    rfl
  · split
    all_goals first
      | omega
      | rfl

theorem original_concat (run : List Placed) (p : Placed) :
    original (run ++ [p]) = original run ++ if p.inserted then [] else [p.element] := by
  unfold original
  rw [List.filter_append, List.map_append]
  cases hp : p.inserted <;> simp [hp]

theorem any_inserted_concat (run : List Placed) (p : Placed) :
    (run ++ [p]).any (·.inserted) = (run.any (·.inserted) || p.inserted) := by
  rw [List.any_append, List.any_cons, List.any_nil, Bool.or_false]

/-- Inserted elements mark a scope and do nothing else to it. -/
theorem scope_map_element {run : List Placed} (hrun : ∀ p ∈ run, p.inserted = true → 3 ≤ p.element.tag.toNat) :
    scope (run.map (·.element)) =
      if run.any (·.inserted) then (scope (original run)).withUnknown else scope (original run) := by
  induction run using List.reverseRecOn with
  | nil => rfl
  | append_singleton run p ih =>
    rw [List.map_append, List.map_singleton, scope_concat, ih fun q hq => hrun q (List.mem_append_left _ hq),
      original_concat, any_inserted_concat]
    cases hp : p.inserted with
    | false =>
      have hconcat : scope (original run ++ if false = true then [] else [p.element]) =
          p.element.intoScope (scope (original run)) := scope_concat _ _
      rw [Bool.or_false, hconcat]
      split
      · exact p.element.intoScope_withUnknown _
      · rfl
    | true =>
      rw [Bool.or_true, if_pos rfl, if_pos rfl, List.append_nil,
        Element.intoScope_of_three_le (hrun p List.mem_concat_self hp)]
      split <;> rfl

namespace Edit

variable {limit : Nat} {e : Edit}

theorem meaning_after (h : e.Allowed limit) : e.after.meaning = e.meaning := by
  cases e with
  | kept run closing event =>
    have hscope := scope_map_element fun p hp hi => (h p hp hi).2
    show NodeTrace.Frame.mk (scope (run.map (·.element))) event.event = _
    rw [hscope, meaning]
    split <;> rfl
  | inserted f =>
    show NodeTrace.Frame.mk (scope f.scopes) f.event.event = _
    rw [Element.event_of_unknown h.2, meaning]

theorem wellFormed_after (h : e.Allowed limit) (hbefore : ∀ f ∈ e.before?, f.WellFormed limit) :
    e.after.WellFormed limit := by
  cases e with
  | kept run closing event =>
    obtain ⟨hscopes, hfits, hevent⟩ := hbefore _ rfl
    refine ⟨fun x hx => ?_, hfits, hevent⟩
    obtain ⟨p, hp, rfl⟩ := List.mem_map.1 hx
    cases hi : p.inserted with
    | false => exact hscopes _ (List.mem_map_of_mem (List.mem_filter.2 ⟨hp, by rw [hi]; rfl⟩))
    | true =>
      obtain ⟨hfits', htag⟩ := h p hp hi
      refine ⟨hfits', ?_⟩
      unfold Element.InScope ScopeAllows
      split
      all_goals first
        | omega
        | trivial
  | inserted f => exact h.1

/-- What was inserted is not known. -/
theorem known?_meaning (h : e.Allowed limit) : e.meaning.known? = e.before?.bind (·.meaning.known?) := by
  cases e with
  | kept run closing event =>
    rw [meaning]
    split <;> rfl
  | inserted f => rfl

end Edit

section Edits

variable {limit : Nat} {edits : List Edit}

theorem map_meaning_after (h : ∀ e ∈ edits, e.Allowed limit) :
    (edits.map Edit.after).map Frame.meaning = edits.map Edit.meaning := by
  rw [List.map_map]
  exact List.map_congr_left fun e he => Edit.meaning_after (h e he)

theorem knownFrames_meaning (h : ∀ e ∈ edits, e.Allowed limit) :
    knownFrames (edits.map Edit.meaning) = knownFrames ((edits.filterMap Edit.before?).map Frame.meaning) := by
  unfold knownFrames
  rw [List.filterMap_map, List.filterMap_map, List.filterMap_filterMap]
  exact List.filterMap_congr fun e he => Edit.known?_meaning (h e he)

/-- Bytes into which something allowed was inserted spell frames that are allowed. -/
theorem Spells.after {minor : UInt32} {bytes : List UInt8} (h : Spells limit minor (edits.filterMap Edit.before?) bytes)
    (hallowed : ∀ e ∈ edits, e.Allowed limit) :
    Spells limit minor (edits.map Edit.after) (header minor ++ (edits.map Edit.after).flatMap Frame.bytes) := by
  refine ⟨fun f hf => ?_, rfl⟩
  obtain ⟨e, he, rfl⟩ := List.mem_map.1 hf
  exact e.wellFormed_after (hallowed e he) fun f hf => h.wellFormed f (List.mem_filterMap.2 ⟨e, he, hf⟩)

end Edits

end Written

/-! ## Analyses -/

/-- A trace that ends cleanly comes to the number of its frames. -/
theorem Decoder.result_of_endOfStream {limit : Nat} {d d' : Decoder} {frames : List Frame}
    (h : d.frames limit = (frames, .endOfStream, d')) : d.result limit = .ok frames.length := by
  unfold result
  rw [h]
  rfl

namespace Analysis

variable {limit : Nat} {s : Source} {h : TraceHeader} {d d' : Decoder} {frames : List Frame}

/-- What is written at the end of an analysis does not depend on the number of events. -/
theorem sink_finish_ok (n n' : Nat) (lines : List String) (sink : Sink) (d d' : Decoder) :
    (finish (.ok n) lines sink d).sink = (finish (.ok n') lines sink d').sink := by
  unfold finish
  dsimp only
  split <;> rfl

/-- Graphs of a trace that ends cleanly are written from its frames alone. -/
theorem sink_run_graph (hs : s.Flows) (hopen : (Decode.openTrace limit).run (.ofSource s) = (.ok h, d))
    (hframes : d.frames limit = (frames, .endOfStream, d')) (names : Names) (metric : Option Metric) (human : Bool)
    (sink : Sink) : (run ⟨.graph, metric, human⟩ limit names s sink).sink =
      (finish (.ok 0) ((Automata.observed frames).lines names metric) sink d).sink := by
  obtain ⟨d₁, halike, hrun⟩ := run_of_open ⟨.graph, metric, human⟩ names hs sink (Decode.run_eq_ok.1 hopen)
  obtain ⟨houtcome, hstate⟩ := dispatch_automata halike.flows' limit
  rw [halike.result limit, Decoder.result_of_endOfStream hframes] at houtcome
  rw [(halike.frames limit).1, hframes] at hstate
  rw [hrun]
  unfold runOpened
  dsimp only
  rw [houtcome, hstate]
  exact sink_finish_ok _ _ _ _ _ _

/-- A report of a trace that ends cleanly is that of the tally with which its dispatch ends. -/
theorem written_run_report (hs : s.Flows) (hopen : (Decode.openTrace limit).run (.ofSource s) = (.ok h, d))
    (hframes : d.frames limit = (frames, .endOfStream, d')) (names : Names) (metric : Option Metric) (human : Bool)
    {sink : Sink} (hsink : sink.Unfailing) : (run ⟨.report, metric, human⟩ limit names s sink).sink.written =
      sink.written ++ Sink.bytesOf ((d.dispatch limit Tally.handler {}).state.lines human) := by
  have hends := run_unfailing ⟨.report, metric, human⟩ names hs hsink (Decode.run_eq_ok.1 hopen)
  have hd := (Decode.regular_openTrace limit).flows (d := .ofSource s) hs hopen
  rw [hends.written _ (Decoder.result_of_endOfStream hframes), (dispatch_tally hd limit).2]
  rfl

end Analysis

/-- Elements with tags from 3 on that are inserted into the scope runs of a trace which ends cleanly, and frames with an
event of tag 0 or of a tag from 7 on that are inserted between its frames, are decoded as marks of these scopes and as
unknown events; nothing else that is decoded changes.  The graphs of all metrics are the same to the byte, whatever the
sink, and the tally that is reported differs in its counters of unknown events and of scopes and in its nodes alone. -/
theorem insertions_harmless {limit : Nat} {s : Source} (hs : s.Reliable) {h : TraceHeader} {d d₁ : Decoder}
    (hopen : (Decode.openTrace limit).run (.ofSource s) = (.ok h, d)) {ps : List Frame}
    (hframes : d.frames limit = (ps, .endOfStream, d₁)) :
    (∃ fs, Written.Spells limit h.minor fs s.unread ∧ ps = fs.map Written.Frame.meaning) ∧
    ∀ edits : List Written.Edit, (∀ e ∈ edits, e.Allowed limit) →
      Written.Spells limit h.minor (edits.filterMap Written.Edit.before?) s.unread →
      ps = (edits.filterMap Written.Edit.before?).map Written.Frame.meaning ∧
      ∀ s' : Source, s'.Reliable →
        s'.unread = Written.header h.minor ++ (edits.map Written.Edit.after).flatMap Written.Frame.bytes →
        ∃ d' d₁', (Decode.openTrace limit).run (.ofSource s') = (.ok h, d') ∧
          d'.frames limit = (edits.map Written.Edit.meaning, .endOfStream, d₁') ∧
          (∀ names metric human sink, (Analysis.run ⟨.graph, metric, human⟩ limit names s' sink).sink =
            (Analysis.run ⟨.graph, metric, human⟩ limit names s sink).sink) ∧
          (d.dispatch limit Tally.handler {}).state.KnownAlike (d'.dispatch limit Tally.handler {}).state ∧
          ∀ names metric human sink, sink.Unfailing →
            (Analysis.run ⟨.report, metric, human⟩ limit names s sink).sink.written =
              sink.written ++ Sink.bytesOf ((d.dispatch limit Tally.handler {}).state.lines human) ∧
            (Analysis.run ⟨.report, metric, human⟩ limit names s' sink).sink.written =
              sink.written ++ Sink.bytesOf ((d'.dispatch limit Tally.handler {}).state.lines human) := by
  obtain ⟨hmajor, fs, hspells, hps⟩ := Written.spells_of_decodes hs hopen hframes
  refine ⟨⟨fs, hspells, hps⟩, fun edits hallowed hbefore => ?_⟩
  have hsame : ps = (edits.filterMap Written.Edit.before?).map Written.Frame.meaning := by
    obtain ⟨c, c', hopen', hframes'⟩ := hbefore.decodes hs
    obtain ⟨-, rfl⟩ := Prod.mk.inj (hopen.symm.trans hopen')
    exact (Prod.mk.inj (hframes.symm.trans hframes')).1
  refine ⟨hsame, fun s' hs' hu => ?_⟩
  have hafter := hbefore.after hallowed
  rw [← hu] at hafter
  obtain ⟨d', d₁', hopen', hframes'⟩ := hafter.decodes hs'
  rw [Written.map_meaning_after hallowed] at hframes'
  have hheader : (⟨Format.majorVersion, h.minor⟩ : TraceHeader) = h := by rw [← hmajor]
  rw [hheader] at hopen'
  have hknown : knownFrames (edits.map Written.Edit.meaning) = knownFrames ps := by
    rw [Written.knownFrames_meaning hallowed, hsame]
  refine ⟨d', d₁', hopen', hframes', fun names metric human sink => ?_, ?_, fun names metric human sink hsink =>
    ⟨Analysis.written_run_report hs.flows hopen hframes names metric human hsink,
      Analysis.written_run_report hs'.flows hopen' hframes' names metric human hsink⟩⟩
  · rw [Analysis.sink_run_graph hs'.flows hopen' hframes', Analysis.sink_run_graph hs.flows hopen hframes,
      ← Automata.lines_knownFrames, hknown, Automata.lines_knownFrames]
    exact Analysis.sink_finish_ok _ _ _ _ _ _
  · have hd := (Decode.regular_openTrace limit).flows (d := .ofSource s) hs.flows hopen
    have hd' := (Decode.regular_openTrace limit).flows (d := .ofSource s') hs'.flows hopen'
    rw [(Analysis.dispatch_tally hd limit).2, (Analysis.dispatch_tally hd' limit).2, hframes, hframes']
    exact .of_knownFrames hknown

/-- The frames of `unusual` with a frame in front that has two elements of its own, an empty element with a wide length
field in the second scope run, and a frame with an event of tag 0 between them. -/
def unusualEdits : List Written.Edit :=
  [.inserted ⟨[⟨1, false, [0, 0, 0, 0, 0, 0, 0, 9]⟩, ⟨3, false, [1]⟩], false, ⟨7, false, [0, 2, 0]⟩⟩,
    .kept [⟨⟨9, true, [5, 5]⟩, false⟩, ⟨⟨1, false, [0, 0, 0, 0, 0, 0, 1, 0]⟩, false⟩] true
      ⟨2, false, [0, 1, 0, 2, 0, 3]⟩,
    .inserted ⟨[], true, ⟨0, false, []⟩⟩,
    .kept [⟨⟨0x7fff, true, []⟩, true⟩] false ⟨0, true, []⟩]

theorem unusualEdits_allowed : ∀ e ∈ unusualEdits, e.Allowed 0 := by
  refine List.forall_mem_cons.2 ⟨⟨⟨?_, ⟨by decide, by decide⟩, trivial⟩, .inr (by decide)⟩,
    List.forall_mem_cons.2 ⟨?_, List.forall_mem_cons.2 ⟨⟨⟨nofun, ⟨by decide, by decide⟩, trivial⟩, .inl rfl⟩,
      List.forall_mem_singleton.2 ?_⟩⟩⟩
  · exact List.forall_mem_cons.2 ⟨⟨⟨by decide, by decide⟩, rfl⟩,
      List.forall_mem_singleton.2 ⟨⟨by decide, by decide⟩, trivial⟩⟩
  · exact List.forall_mem_cons.2 ⟨nofun, List.forall_mem_singleton.2 nofun⟩
  · exact List.forall_mem_singleton.2 fun _ => ⟨⟨by decide, by decide⟩, by decide⟩

/-- The bytes of `unusualEdits`. -/
def lengthened : Source where
  unread := [0x63, 0x74, 0x6b, 0x74, 0x72, 0x61, 0x63, 0x65, 0, 0, 0, 1, 0, 0, 0, 7,
    0, 2, 8, 0, 0, 0, 0, 0, 0, 0, 9, 0, 6, 1, 1, 0, 0, 0, 14, 3, 0, 2, 0,
    0, 19, 0, 0, 0, 2, 5, 5, 0, 2, 8, 0, 0, 0, 0, 0, 0, 1, 0, 0, 1, 0, 4, 6, 0, 1, 0, 2, 0, 3, 0, 1, 0, 0,
    255, 255, 0, 0, 0, 0, 0, 0, 0, 1]

theorem insertions_harmless_lengthened : unusual.Reliable ∧ lengthened.Reliable ∧
    (∀ e ∈ unusualEdits, e.Allowed 0) ∧
    ∃ d d₁ d' d₁', (Decode.openTrace 0).run (.ofSource unusual) = (.ok ⟨1, 7⟩, d) ∧
      d.frames 0 = ([⟨⟨⟨true, true, false⟩, 256, 0, {}⟩, .monitorState ⟨1, 2, 3⟩⟩, ⟨{}, .unknown 0 0⟩],
        .endOfStream, d₁) ∧
      (Decode.openTrace 0).run (.ofSource lengthened) = (.ok ⟨1, 7⟩, d') ∧
      d'.frames 0 = ([⟨⟨⟨true, true, false⟩, 9, 0, {}⟩, .unknown 7 3⟩,
        ⟨⟨⟨true, true, false⟩, 256, 0, {}⟩, .monitorState ⟨1, 2, 3⟩⟩, ⟨{}, .unknown 0 0⟩,
        ⟨⟨⟨true, false, false⟩, 0, 0, {}⟩, .unknown 0 0⟩], .endOfStream, d₁') ∧
      (Analysis.run ⟨.graph, some .count, false⟩ 0 {} lengthened {}).sink =
        (Analysis.run ⟨.graph, some .count, false⟩ 0 {} unusual {}).sink ∧
      (d.dispatch 0 Tally.handler {}).state.KnownAlike (d'.dispatch 0 Tally.handler {}).state := by
  have hs : unusual.Reliable := ⟨nofun, rfl⟩
  have hs' : lengthened.Reliable := ⟨nofun, rfl⟩
  have hspells : Written.Spells 0 7 unusualFrames unusual.unread := ⟨unusualFrames_wellFormed, rfl⟩
  obtain ⟨d, d₁, hopen, hframes⟩ := hspells.decodes hs
  obtain ⟨-, hinsert⟩ := insertions_harmless hs hopen hframes
  obtain ⟨-, hafter⟩ := hinsert unusualEdits unusualEdits_allowed hspells
  obtain ⟨d', d₁', hopen', hframes', hgraph, htally, -⟩ := hafter lengthened hs' rfl
  exact ⟨hs, hs', unusualEdits_allowed, d, d₁, d', d₁', hopen, hframes, hopen', hframes', hgraph _ _ _ _, htally⟩

end NodeTrace
