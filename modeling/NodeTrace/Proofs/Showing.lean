import NodeTrace.Proofs.PartialOutput

/-!
# Names come in where ids are shown

What an analysis does depends on the names through the labels of the ids in the trace alone: with names that show these
ids alike it makes the same records and writes the same bytes, whatever becomes of the trace and of the sink
(`Analysis.run_congr`).  Two dispatches to handlers that treat the decoded frames alike are step by step the same
(`Decoder.dispatchFrom_congr`); a listing shows nothing of an event but its ids, and a graph nothing but the contexts and
states that were entered.
-/

namespace NodeTrace

/-- Both names show every id of the event alike. -/
def Event.ShownAlike (names names' : Names) : Event → Prop
  | .monitorState change =>
    names'.showContext change.context = names.showContext change.context ∧
    names'.showEntity change.context change.entity = names.showEntity change.context change.entity ∧
    names'.showState change.context change.state = names.showState change.context change.state
  | .monitorData attachment =>
    names'.showContext attachment.context = names.showContext attachment.context ∧
    names'.showEntity attachment.context attachment.entity = names.showEntity attachment.context attachment.entity
  | _ => True

/-! ## Handlers that agree on the frames of a trace -/

/-- Two handlers that make the same records and treat every decoded frame alike are told apart by nothing that a
dispatch leaves behind. -/
theorem Decoder.dispatchFrom_congr {σ ε : Type} {h h' : Handler σ ε} {limit : Nat} {d : Decoder} (hd : d.source.Flows)
    (herror : h'.ofDecodeError = h.ofDecodeError) (hremarks : h'.remarks = h.remarks)
    (hhandle : ∀ f ∈ (d.frames limit).1, h'.handle f = h.handle f) (count : Nat) (s : σ) :
    d.dispatchFrom limit h' count s = d.dispatchFrom limit h count s := by
  fun_induction Decoder.dispatchFrom limit h count d s with
  | case1 count d s d₁ hf =>
    unfold dispatchFrom
    rw [hf]
  | case2 count d s e d₁ hne hf =>
    unfold dispatchFrom
    rw [hf, herror]
    cases e with
    | endOfStream => exact absurd rfl hne
    | _ => rfl
  | case3 count d s f d₁ hf e s' hh =>
    rw [frames_of_ok (Decode.run_eq_ok.2 hf)] at hhandle
    have hsame := hhandle f List.mem_cons_self
    unfold dispatchFrom
    rw [hf]
    dsimp only
    rw [hsame, hh, hremarks]
  | case4 count d s f d₁ hf u s' hh ih =>
    have hd₁ := (Decode.regular_frame limit).flows hd (Decode.run_eq_ok.2 hf)
    have hremark := (Alike.refl hd₁).remark (h.remarks f.event)
    rw [frames_of_ok (Decode.run_eq_ok.2 hf)] at hhandle
    have hsame := hhandle f List.mem_cons_self
    rw [dispatchFrom_of_handled hf (hsame ▸ hh), hremarks]
    refine ih hremark.flows' fun f' hf' => ?_
    rw [(hremark.frames limit).1] at hf'
    exact hhandle f' (List.mem_cons_of_mem _ hf')

theorem Decoder.dispatch_congr {σ ε : Type} {h h' : Handler σ ε} {limit : Nat} {d : Decoder} (hd : d.source.Flows)
    (herror : h'.ofDecodeError = h.ofDecodeError) (hremarks : h'.remarks = h.remarks)
    (hhandle : ∀ f ∈ (d.frames limit).1, h'.handle f = h.handle f) (s : σ) :
    d.dispatch limit h' s = d.dispatch limit h s :=
  dispatchFrom_congr hd herror hremarks hhandle 0 s

/-! ## Listings -/

section Listings

variable {names names' : Names}

/-- Both names show the value alike. -/
def Value.ShownAlike (names names' : Names) (v : Value) : Prop := v.compact names' = v.compact names

theorem Value.ShownAlike.human {v : Value} (h : v.ShownAlike names names') : v.human names' = v.human names := by
  cases v with
  | context | entity | state | coordinate | id => exact h
  | scopeKinds | eventKind | millis | micros | cycles | data => rfl

/-- Nothing of a scope has a name. -/
theorem Field.shownAlike_ofScope (names names' : Names) (scope : Scope) :
    ∀ f ∈ Field.ofScope scope, f.value.ShownAlike names names' := by
  unfold Field.ofScope
  simp only [List.forall_mem_cons, List.forall_mem_append]
  refine ⟨rfl, ?_, ?_⟩
  · cases scope.simulation? with
    | none => exact nofun
    | some micros => exact List.forall_mem_singleton.2 rfl
  · cases scope.node? with
    | none => exact nofun
    | some node =>
      simp only [List.forall_mem_cons]
      exact ⟨rfl, rfl, rfl, nofun⟩

/-- Of an event only its ids have names. -/
theorem Field.shownAlike_ofEvent {event : Event} (h : event.ShownAlike names names') :
    ∀ f ∈ Field.ofEvent event, f.value.ShownAlike names names' := by
  unfold Field.ofEvent Field.ofKind Field.ofPayload
  cases event with
  | monitorState change =>
    obtain ⟨hcontext, hentity, hstate⟩ := h
    simp only [Field.ofStateChange, List.forall_mem_cons]
    exact ⟨rfl, hcontext, hentity, hstate, nofun⟩
  | monitorData attachment =>
    obtain ⟨hcontext, hentity⟩ := h
    simp only [Field.ofAttachment, List.forall_mem_cons]
    exact ⟨rfl, hcontext, hentity, rfl, nofun⟩
  | monitorCreate calibration =>
    simp only [Field.ofCalibration, List.forall_mem_cons]
    exact ⟨rfl, rfl, rfl, rfl, rfl, rfl, rfl, nofun⟩
  | nodePosition position =>
    simp only [Field.ofPosition, List.forall_mem_cons]
    exact ⟨rfl, rfl, rfl, rfl, nofun⟩
  | unknown | nodeCreate | nodeDestroy => exact List.forall_mem_singleton.2 rfl

theorem Listing.compactLine_congr {f : Frame} (h : f.event.ShownAlike names names') (number : Nat) :
    compactLine names' number f = compactLine names number f := by
  have hfields (fields : List Field) (hfields : ∀ f ∈ fields, f.value.ShownAlike names names') :
      fields.map (·.compact names') = fields.map (·.compact names) := by
    refine List.map_congr_left fun f hf => ?_
    unfold Field.compact
    rw [hfields f hf]
  unfold compactLine compactOf
  rw [hfields _ (Field.shownAlike_ofScope names names' f.scope), hfields _ (Field.shownAlike_ofEvent h)]

theorem Listing.humanLines_congr {f : Frame} (h : f.event.ShownAlike names names') (number : Nat) :
    humanLines names' number f = humanLines names number f := by
  have hfields (width : Nat) : (Field.ofScope f.scope ++ Field.ofEvent f.event).map (·.human names' width) =
      (Field.ofScope f.scope ++ Field.ofEvent f.event).map (·.human names width) := by
    refine List.map_congr_left fun f' hf' => ?_
    have hvalue : f'.value.ShownAlike names names' := (List.mem_append.1 hf').elim
      (Field.shownAlike_ofScope names names' f.scope f') (Field.shownAlike_ofEvent h f')
    unfold Field.human
    rw [hvalue.human]
  unfold humanLines humanOf
  rw [hfields]

theorem Listing.record_congr {f : Frame} (h : f.event.ShownAlike names names') (human : Bool) (number : Nat) :
    record names' human number f = record names human number f := by
  unfold record
  rw [compactLine_congr h, humanLines_congr h]

theorem Listing.ofDecodeError_handler (names : Names) (human : Bool) :
    (handler names human).ofDecodeError = .decode := rfl

theorem Listing.remarks_handler (names : Names) (human : Bool) : (handler names human).remarks = remarks := rfl

theorem Listing.handle_congr {f : Frame} (h : f.event.ShownAlike names names') (human : Bool) :
    (handler names' human).handle f = (handler names human).handle f := by
  funext l
  rw [handle_eq, handle_eq, record_congr h]

end Listings

/-! ## Graphs -/

section Graphs

variable {names names' : Names}

/-- A graph shows its context, its states, and the states to which its transitions lead. -/
theorem Automaton.lines_congr {a : Automaton} (hcontext : names'.showContext a.context = names.showContext a.context)
    (hstate : ∀ state ∈ a.states.map (·.state), names'.showState a.context state = names.showState a.context state)
    (hclosed : ∀ n ∈ a.states, ∀ t ∈ n.transitions, t.destination ∈ a.states.map (·.state)) (metric : Option Metric) :
    a.lines names' metric = a.lines names metric := by
  have hlines : a.states.flatMap (a.stateLines names' metric) = a.states.flatMap (a.stateLines names metric) := by
    refine List.flatMap_congr fun n hn => ?_
    have hsource := hstate n.state (List.mem_map_of_mem hn)
    have htransitions : n.transitions.map (a.transitionLine names' metric n) =
        n.transitions.map (a.transitionLine names metric n) := by
      refine List.map_congr_left fun t ht => ?_
      have hdestination := hstate t.destination (hclosed n hn t ht)
      unfold transitionLine
      rw [hsource, hdestination]
    unfold stateLines
    rw [hsource, htransitions]
  unfold lines
  rw [hcontext, hlines]

/-- A context that has a state change, and the states that it enters, are shown by the names of these events. -/
theorem Automata.lines_congr {frames : List Frame} (h : ∀ f ∈ frames, f.event.ShownAlike names names')
    (metric : Option Metric) : (observed frames).lines names' metric = (observed frames).lines names metric := by
  have hvisit {context : UInt16} {v : Visit} (hv : v ∈ visits context frames) :
      names'.showContext context = names.showContext context ∧
        names'.showState context v.state = names.showState context v.state := by
    obtain ⟨f, hf, hvisit⟩ := List.mem_filterMap.1 hv
    have halike := h f hf
    unfold Frame.visit? at hvisit
    cases hevent : f.event with
    | monitorState change =>
      rw [hevent] at hvisit halike
      obtain ⟨rfl, hsome⟩ := Option.ite_none_right_eq_some.1 hvisit
      obtain rfl := Option.some.inj hsome
      exact ⟨halike.1, halike.2.2⟩
    | _ =>
      rw [hevent] at hvisit
      cases hvisit
  unfold lines
  refine List.flatMap_congr fun a ha => ?_
  obtain ⟨context, hc, rfl⟩ := List.mem_map.1 ha
  have hne := visits_ne_nil (List.mem_eraseDups.1 hc)
  have hshape := Automaton.shape_ofVisits context hne
  refine Automaton.lines_congr ?_ (fun state hs => ?_) hshape.closed metric
  · obtain ⟨v, hv⟩ := List.exists_mem_of_ne_nil _ hne
    exact (hvisit hv).1
  · rw [hshape.states, List.mem_eraseDups] at hs
    obtain ⟨v, hv, rfl⟩ := List.mem_map.1 hs
    exact (hvisit hv).2

end Graphs

/-! ## Analyses -/

namespace Analysis

variable {names names' : Names} {limit : Nat}

theorem runOpened_congr (a : Analysis) {d : Decoder} (hd : d.source.Flows)
    (h : ∀ f ∈ (d.frames limit).1, f.event.ShownAlike names names') (sink : Sink) :
    a.runOpened limit names' d sink = a.runOpened limit names d sink := by
  unfold runOpened
  cases a.mode with
  | listing =>
    have hdispatch : d.dispatch limit (Listing.handler names' a.human) { sink } =
        d.dispatch limit (Listing.handler names a.human) { sink } := by
      refine Decoder.dispatch_congr hd ?_ ?_ (fun f hf => Listing.handle_congr (h f hf) a.human) _
      · rw [Listing.ofDecodeError_handler, Listing.ofDecodeError_handler]
      · rw [Listing.remarks_handler, Listing.remarks_handler]
    dsimp only
    rw [hdispatch]
  | graph =>
    dsimp only
    rw [(dispatch_automata hd limit).2, Automata.lines_congr h]
  | report => dsimp only

/-- With names that show the ids of the decoded events alike, an analysis comes to the same. -/
theorem run_congr (a : Analysis) {s : Source} (h : ∀ f ∈ s.frames limit, f.event.ShownAlike names names') (sink : Sink) :
    a.run limit names' s sink = a.run limit names s sink := by
  unfold Source.frames at h
  cases hopen : Decode.openTrace limit (.ofSource s) with
  | error e d =>
    unfold run
    rw [hopen]
  | ok header d =>
    have hs := Decode.flows_of_openTrace hopen
    rw [hopen] at h
    have hd := (Decode.regular_openTrace limit).flows (d := .ofSource s) hs (Decode.run_eq_ok.2 hopen)
    unfold run
    rw [hopen]
    have hnote := (Decoder.Alike.refl hd).note .debug ("trace version " ++ Digits.decimal header.major.toNat ++ "." ++
      Digits.decimal header.minor.toNat ++ ", " ++ a.mode.name ++ " mode")
    refine a.runOpened_congr hnote.flows' (fun f hf => ?_) sink
    rw [(hnote.frames limit).1] at hf
    exact h f hf

/-- A report shows ids in digits. -/
theorem run_report_congr {a : Analysis} (ha : a.mode = .report) (limit : Nat) (names names' : Names) (s : Source)
    (sink : Sink) : a.run limit names' s sink = a.run limit names s sink := by
  unfold run runOpened
  rw [ha]

end Analysis

/-- The names show every id alike. -/
structure Names.ShowAlike (names names' : Names) : Prop where
  context : names'.showContext = names.showContext
  entity : names'.showEntity = names.showEntity
  state : names'.showState = names.showState

theorem Names.ShowAlike.event {names names' : Names} (h : names.ShowAlike names') (event : Event) :
    event.ShownAlike names names' := by
  cases event with
  | monitorState change => exact ⟨by rw [h.context], by rw [h.entity], by rw [h.state]⟩
  | monitorData attachment => exact ⟨by rw [h.context], by rw [h.entity]⟩
  | _ => trivial

/-- While resolution is disabled, ids are shown as if nothing had a name. -/
theorem Names.showAlike_of_disabled {names : Names} (h : names.enabled = false) : ({} : Names).ShowAlike names where
  context := funext (showContext_of_disabled h)
  entity := by
    funext context entity
    exact showEntity_of_disabled h context entity
  state := by
    funext context state
    exact showState_of_disabled h context state

/-- Two analyses of a trace with names that show the ids of its state changes and attached data alike have the same
outcome, write the same bytes, flush as often and make the same records, in every mode and whatever the source and the
sink do.  So names that are disabled do as no names at all, and a report does not depend on names. -/
theorem shown_by_names (a : Analysis) (limit : Nat) (s : Source) (sink : Sink) :
    (∀ names names' : Names, (∀ f ∈ s.frames limit, f.event.ShownAlike names names') →
      a.run limit names' s sink = a.run limit names s sink) ∧
    (∀ names : Names, names.enabled = false →
      ({} : Names).ShowAlike names ∧ a.run limit names s sink = a.run limit {} s sink) ∧
    (a.mode = .report → ∀ names names' : Names, a.run limit names' s sink = a.run limit names s sink) := by
  refine ⟨fun names names' h => a.run_congr h sink, fun names h => ?_, fun ha names names' => ?_⟩
  · have halike := Names.showAlike_of_disabled h
    exact ⟨halike, a.run_congr (fun f _ => halike.event f.event) sink⟩
  · exact Analysis.run_report_congr ha limit names names' s sink

/-- A name for the context of the state change in `unusual`. -/
def radioNames : Names := ({} : Names).nameContext 1 "radio"

/-- More names, of a context and of a state that `unusual` does not have. -/
def moreNames : Names := (radioNames.nameContext 9 "cpu").nameCommonState 7 "off"

theorem shown_by_names_unusual : (∀ f ∈ unusual.frames 0, f.event.ShownAlike radioNames moreNames) ∧
    moreNames.showContext 9 ≠ radioNames.showContext 9 ∧
    (∀ human, Analysis.run ⟨.listing, none, human⟩ 0 moreNames unusual {} =
      Analysis.run ⟨.listing, none, human⟩ 0 radioNames unusual {}) ∧
    Analysis.run ⟨.graph, none, false⟩ 0 (moreNames.enable false) unusual {} =
      Analysis.run ⟨.graph, none, false⟩ 0 {} unusual {} ∧
    Analysis.run ⟨.report, none, false⟩ 0 moreNames unusual {} =
      Analysis.run ⟨.report, none, false⟩ 0 {} unusual {} := by
  have hs : unusual.Reliable := ⟨nofun, rfl⟩
  have hu : unusual.unread = Written.header 7 ++ unusualFrames.flatMap Written.Frame.bytes := rfl
  obtain ⟨d, hopen, hp, hrest⟩ := Decode.run_openTrace_written 0 (d := .ofSource unusual) hs hu
  obtain ⟨d', hframes, -⟩ := Decoder.frames_of_written unusualFrames_wellFormed hp.reliable hrest
  have halike : ∀ f ∈ unusual.frames 0, f.event.ShownAlike radioNames moreNames := by
    unfold Source.frames
    rw [Decode.run_eq_ok.1 hopen]
    dsimp only
    rw [hframes]
    exact List.forall_mem_cons.2 ⟨⟨rfl, rfl, rfl⟩, List.forall_mem_singleton.2 trivial⟩
  refine ⟨halike, by decide +kernel, fun human => ?_, ?_, ?_⟩
  · exact (shown_by_names ⟨.listing, none, human⟩ 0 unusual {}).1 radioNames moreNames halike
  · exact ((shown_by_names ⟨.graph, none, false⟩ 0 unusual {}).2.1 (moreNames.enable false) rfl).2
  · exact (shown_by_names ⟨.report, none, false⟩ 0 unusual {}).2.2 rfl {} moreNames

end NodeTrace
