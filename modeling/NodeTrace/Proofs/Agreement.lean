import NodeTrace.Proofs.Dispatch
import NodeTrace.Proofs.Output
import NodeTrace.Proofs.Tallies
import NodeTrace.Proofs.Traversals

/-!
# Three analyses of one trace

Whatever an analysis writes, it reads the same frames and ends in the same way, since no action of its handler fails
(`Analysis.run_unfailing`).  The listing, the automata and the tally that it ends with are functions of these frames, and
agree on how many there were, which contexts and states they name, and how often states changed (`agree_ofFrames`).
-/

namespace NodeTrace

/-- What a listing, automata and a tally say alike of `n` events. -/
structure Agree (n : Nat) (l : Listing) (m : Automata) (t : Tally) : Prop where
  listed : l.count = n
  total : t.events.total = UInt64.ofNat n
  /-- Every context that was seen has an automaton, and only one. -/
  contexts : ∀ context, context ∈ m.automata.map (·.context) ↔ t.contexts.contains context = true
  contexts_nodup : (m.automata.map (·.context)).Nodup
  /-- Every state that was seen is one of some automaton. -/
  states : ∀ state, (∃ a ∈ m.automata, state ∈ a.states.map (·.state)) ↔ t.states.contains state = true
  /-- Every state change takes a transition, but for the first one of each context. -/
  taken : UInt64.ofNat (m.taken + m.automata.length) = t.events.monitorState
  /-- No counter has run over if there are fewer than 2 ^ 64 events. -/
  unwrapped : n < UInt64.size →
    t.events.total.toNat = n ∧ m.taken + m.automata.length = t.events.monitorState.toNat

theorem mem_states_observed {frames : List Frame} {state : UInt16} :
    (∃ a ∈ (Automata.observed frames).automata, state ∈ a.states.map (·.state)) ↔ state ∈ enteredStates frames := by
  rw [mem_enteredStates]
  unfold Automata.observed
  simp only [List.mem_map, List.mem_eraseDups]
  constructor
  · rintro ⟨_, ⟨context, hc, rfl⟩, n, hn, rfl⟩
    have hmem : n.state ∈ (Automaton.ofVisits context (visits context frames)).states.map (·.state) :=
      List.mem_map_of_mem hn
    rw [Automaton.map_state_ofVisits, List.mem_eraseDups] at hmem
    exact ⟨context, hc, List.mem_map.1 hmem⟩
  · rintro ⟨context, hc, hstate⟩
    refine ⟨_, ⟨context, hc, rfl⟩, ?_⟩
    rw [← List.mem_map, Automaton.map_state_ofVisits, List.mem_eraseDups]
    exact List.mem_map.2 hstate

theorem agree_ofFrames {frames : List Frame} {l : Listing} (hl : l.count = frames.length) :
    Agree frames.length l (.observed frames) (.ofFrames frames) where
  listed := hl
  total := Tally.total_events frames
  contexts context := by
    rw [Automata.map_context_observed, List.mem_eraseDups, Tally.contains_contexts]
  contexts_nodup := by
    rw [Automata.map_context_observed]
    exact Keyed.nodup_eraseDups _
  states state := by
    rw [mem_states_observed, Tally.contains_states]
  taken := by
    have hmod := Automata.taken_mod frames
    rw [Tally.monitorState_events, ← UInt64.toNat_inj, UInt64.toNat_ofNat', UInt64.toNat_ofNat']
    exact hmod
  unwrapped hn := by
    have hle : (contexts frames).length ≤ frames.length := List.length_filterMap_le _ _
    have hlt : (contexts frames).length < UInt64.size := by omega
    rw [Tally.total_events, Tally.monitorState_events, UInt64.toNat_ofNat_of_lt' hn, UInt64.toNat_ofNat_of_lt' hlt]
    exact ⟨rfl, Automata.taken_observed hlt⟩

/-- Listing all frames writes their records. -/
theorem Listing.handleAll_eq_after {sink : Sink} (hs : sink.Unfailing) (names : Names) (human : Bool)
    (frames : List Frame) : (handler names human).handleAll .endOfStream 0 frames { sink } =
      (.ok frames.length, after names human sink frames) := by
  have hall := Handler.handleAll_endOfStream (handle_after hs names human) frames
  rw [after_nil] at hall
  exact hall

namespace Analysis

variable {d : Decoder} {sink : Sink}

/-- What an analysis of these frames writes. -/
def lines (a : Analysis) (names : Names) (frames : List Frame) : List String :=
  match a.mode with
  | .listing => Listing.records names a.human frames
  | .graph => (Automata.observed frames).lines names a.metric
  | .report => (Tally.ofFrames frames).lines a.human

theorem dispatch_listing (hd : d.source.Flows) (limit : Nat) (hsink : sink.Unfailing) (names : Names) (human : Bool) :
    (d.dispatch limit (Listing.handler names human) { sink }).outcome = (d.result limit).mapError .decode ∧
      (d.dispatch limit (Listing.handler names human) { sink }).state =
        .after names human sink (d.frames limit).1 := by
  have hall := Decoder.dispatch_of_history hd limit (Listing.handle_after hsink names human)
  rw [Listing.after_nil] at hall
  exact hall

theorem dispatch_automata (hd : d.source.Flows) (limit : Nat) :
    (d.dispatch limit Automata.handler {}).outcome = (d.result limit).mapError .decode ∧
      (d.dispatch limit Automata.handler {}).state = .observed (d.frames limit).1 :=
  Decoder.dispatch_of_history hd limit Automata.handle_observed

theorem dispatch_tally (hd : d.source.Flows) (limit : Nat) :
    (d.dispatch limit Tally.handler {}).outcome = (d.result limit).mapError .decode ∧
      (d.dispatch limit Tally.handler {}).state = .ofFrames (d.frames limit).1 :=
  Decoder.dispatch_of_history hd limit Tally.handle_ofFrames

/-- An analysis that writes to a sink which takes everything ends as the trace does, and has then written what the frames
come to. -/
theorem runOpened_unfailing (a : Analysis) (limit : Nat) (names : Names) (hd : d.source.Flows)
    (hsink : sink.Unfailing) :
    (a.runOpened limit names d sink).Ends (d.result limit) sink (a.lines names (d.frames limit).1) := by
  unfold runOpened lines
  cases a.mode with
  | listing =>
    obtain ⟨houtcome, hstate⟩ := dispatch_listing hd limit hsink names a.human
    obtain ⟨bytes, hbytes⟩ : ∃ bytes, bytes = Sink.bytesOf (Listing.records names a.human (d.frames limit).1) := ⟨_, rfl⟩
    have hends := finish_unfailing (hsink.extend bytes) (d.result limit) []
      (d.dispatch limit (Listing.handler names a.human) { sink }).decoder
    unfold Listing.after at hstate
    dsimp only
    rw [houtcome, hstate, ← hbytes]
    refine ⟨hends.outcome, fun n hn => ?_⟩
    rw [hends.written n hn, Sink.bytesOf_nil, ← hbytes]
    exact Array.appendList_nil
  | graph =>
    obtain ⟨houtcome, hstate⟩ := dispatch_automata hd limit
    dsimp only
    rw [houtcome, hstate]
    exact finish_unfailing hsink _ _ _
  | report =>
    obtain ⟨houtcome, hstate⟩ := dispatch_tally hd limit
    dsimp only
    rw [houtcome, hstate]
    exact finish_unfailing hsink _ _ _

/-- An analysis of a trace that opens is an analysis of what stands behind the header; what is recorded once it is open
changes nothing. -/
theorem run_of_open (a : Analysis) {limit : Nat} (names : Names) {s : Source} (hs : s.Flows) (sink : Sink)
    {h : TraceHeader} (hopen : Decode.openTrace limit (.ofSource s) = .ok h d) :
    ∃ d', d.Alike d' ∧ a.run limit names s sink = a.runOpened limit names d' sink := by
  have hd := (Decode.regular_openTrace limit).flows (d := .ofSource s) hs (Decode.run_eq_ok.2 hopen)
  unfold run
  rw [hopen]
  exact ⟨_, (Decoder.Alike.refl hd).note .debug _, rfl⟩

/-- The same as `runOpened_unfailing` of a trace from its first byte. -/
theorem run_unfailing (a : Analysis) {limit : Nat} (names : Names) {s : Source} (hs : s.Flows)
    (hsink : sink.Unfailing) {h : TraceHeader} (hopen : Decode.openTrace limit (.ofSource s) = .ok h d) :
    (a.run limit names s sink).Ends (d.result limit) sink (a.lines names (d.frames limit).1) := by
  obtain ⟨d', halike, hrun⟩ := a.run_of_open names hs sink hopen
  rw [hrun, ← halike.result limit, ← (halike.frames limit).1]
  exact a.runOpened_unfailing limit names halike.flows' hsink

end Analysis

/-- Analyses of one trace in the three modes, with a sink that takes everything, all count the same events or all fail
with the same decode error.  If they count `n` events, the listing has written `n` records, of which each begins with its
number and shows one of the events, and the automata and the tally, which are then written, agree with it and with each
other. -/
theorem analyses_agree {s : Source} (hs : s.Flows) {sink : Sink} (hsink : sink.Unfailing) (limit : Nat) (names : Names)
    (metric : Option Metric) (human : Bool) : ∃ r : Except DecodeError Nat,
      (∀ mode, (Analysis.run ⟨mode, metric, human⟩ limit names s sink).outcome = r.mapError .decode) ∧
      ∀ n, r = .ok n → ∃ h d, Decode.openTrace limit (.ofSource s) = .ok h d ∧ ∃ l m t,
        (d.dispatch limit (Listing.handler names human) { sink }).state = l ∧
        (d.dispatch limit Automata.handler {}).state = m ∧
        (d.dispatch limit Tally.handler {}).state = t ∧
        (Analysis.run ⟨.listing, metric, human⟩ limit names s sink).sink.written = l.sink.written ∧
        (Analysis.run ⟨.graph, metric, human⟩ limit names s sink).sink.written =
          sink.written ++ Sink.bytesOf (m.lines names metric) ∧
        (Analysis.run ⟨.report, metric, human⟩ limit names s sink).sink.written =
          sink.written ++ Sink.bytesOf (t.lines human) ∧
        (d.frames limit).1.length = n ∧
        l.sink.written = sink.written ++ Sink.bytesOf (Listing.records names human (d.frames limit).1) ∧
        (∃ texts : List String, l.sink.written = sink.written ++ (String.join texts).toUTF8.toList ∧ texts.length = n ∧
          ∀ i f, (d.frames limit).1[i]? = some f → ∃ text, texts[i]? = some text ∧ Listing.Told names human i f text) ∧
        Agree n l m t := by
  cases hopen : Decode.openTrace limit (.ofSource s) with
  | error e d =>
    refine ⟨.error e, fun mode => ?_, nofun⟩
    unfold Analysis.run
    rw [hopen]
    rfl
  | ok h d =>
    have hd := (Decode.regular_openTrace limit).flows (d := .ofSource s) hs (Decode.run_eq_ok.2 hopen)
    have hrun (mode : Mode) := Analysis.run_unfailing ⟨mode, metric, human⟩ names hs hsink hopen
    refine ⟨_, fun mode => (hrun mode).outcome, fun n hn => ⟨h, d, rfl, ?_⟩⟩
    obtain ⟨-, hl⟩ := Analysis.dispatch_listing hd limit hsink names human
    obtain ⟨-, hm⟩ := Analysis.dispatch_automata hd limit
    obtain ⟨-, ht⟩ := Analysis.dispatch_tally hd limit
    obtain ⟨-, rfl⟩ := DecodeError.verdict_eq_ok_iff.1 hn
    obtain ⟨texts, htexts, hlength, htold⟩ := Listing.exists_told names human (d.frames limit).1
    exact ⟨_, _, _, hl, hm, ht, (hrun .listing).written _ hn, (hrun .graph).written _ hn, (hrun .report).written _ hn, rfl,
      rfl, ⟨texts, htexts ▸ Listing.written_after names human sink _, hlength, htold⟩, agree_ofFrames rfl⟩

/-- The three analyses of `unusual` count its two events, and the listing has a record of each. -/
theorem analyses_agree_unusual : unusual.Flows ∧ ({} : Sink).Unfailing ∧
    (∀ mode, (Analysis.run ⟨mode, none, true⟩ 0 {} unusual {}).outcome = .ok 2) ∧
    (Analysis.run ⟨.listing, none, true⟩ 0 {} unusual {}).sink.written.toList = Sink.bytesOf [
      "Event: 0",
      "  Scopes used               : unknown simulation",
      "  Simulation time (micros.) : 256 us",
      "  Event type                : State event",
      "  Context                   : 0001",
      "  Entity                    : 0002",
      "  State                     : 0003",
      "",
      "Event: 1",
      "  Scopes used : none",
      "  Event type  : Unknown event",
      ""] ∧
    ∃ d : Decoder, Agree 2 (d.dispatch 0 (Listing.handler {} true) { sink := {} }).state
      (d.dispatch 0 Automata.handler {}).state (d.dispatch 0 Tally.handler {}).state := by
  have hs : unusual.Reliable := ⟨nofun, rfl⟩
  have hsink : ({} : Sink).Unfailing := ⟨rfl, rfl⟩
  have hu : unusual.unread = Written.header 7 ++ unusualFrames.flatMap Written.Frame.bytes := rfl
  obtain ⟨d₁, hopen, hp, hrest⟩ := Decode.run_openTrace_written 0 (d := .ofSource unusual) hs hu
  obtain ⟨d₂, hframes, -⟩ := Decoder.frames_of_written unusualFrames_wellFormed hp.reliable hrest
  have hcount := (Analysis.run_unfailing ⟨.report, none, true⟩ {} hs.flows hsink (Decode.run_eq_ok.1 hopen)).outcome
  obtain ⟨r, hrun, hagree⟩ := analyses_agree hs.flows hsink 0 {} none true
  have hr : r = .ok 2 := by
    have hmode := (hrun .report).symm.trans hcount
    unfold Decoder.result at hmode
    rw [hframes] at hmode
    cases r with
    | error e => cases hmode
    | ok n =>
      cases hmode
      rfl
  rw [hr] at hrun
  obtain ⟨_, d, hd, _, _, _, rfl, rfl, rfl, hlisting, -, -, -, hrecords, -, h⟩ := hagree 2 hr
  cases (Decode.run_eq_ok.1 hopen).symm.trans hd
  rw [hlisting, hrecords, hframes, Array.toList_appendList]
  refine ⟨hs.flows, hsink, hrun, congrArg Sink.bytesOf ?_, d₁, h⟩
  show Listing.records {} true (unusualFrames.map Written.Frame.meaning) = _
  decide +kernel

end NodeTrace
