import NodeTrace.Proofs.Agreement
import NodeTrace.Proofs.Truncation

/-!
# What is written in front of an error

A listing is written frame by frame, so it has the records of exactly the frames in front of the first error
(`Analysis.run_listing`); graphs and reports are written only when the trace has ended cleanly
(`Analysis.run_of_decodeError`).  More bytes behind a trace can change its last, unfinished frame but none in front of it
(`Decoder.frames_prefix`), so a listing of a longer trace goes on where that of the shorter one ends.
-/

namespace NodeTrace

/-- The frames of a trace in front of its end or first error. -/
def Source.frames (limit : Nat) (s : Source) : List Frame :=
  match Decode.openTrace limit (.ofSource s) with
  | .error _ _ => []
  | .ok _ d => (d.frames limit).1

/-- What a trace comes to: the error that keeps it from being opened, else what its frames come to. -/
def Source.result (limit : Nat) (s : Source) : Except DecodeError Nat :=
  match Decode.openTrace limit (.ofSource s) with
  | .error e _ => .error e
  | .ok _ d => d.result limit

/-! ## Longer traces -/

/-- What was decoded stays what it is when more bytes follow. -/
theorem Decoder.frames_prefix {d d' : Decoder} {x : List UInt8} (hd : d.source.Reliable) (hd' : d'.source.Reliable)
    (hu : d'.source.unread = d.source.unread ++ x) (limit : Nat) : (d.frames limit).1 <+: (d'.frames limit).1 := by
  fun_induction Decoder.frames limit d generalizing d' with
  | case1 d e d₁ he => exact List.nil_prefix
  | case2 d f d₁ hf ih =>
    obtain ⟨w, hread, hp⟩ :=
      Decode.reads_of_run (Decode.regular_frame limit) hd (Decode.run_eq_ok.2 hf) (Decode.judged_ok f)
    rw [hp.unread, List.append_assoc] at hu
    obtain ⟨d₁', hrun, hp', hrest⟩ := hread.run hd' hu
    rw [frames_of_ok hrun]
    exact List.cons_prefix_cons.2 ⟨rfl, ih hp.reliable hp'.reliable hrest⟩

theorem Source.frames_prefix {s s' : Source} {x : List UInt8} (hs : s.Reliable) (hs' : s'.Reliable)
    (hu : s'.unread = s.unread ++ x) (limit : Nat) : s.frames limit <+: s'.frames limit := by
  unfold frames
  cases hopen : Decode.openTrace limit (.ofSource s) with
  | error e d => exact List.nil_prefix
  | ok h d =>
    obtain ⟨w, hread, hp⟩ := Decode.reads_of_run (Decode.regular_openTrace limit) (d := .ofSource s) hs
      (Decode.run_eq_ok.2 hopen) (Decode.judged_ok h)
    have hsplit : s.unread = w ++ d.source.unread := hp.unread
    rw [hsplit, List.append_assoc] at hu
    obtain ⟨d', hrun, hp', hrest⟩ := hread.run (d := .ofSource s') hs' hu
    rw [Decode.run_eq_ok.1 hrun]
    exact Decoder.frames_prefix hp.reliable hp'.reliable hrest limit

/-- The records of more frames go on where those of fewer end. -/
theorem Listing.records_prefix (names : Names) (human : Bool) {frames frames' : List Frame} (h : frames <+: frames') :
    records names human frames <+: records names human frames' := by
  obtain ⟨more, rfl⟩ := h
  unfold records
  rw [List.zipIdx_append, List.flatMap_append]
  exact List.prefix_append _ _

theorem Sink.bytesOf_prefix {lines lines' : List String} (h : lines <+: lines') : bytesOf lines <+: bytesOf lines' := by
  obtain ⟨more, rfl⟩ := h
  rw [bytesOf_append]
  exact List.prefix_append _ _

/-! ## What is written -/

namespace Analysis

variable {limit : Nat} {s : Source} {d : Decoder} {sink : Sink}

/-- The outcome of an analysis is that of the trace. -/
theorem outcome_run (a : Analysis) (names : Names) (hs : s.Flows) (hsink : sink.Unfailing) :
    (a.run limit names s sink).outcome = (s.result limit).mapError .decode := by
  unfold Source.result
  cases hopen : Decode.openTrace limit (.ofSource s) with
  | error e d =>
    unfold run
    rw [hopen]
    rfl
  | ok h d => exact (a.run_unfailing names hs hsink hopen).outcome

/-- A listing has the records of the frames that were decoded, however the trace ends. -/
theorem runOpened_listing (metric : Option Metric) (human : Bool) (names : Names) (hd : d.source.Flows)
    (hsink : sink.Unfailing) : (runOpened ⟨.listing, metric, human⟩ limit names d sink).sink.written =
      sink.written ++ Sink.bytesOf (Listing.records names human (d.frames limit).1) := by
  cases hr : d.result limit with
  | error e =>
    obtain ⟨houtcome, hstate⟩ := dispatch_listing hd limit hsink names human
    unfold runOpened
    dsimp only
    rw [houtcome, hstate, hr]
    rfl
  | ok n => exact (runOpened_unfailing _ limit names hd hsink).written n hr

theorem run_listing (metric : Option Metric) (human : Bool) (names : Names) (hs : s.Flows) (hsink : sink.Unfailing) :
    (run ⟨.listing, metric, human⟩ limit names s sink).sink.written =
      sink.written ++ Sink.bytesOf (Listing.records names human (s.frames limit)) := by
  unfold Source.frames
  cases hopen : Decode.openTrace limit (.ofSource s) with
  | error e d =>
    unfold run
    rw [hopen]
    exact Array.appendList_nil.symm
  | ok h d =>
    obtain ⟨d', halike, hrun⟩ := run_of_open ⟨.listing, metric, human⟩ names hs sink hopen
    rw [hrun, runOpened_listing metric human names halike.flows' hsink, (halike.frames limit).1]

/-- Only a listing is written before the trace has ended. -/
theorem runOpened_of_decodeError {a : Analysis} (ha : a.mode ≠ .listing) (names : Names) (hd : d.source.Flows)
    {e : DecodeError} (hr : d.result limit = .error e) : (a.runOpened limit names d sink).sink = sink := by
  unfold runOpened
  cases hmode : a.mode with
  | listing => exact absurd hmode ha
  | graph =>
    dsimp only
    rw [(dispatch_automata hd limit).1, hr]
    rfl
  | report =>
    dsimp only
    rw [(dispatch_tally hd limit).1, hr]
    rfl

theorem run_of_decodeError {a : Analysis} (ha : a.mode ≠ .listing) (names : Names) (hs : s.Flows) {e : DecodeError}
    (hr : s.result limit = .error e) : (a.run limit names s sink).sink = sink := by
  unfold Source.result at hr
  cases hopen : Decode.openTrace limit (.ofSource s) with
  | error e d =>
    unfold run
    rw [hopen]
  | ok h d =>
    rw [hopen] at hr
    obtain ⟨d', halike, hrun⟩ := a.run_of_open names hs sink hopen
    rw [hrun]
    exact runOpened_of_decodeError ha names halike.flows' ((halike.result limit).trans hr)

end Analysis

/-- With a sink that takes everything, a listing of a trace has exactly the records of the frames in front of the end or
of the first error, each of which begins with its number, counted from 0, and shows its frame, and a listing of the trace
with more bytes behind it starts with it.  A graph or a
report of a trace that ends in an error is neither begun nor flushed. -/
theorem written_before_error {s s' : Source} (hs : s.Reliable) (hs' : s'.Reliable) {x : List UInt8}
    (hu : s'.unread = s.unread ++ x) {sink : Sink} (hsink : sink.Unfailing) (limit : Nat) (names : Names)
    (metric : Option Metric) (human : Bool) :
    (Analysis.run ⟨.listing, metric, human⟩ limit names s sink).sink.written =
      sink.written ++ Sink.bytesOf (Listing.records names human (s.frames limit)) ∧
    (∃ texts : List String, (Analysis.run ⟨.listing, metric, human⟩ limit names s sink).sink.written =
        sink.written ++ (String.join texts).toUTF8.toList ∧ texts.length = (s.frames limit).length ∧
      ∀ i f, (s.frames limit)[i]? = some f → ∃ text, texts[i]? = some text ∧ Listing.Told names human i f text) ∧
    (Analysis.run ⟨.listing, metric, human⟩ limit names s sink).sink.written.toList <+:
      (Analysis.run ⟨.listing, metric, human⟩ limit names s' sink).sink.written.toList ∧
    ∀ mode, mode ≠ .listing → ∀ e, s.result limit = .error e →
      (Analysis.run ⟨mode, metric, human⟩ limit names s sink).outcome = .error (.decode e) ∧
      (Analysis.run ⟨mode, metric, human⟩ limit names s sink).sink = sink := by
  have hlisting : (Analysis.run ⟨.listing, metric, human⟩ limit names s sink).sink.written =
      sink.written ++ Sink.bytesOf (Listing.records names human (s.frames limit)) :=
    Analysis.run_listing metric human names hs.flows hsink
  obtain ⟨texts, htexts, htold⟩ := Listing.exists_told names human (s.frames limit)
  refine ⟨hlisting, ⟨texts, ?_, htold⟩, ?_, fun mode hmode e he => ⟨?_, ?_⟩⟩
  · rw [hlisting, Sink.bytesOf_eq_toUTF8, htexts]
  · have hrecords := Listing.records_prefix names human (Source.frames_prefix hs hs' hu limit)
    rw [hlisting, Analysis.run_listing metric human names hs'.flows hsink, Array.toList_appendList,
      Array.toList_appendList]
    exact (List.prefix_append_right_inj _).2 (Sink.bytesOf_prefix hrecords)
  · rw [Analysis.outcome_run _ names hs.flows hsink, he]
    rfl
  · exact Analysis.run_of_decodeError hmode names hs.flows he

/-- The bytes of `unusual` up to its second frame and three bytes of that. -/
def unfinished : Source := .ofBytes (unusual.unread.take 49)

theorem written_before_error_unfinished : unfinished.Reliable ∧ ({} : Sink).Unfailing ∧
    unfinished.result 0 = .error .truncated ∧
    (Analysis.run ⟨.listing, none, false⟩ 0 {} unfinished {}).sink.written.toList = Sink.bytesOf
      ["EVENT=0 SCOPES_USED=UNKNOWN/SIMULATION SIM_TIME_US=256:EVENT_TYPE=MON_STATE CTX=0001 ENT=0002 STATE=0003"] ∧
    (Analysis.run ⟨.graph, none, false⟩ 0 {} unfinished {}).sink = {} := by
  have hs : unfinished.Reliable := ⟨nofun, rfl⟩
  have hsink : ({} : Sink).Unfailing := ⟨rfl, rfl⟩
  have hu : unfinished.unread = Written.header 7 ++ (unusualFrames.flatMap Written.Frame.bytes).take 33 := rfl
  obtain ⟨d, hopen, hp, hrest⟩ := Decode.run_openTrace_written 0 (d := .ofSource unfinished) hs hu
  obtain ⟨d', hframes, -⟩ := Decoder.frames_of_cut unusualFrames_wellFormed hp.reliable (by decide) hrest
  rw [hp.offset] at hframes
  have hone : unfinished.frames 0 = [⟨⟨⟨true, true, false⟩, 256, 0, {}⟩, .monitorState ⟨1, 2, 3⟩⟩] := by
    unfold Source.frames
    rw [Decode.run_eq_ok.1 hopen]
    dsimp only
    rw [hframes]
    rfl
  have htruncated : unfinished.result 0 = .error .truncated := by
    unfold Source.result Decoder.result
    rw [Decode.run_eq_ok.1 hopen]
    dsimp only
    rw [hframes]
    rfl
  have hs' : (Source.ofBytes (unfinished.unread ++ [1])).Reliable := ⟨nofun, rfl⟩
  obtain ⟨hlisting, -, -, hgraph⟩ := written_before_error hs hs' rfl hsink 0 {} none false
  rw [hlisting, hone, Array.toList_appendList]
  exact ⟨hs, hsink, htruncated, congrArg Sink.bytesOf (by decide +kernel), (hgraph .graph nofun .truncated htruncated).2⟩

end NodeTrace
