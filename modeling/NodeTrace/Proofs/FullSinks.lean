import NodeTrace.Proofs.Agreement

/-!
# Sinks that become full

An analysis writes in many pieces, but writing in pieces is writing at once (`Sink.put_append`), so a sink that becomes
full holds the start of what a sink without a limit would hold.  A run with room for `c` more bytes is compared with the
same run without a limit: they go on alike as long as the output fits, and the first write that does not fit ends the
former (`Sink.Cut`).  One listed frame keeps this up (`Decoder.cut_dispatchFrom`), and so does what is written at the end
(`Analysis.finish_of_cut`).
-/

namespace NodeTrace

namespace Sink

/-- The sink without a limit. -/
def unlimited (s : Sink) : Sink := { s with capacity := none }

/-- The sink with room for `c` more bytes, which takes no byte of what is written behind them. -/
def limited (s : Sink) (c : Nat) : Sink := { s with capacity := some (s.written.size + c), fault := .writeZero }

theorem room_limited (s : Sink) (c n : Nat) : (s.limited c).room n = min n c := by
  unfold room limited
  dsimp only
  rw [Nat.add_sub_cancel_left]

theorem put_unlimited (s : Sink) (bytes : List UInt8) : put bytes s.unlimited = .ok () (s.extend bytes).unlimited :=
  put_of_unbounded rfl bytes

/-- Bytes that fit leave that much less room. -/
theorem limited_extend {s : Sink} {c : Nat} {bytes : List UInt8} (h : bytes.length ≤ c) :
    (s.extend bytes).limited (c - bytes.length) = (s.limited c).extend bytes := by
  have hsize : s.written.size + bytes.length + (c - bytes.length) = s.written.size + c := by omega
  unfold limited
  rw [size_extend, hsize]
  rfl

theorem put_limited_of_le {s : Sink} {c : Nat} {bytes : List UInt8} (h : bytes.length ≤ c) :
    put bytes (s.limited c) = .ok () ((s.extend bytes).limited (c - bytes.length)) := by
  rw [put_eq, room_limited, if_pos (Nat.min_eq_left h), limited_extend h]

theorem put_limited_of_lt {s : Sink} {c : Nat} {bytes : List UInt8} (h : c < bytes.length) :
    put bytes (s.limited c) = .error .writeZero ((s.limited c).extend (bytes.take c)) := by
  rw [put_eq, room_limited, Nat.min_eq_right (Nat.le_of_lt h), if_neg (Nat.ne_of_lt h)]
  rfl

/-- Two runs that started with `s`, the one without a limit and the other with room for `c` more bytes, came to `r` and
`r'` and left `t` and `t'`.  The one wrote `output`.  If this fits, the other came to the same; if not, the other wrote
what fits of it and then failed. -/
structure Cut {α : Type} (s : Sink) (c : Nat) (output : List UInt8) (r r' : Except AnalysisError α) (t t' : Sink) :
    Prop where
  unlimited : t = (s.extend output).unlimited
  whole : output.length ≤ c → r' = r ∧ t' = (s.extend output).limited (c - output.length)
  cut : c < output.length → r' = .error (.output .writeZero) ∧ t' = (s.limited c).extend (output.take c)

namespace Cut

variable {α : Type} {s t t' : Sink} {c : Nat} {output bytes : List UInt8} {r r' : Except AnalysisError α}

/-- Nothing was written. -/
theorem refl (s : Sink) (c : Nat) (r : Except AnalysisError α) : Cut s c [] r r s.unlimited (s.limited c) where
  unlimited := by rw [extend_nil]
  whole _ := by
    rw [extend_nil]
    exact ⟨rfl, rfl⟩
  cut h := absurd h (Nat.not_lt_zero c)

/-- Some bytes fit, and both runs go on behind them. -/
theorem behind (hle : bytes.length ≤ c) (h : (s.extend bytes).Cut (c - bytes.length) output r r' t t') :
    s.Cut c (bytes ++ output) r r' t t' where
  unlimited := by rw [h.unlimited, extend_extend]
  whole hfits := by
    rw [List.length_append] at hfits
    obtain ⟨hr, ht⟩ := h.whole (by omega)
    rw [ht, extend_extend, List.length_append, Nat.sub_sub]
    exact ⟨hr, rfl⟩
  cut hfull := by
    rw [List.length_append] at hfull
    obtain ⟨hr, ht⟩ := h.cut (by omega)
    rw [ht, limited_extend hle, extend_extend, List.take_append, List.take_of_length_le hle]
    exact ⟨hr, rfl⟩

/-- Some bytes do not fit; whatever the run without a limit writes behind them, the other has failed. -/
theorem full (hlt : c < bytes.length) (ht : t = ((s.extend bytes).extend output).unlimited) :
    s.Cut c (bytes ++ output) r (.error (.output .writeZero)) t ((s.limited c).extend (bytes.take c)) where
  unlimited := by rw [ht, extend_extend]
  whole hfits := by
    rw [List.length_append] at hfits
    omega
  cut _ := by
    rw [List.take_append_of_le_length (Nat.le_of_lt hlt)]
    exact ⟨rfl, rfl⟩

end Cut

end Sink

/-! ## Listings -/

namespace Listing

variable {names : Names} {human : Bool} {f : Frame} {s : Sink} {c n : Nat} {bytes : List UInt8}

theorem handle_unlimited (hb : bytes = Sink.bytesOf (record names human n f)) :
    (handler names human).handle f ⟨s.unlimited, n⟩ = .ok () ⟨(s.extend bytes).unlimited, n + 1⟩ := by
  refine handle_of_ok ?_
  rw [Sink.putLines_eq_put, ← hb]
  exact s.put_unlimited bytes

theorem handle_limited_of_le (hb : bytes = Sink.bytesOf (record names human n f)) (hle : bytes.length ≤ c) :
    (handler names human).handle f ⟨s.limited c, n⟩ =
      .ok () ⟨(s.extend bytes).limited (c - bytes.length), n + 1⟩ := by
  refine handle_of_ok ?_
  rw [Sink.putLines_eq_put, ← hb]
  exact Sink.put_limited_of_le hle

theorem handle_limited_of_lt (hb : bytes = Sink.bytesOf (record names human n f)) (hlt : c < bytes.length) :
    (handler names human).handle f ⟨s.limited c, n⟩ =
      .error (.output .writeZero) ⟨(s.limited c).extend (bytes.take c), n⟩ := by
  refine handle_of_error ?_
  rw [Sink.putLines_eq_put, ← hb]
  exact Sink.put_limited_of_lt hlt

/-- Listing a frame extends the sink, and either counts the frame or fails with the fault of the sink. -/
theorem exists_handle (names : Names) (human : Bool) (f : Frame) (l : Listing) : ∃ bytes,
    (handler names human).handle f l = .ok () ⟨l.sink.extend bytes, l.count + 1⟩ ∨
    (handler names human).handle f l = .error (.output l.sink.fault) ⟨l.sink.extend bytes, l.count⟩ := by
  obtain ⟨bytes, hput⟩ := Sink.exists_put (Sink.bytesOf (record names human l.count f)) l.sink
  rw [← Sink.putLines_eq_put] at hput
  rcases hput with hput | hput
  · exact ⟨bytes, .inl (handle_of_ok hput)⟩
  · exact ⟨bytes, .inr (handle_of_error hput)⟩

/-- A listing extends its sink and does nothing else to it. -/
theorem sink_dispatch (names : Names) (human : Bool) (limit : Nat) (d : Decoder) (s : Sink) :
    ∃ bytes, (d.dispatch limit (handler names human) { sink := s }).state.sink = s.extend bytes := by
  refine Decoder.dispatchFrom_invariant (P := fun l : Listing => ∃ bytes, l.sink = s.extend bytes)
    (fun f l ⟨past, hl⟩ => ?_) ⟨[], s.extend_nil.symm⟩ 0 d
  obtain ⟨bytes, h⟩ := exists_handle names human f l
  have hsink : l.sink.extend bytes = s.extend (past ++ bytes) := by rw [hl, Sink.extend_extend]
  rcases h with h | h
  · exact ⟨_, ⟨_, hsink⟩, .inl h⟩
  · exact ⟨_, ⟨_, hsink⟩, .inr ⟨_, h⟩⟩

end Listing

/-- A listing with room for `c` more bytes beside the same listing without a limit. -/
theorem Decoder.cut_dispatchFrom (names : Names) (human : Bool) (limit count : Nat) (d : Decoder) (s : Sink)
    (c n : Nat) : ∃ output, s.Cut c output
      (d.dispatchFrom limit (Listing.handler names human) count ⟨s.unlimited, n⟩).outcome
      (d.dispatchFrom limit (Listing.handler names human) count ⟨s.limited c, n⟩).outcome
      (d.dispatchFrom limit (Listing.handler names human) count ⟨s.unlimited, n⟩).state.sink
      (d.dispatchFrom limit (Listing.handler names human) count ⟨s.limited c, n⟩).state.sink := by
  generalize hl : (⟨s.unlimited, n⟩ : Listing) = l
  fun_induction Decoder.dispatchFrom limit (Listing.handler names human) count d l generalizing s c n with
  | case1 count d l d₁ hf =>
    obtain ⟨houtcome, hstate⟩ := dispatchFrom_of_error (h := Listing.handler names human) hf count ⟨s.limited c, n⟩
    subst hl
    rw [houtcome, hstate]
    exact ⟨[], Sink.Cut.refl s c _⟩
  | case2 count d l e d₁ hne hf =>
    obtain ⟨houtcome, hstate⟩ := dispatchFrom_of_error (h := Listing.handler names human) hf count ⟨s.limited c, n⟩
    subst hl
    rw [houtcome, hstate, DecodeError.verdict_of_ne hne]
    exact ⟨[], Sink.Cut.refl s c _⟩
  | case3 count d l f d₁ hf e l' hh =>
    subst hl
    rw [Listing.handle_unlimited rfl] at hh
    cases hh
  | case4 count d l f d₁ hf u l' hh ih =>
    subst hl
    obtain ⟨bytes, hb⟩ : ∃ bytes, bytes = Sink.bytesOf (Listing.record names human n f) := ⟨_, rfl⟩
    rw [Listing.handle_unlimited hb] at hh
    cases hh
    rcases Nat.lt_or_ge c bytes.length with hlt | hle
    · -- the record does not fit; the run without a limit writes it and perhaps more
      obtain ⟨houtcome, hstate⟩ := dispatchFrom_of_refused hf (Listing.handle_limited_of_lt hb hlt) count
      obtain ⟨output, h⟩ := ih (s.extend bytes) 0 (n + 1) rfl
      rw [houtcome, hstate]
      exact ⟨_, Sink.Cut.full hlt h.unlimited⟩
    · rw [dispatchFrom_of_handled hf (Listing.handle_limited_of_le hb hle)]
      obtain ⟨output, h⟩ := ih (s.extend bytes) (c - bytes.length) (n + 1) rfl
      exact ⟨_, h.behind hle⟩

/-! ## The end of an analysis -/

/-- Two analyses with `sink` to write to, `w` without a limit and `w'` with room for `c` more bytes.  The one wrote
`output`, the other its first `c` bytes.  If this is all, they ended alike; if not, the other failed for it and was not
flushed. -/
structure Analysed.Cut (w w' : Analysed) (sink : Sink) (c : Nat) (output : List UInt8) : Prop where
  unlimited : w.sink.written = sink.written ++ output
  written : w'.sink.written = sink.written ++ output.take c
  whole : output.length ≤ c → w'.outcome = w.outcome ∧ w'.sink.flushes = w.sink.flushes
  cut : c < output.length → w'.outcome = .error (.output .writeZero) ∧ w'.sink.flushes = sink.flushes

/-- An analysis that succeeds has flushed its sink once; one that fails has not, unless flushing is what failed. -/
structure Analysed.Flushes (w : Analysed) (sink : Sink) : Prop where
  ok : ∀ n, w.outcome = .ok n → w.sink.flushes = sink.flushes + 1
  error : ∀ e, w.outcome = .error e → w.sink.flushes = sink.flushes ∨
    sink.flushFails = true ∧ e = .output (.other "flush failure") ∧ w.sink.flushes = sink.flushes + 1

namespace Analysis

section Finish

variable {s t t' : Sink} {c : Nat} {output : List UInt8} {r r' : Except AnalysisError Nat}

theorem finish_of_cut (h : s.Cut c output r r' t t') (d d' : Decoder) :
    (finish r [] t d).Cut (finish r' [] t' d') s c output := by
  have hwritten (r : Except AnalysisError Nat) (t : Sink) (d : Decoder) : (finish r [] t d).sink.written = t.written := by
    cases r with
    | error e => rfl
    | ok n => rw [finish_nil]
  refine ⟨?_, ?_, fun hfits => ?_, fun hfull => ?_⟩
  · rw [hwritten, h.unlimited]
    rfl
  · rw [hwritten]
    rcases Nat.lt_or_ge c output.length with hfull | hfits
    · rw [(h.cut hfull).2]
      rfl
    · rw [(h.whole hfits).2, List.take_of_length_le hfits]
      rfl
  · obtain ⟨hr, ht⟩ := h.whole hfits
    rw [hr, ht, h.unlimited]
    cases r with
    | error e => exact ⟨rfl, rfl⟩
    | ok n =>
      rw [finish_nil, finish_nil]
      exact ⟨rfl, rfl⟩
  · obtain ⟨hr, ht⟩ := h.cut hfull
    rw [hr, ht]
    exact ⟨rfl, rfl⟩

/-- What is written at the end, if the events were handled, is cut off where the sink is full. -/
theorem finish_lines (r : Except AnalysisError Nat) (lines : List String) (s : Sink) (c : Nat) (d : Decoder) :
    ∃ output, (finish r lines s.unlimited d).Cut (finish r lines (s.limited c) d) s c output := by
  cases r with
  | error e => exact ⟨[], finish_of_cut (Sink.Cut.refl s c (.error e)) d d⟩
  | ok n =>
    have hput := s.put_unlimited (Sink.bytesOf lines)
    rw [← Sink.putLines_eq_put] at hput
    rw [finish_of_ok hput]
    rcases Nat.lt_or_ge c (Sink.bytesOf lines).length with hlt | hle
    · have hfull := Sink.put_limited_of_lt (s := s) hlt
      rw [← Sink.putLines_eq_put] at hfull
      rw [finish_of_error hfull]
      exact ⟨_, finish_of_cut (Sink.Cut.full hlt (congrArg Sink.unlimited (Sink.extend_nil _).symm)) d d⟩
    · have hfits := Sink.put_limited_of_le (s := s) hle
      rw [← Sink.putLines_eq_put] at hfits
      rw [finish_of_ok hfits]
      exact ⟨_, finish_of_cut ((Sink.Cut.refl _ _ (.ok n)).behind hle) d d⟩

theorem finish_flushes (r : Except AnalysisError Nat) (lines : List String) (s : Sink) (d : Decoder) :
    (finish r lines s d).Flushes s := by
  cases r with
  | error e => exact ⟨nofun, fun _ _ => .inl rfl⟩
  | ok n =>
    obtain ⟨bytes, hput⟩ := Sink.exists_put (Sink.bytesOf lines) s
    rw [← Sink.putLines_eq_put] at hput
    rcases hput with hput | hput
    · rw [finish_of_ok hput, finish_nil]
      by_cases hf : s.flushFails = true
      · have hfails : (s.extend bytes).flushFails = true := hf
        rw [if_pos hfails]
        exact ⟨nofun, fun e he => .inr ⟨hf, (Except.error.inj he).symm, rfl⟩⟩
      · have hflushes : ¬ (s.extend bytes).flushFails = true := hf
        rw [if_neg hflushes]
        exact ⟨fun _ _ => rfl, nofun⟩
    · rw [finish_of_error hput]
      exact ⟨nofun, fun _ _ => .inl rfl⟩

end Finish

theorem runOpened_cut (a : Analysis) (limit : Nat) (names : Names) (d : Decoder) (s : Sink) (c : Nat) :
    ∃ output, (a.runOpened limit names d s.unlimited).Cut (a.runOpened limit names d (s.limited c)) s c output := by
  unfold runOpened
  cases a.mode with
  | listing =>
    obtain ⟨output, h⟩ := d.cut_dispatchFrom names a.human limit 0 s c 0
    exact ⟨output, finish_of_cut h _ _⟩
  | graph => exact finish_lines _ _ s c _
  | report => exact finish_lines _ _ s c _

theorem runOpened_flushes (a : Analysis) (limit : Nat) (names : Names) (d : Decoder) (s : Sink) :
    (a.runOpened limit names d s).Flushes s := by
  unfold runOpened
  cases a.mode with
  | listing =>
    dsimp only
    obtain ⟨bytes, hbytes⟩ := Listing.sink_dispatch names a.human limit d s
    rw [hbytes]
    have h := finish_flushes (d.dispatch limit (Listing.handler names a.human) { sink := s }).outcome [] (s.extend bytes)
      (d.dispatch limit (Listing.handler names a.human) { sink := s }).decoder
    exact ⟨h.ok, h.error⟩
  | graph => exact finish_flushes _ _ s _
  | report => exact finish_flushes _ _ s _

end Analysis

/-- An analysis with room for `c` more bytes in its sink writes the first `c` bytes of what the same analysis writes
without a limit.  If this is all of it, both end alike and flush as often; if not, the former fails because the sink takes
no more, and does not flush.  Whatever the sink, an analysis that succeeds flushes it once, and one that fails to decode
or to write does not flush it. -/
theorem output_cut_off (a : Analysis) (limit : Nat) (names : Names) (source : Source) (sink : Sink) (c : Nat) :
    (∃ output, (a.run limit names source sink.unlimited).Cut (a.run limit names source (sink.limited c)) sink c output) ∧
    ∀ sink', (a.run limit names source sink').Flushes sink' := by
  unfold Analysis.run
  cases Decode.openTrace limit (.ofSource source) with
  | error e d =>
    refine ⟨⟨[], ?_, ?_, fun _ => ⟨rfl, rfl⟩, fun h => absurd h (Nat.not_lt_zero c)⟩, fun sink' => ⟨nofun, fun _ _ => .inl rfl⟩⟩
    · exact Array.appendList_nil.symm
    · rw [List.take_nil]
      exact Array.appendList_nil.symm
  | ok h d => exact ⟨a.runOpened_cut limit names _ sink c, fun sink' => a.runOpened_flushes limit names _ sink'⟩

/-- A listing of `unusual` is cut off inside the record of its second event. -/
theorem output_cut_off_unusual :
    (Analysis.run ⟨.listing, none, false⟩ 0 {} unusual (({} : Sink).limited 125)).outcome =
      .error (.output .writeZero) ∧
    (Analysis.run ⟨.listing, none, false⟩ 0 {} unusual (({} : Sink).limited 125)).sink.written.toList =
      Sink.bytesOf
        ["EVENT=0 SCOPES_USED=UNKNOWN/SIMULATION SIM_TIME_US=256:EVENT_TYPE=MON_STATE CTX=0001 ENT=0002 STATE=0003"] ++
      "EVENT=1 SCOPES_USED=".toUTF8.toList ∧
    (Analysis.run ⟨.listing, none, false⟩ 0 {} unusual (({} : Sink).limited 125)).sink.flushes = 0 := by
  have hs : unusual.Reliable := ⟨nofun, rfl⟩
  have hu : unusual.unread = Written.header 7 ++ unusualFrames.flatMap Written.Frame.bytes := rfl
  obtain ⟨d, hopen, hp, hrest⟩ := Decode.run_openTrace_written 0 (d := .ofSource unusual) hs hu
  obtain ⟨d', hframes, -⟩ := Decoder.frames_of_written unusualFrames_wellFormed hp.reliable hrest
  have hsink : ({} : Sink).Unfailing := ⟨rfl, rfl⟩
  have hends := Analysis.run_unfailing ⟨.listing, none, false⟩ {} hs.flows hsink (Decode.run_eq_ok.1 hopen)
  unfold Decoder.result at hends
  rw [hframes] at hends
  obtain ⟨⟨output, h⟩, -⟩ := output_cut_off ⟨.listing, none, false⟩ 0 {} unusual {} 125
  have houtput : output = Sink.bytesOf (Listing.records {} false (unusualFrames.map Written.Frame.meaning)) := by
    have hwritten := congrArg Array.toList (h.unlimited.symm.trans (hends.written 2 rfl))
    rwa [Array.toList_appendList, Array.toList_appendList, List.append_cancel_left_eq] at hwritten
  obtain ⟨houtcome, hflushes⟩ := h.cut (by rw [houtput]; decide +kernel)
  refine ⟨houtcome, ?_, hflushes⟩
  rw [h.written, houtput, Array.toList_appendList]
  decide +kernel

end NodeTrace
