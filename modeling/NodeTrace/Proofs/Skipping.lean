import NodeTrace.Proofs.Schedules

/-!
# Skipping is taking and dropping

`skip` drops bytes while it reads them and counts them at the end, `drop` keeps all of them and counts them one read after
the other.  On a source that ends without a failure both pass over as many of the bytes as there are and tell alike whether
these were enough (`Decode.Passes`), so that they cannot be told apart by what they leave (`skip_agrees_drop`).
-/

namespace NodeTrace

namespace Source

variable {s : Source} {want : Nat}

/-! ## Sources that bring nothing -/

/-- A source that brings nothing is left with all its bytes when bytes are gathered. -/
theorem gather_of_not_flows (hs : ¬s.Flows) (hclose : s.close = .exhausted) (hw : want ≠ 0) :
    (s.gather want).bytes = [] ∧ s.Advanced 0 (s.gather want).source ∧ (s.gather want).ending = .exhausted := by
  fun_induction gather s want with
  | case1 => exact absurd rfl hw
  | case2 s want _ s' h ih =>
    have ha := advanced_of_interrupted h
    obtain ⟨hbytes, hadv, hend⟩ := ih (ha.not_flows hs) (ha.close.trans hclose) hw
    exact ⟨hbytes, ha.trans hadv, hend⟩
  | case3 s want _ fault s' h =>
    have hfailed := (close_of_failed h).2.2
    rw [hclose] at hfailed
    cases hfailed
  | case4 s want _ s' h => exact ⟨rfl, (advanced_of_bytes h).2.2, rfl⟩
  | case5 s want _ b piece s' h => exact absurd h (not_bytes_cons_of_not_flows hs)

/-- So it is when bytes are discarded. -/
theorem discard_of_not_flows (hs : ¬s.Flows) (hclose : s.close = .exhausted) (hw : want ≠ 0) :
    (s.discard want).count = 0 ∧ s.Advanced 0 (s.discard want).source ∧ (s.discard want).ending = .exhausted := by
  fun_induction discard s want with
  | case1 => exact absurd rfl hw
  | case2 s want _ s' h ih =>
    have ha := advanced_of_interrupted h
    obtain ⟨hcount, hadv, hend⟩ := ih (ha.not_flows hs) (ha.close.trans hclose) hw
    exact ⟨hcount, ha.trans hadv, hend⟩
  | case3 s want _ fault s' h =>
    have hfailed := (close_of_failed h).2.2
    rw [hclose] at hfailed
    cases hfailed
  | case4 s want _ s' h => exact ⟨rfl, (advanced_of_bytes h).2.2, rfl⟩
  | case5 s want _ b piece s' h => exact absurd h (not_bytes_cons_of_not_flows hs)

/-- How many bytes a source brings before it ends. -/
def available (s : Source) : Nat := if s.chunk = some 0 then 0 else s.unread.length

theorem available_of_flows (hs : s.Flows) : s.available = s.unread.length := if_neg hs

theorem available_of_not_flows (hs : ¬s.Flows) : s.available = 0 := if_pos (not_not.1 hs)

end Source

namespace Decode

/-- Take bytes and drop them.  The trace must not end among them. -/
def drop (n : Nat) : Decode Unit := (fun _ => ()) <$> (take n).inside

/-- The step passes over `n` of the bytes that the source brings, or over all of them and fails if they are fewer. -/
def Passes (x : Decode Unit) (n : Nat) (d : Decoder) : Prop :=
  ∃ d', x.run d = (if n ≤ d.source.available then .ok () else .error .truncated, d') ∧
    d.source.Advanced (min n d.source.available) d'.source ∧ d'.offset = d.offset + min n d.source.available

section Passes

variable {x : Decode Unit} {d : Decoder} {n : Nat}

/-- On a source that flows a step passes over bytes if it answers as it should where there are enough and where there are
not. -/
theorem passes_of_answers (hd : d.source.Flows) (hclose : d.source.close = .exhausted)
    (henough : n ≤ d.source.unread.length → Answers x d.source.unread .exhausted (.ok ()) n n)
    (hshort : d.source.unread.length < n →
      Answers x d.source.unread .exhausted (.error .truncated) d.source.unread.length d.source.unread.length) :
    Passes x n d := by
  unfold Passes
  rw [Source.available_of_flows hd]
  rcases Nat.lt_or_ge d.source.unread.length n with hlt | hle
  · rw [if_neg (Nat.not_le.2 hlt), Nat.min_eq_right (Nat.le_of_lt hlt)]
    exact hshort hlt d hd (Source.ahead_of_close hclose) hclose
  · rw [if_pos hle, Nat.min_eq_left hle]
    exact henough hle d hd (Source.ahead_of_close hclose) hclose

theorem skip_zero (d : Decoder) : (skip 0).run d = (.ok (), d) := by
  refine run_eq_ok.2 ?_
  unfold skip
  rw [Source.discard, if_pos rfl]
  rfl

theorem drop_zero (d : Decoder) : (drop 0).run d = (.ok (), d) := by
  have htake : (take 0).run d = (.ok [], d) := by
    refine run_eq_ok.2 ?_
    unfold take
    rw [Source.gather, if_pos rfl]
    rfl
  unfold drop
  rw [run_map, run_inside, htake]
  rfl

theorem passes_zero (h : x.run d = (.ok (), d)) : Passes x 0 d := by
  refine ⟨d, ?_, ?_, ?_⟩
  · rw [h, if_pos (Nat.zero_le _)]
  · rw [Nat.zero_min]
    exact .refl _
  · rw [Nat.zero_min, Nat.add_zero]

/-- A step that fails and takes nothing from a source that brings nothing. -/
theorem passes_of_not_flows (hd : ¬d.source.Flows) (hn : n ≠ 0) {d' : Decoder}
    (hrun : x.run d = (.error .truncated, d')) (hadv : d.source.Advanced 0 d'.source) (hoff : d'.offset = d.offset) :
    Passes x n d := by
  unfold Passes
  rw [Source.available_of_not_flows hd, if_neg (by omega), Nat.min_zero]
  exact ⟨d', hrun, hadv, hoff⟩

theorem passes_skip (hclose : d.source.close = .exhausted) (n : Nat) : Passes (skip n) n d := by
  by_cases hd : d.source.Flows
  · exact passes_of_answers hd hclose (answers_skip _) answers_skip_atEnd
  · rcases Nat.eq_zero_or_pos n with rfl | hn
    · exact passes_zero (skip_zero d)
    · obtain ⟨hcount, hadv, hend⟩ := Source.discard_of_not_flows hd hclose (Nat.ne_of_gt hn)
      have hskip : (skip n).run d = (.error .truncated, { d with source := (d.source.discard n).source }) := by
        refine run_eq_error.2 ?_
        simp only [skip, hend, hcount, Nat.add_zero]
      exact passes_of_not_flows hd (Nat.ne_of_gt hn) hskip hadv rfl

theorem passes_drop (hclose : d.source.close = .exhausted) (n : Nat) : Passes (drop n) n d := by
  by_cases hd : d.source.Flows
  · refine passes_of_answers hd hclose (fun h => (answers_take _ h).inside.map _) fun h => ?_
    -- whether the end is clean is not told apart any more
    have hdrop := (answers_take_atEnd h).inside.map fun _ => ()
    split at hdrop <;> exact hdrop
  · rcases Nat.eq_zero_or_pos n with rfl | hn
    · exact passes_zero (drop_zero d)
    · obtain ⟨hbytes, hadv, hend⟩ := Source.gather_of_not_flows hd hclose (Nat.ne_of_gt hn)
      have htake : (take n).run d = (.error .endOfStream, { d with source := (d.source.gather n).source }) := by
        refine run_eq_error.2 ?_
        simp only [take, hend, hbytes]
        rfl
      have hdrop : (drop n).run d = (.error .truncated, { d with source := (d.source.gather n).source }) := by
        unfold drop
        rw [run_map, run_inside, htake]
        rfl
      exact passes_of_not_flows hd (Nat.ne_of_gt hn) hdrop hadv rfl

end Passes

end Decode

/-- On a source that ends without a failure, whatever it holds, wherever it stands and however it delivers its bytes,
skipping bytes is the same as taking and dropping them: both succeed, or both find the trace truncated, and they leave the
same offset and the same bytes.  They succeed exactly if there are enough bytes, and no byte is read for none. -/
theorem skip_agrees_drop {d : Decoder} (hclose : d.source.close = .exhausted) (n : Nat) :
    ∃ (r : Except DecodeError Unit) (d₁ d₂ : Decoder),
      (Decode.skip n).run d = (r, d₁) ∧ (Decode.drop n).run d = (r, d₂) ∧ (r = .ok () ∨ r = .error .truncated) ∧
      d₂.offset = d₁.offset ∧ d₁.source.SameBytes d₂.source ∧
      (d.source.Flows → (r = .ok () ↔ n ≤ d.source.unread.length) ∧ d₁.source.unread = d.source.unread.drop n ∧
        d₁.offset = d.offset + (d.source.unread.take n).length) ∧
      (n = 0 → r = .ok () ∧ d₁ = d ∧ d₂ = d) := by
  obtain ⟨d₁, hskip, hadv₁, hoff₁⟩ := Decode.passes_skip hclose n
  obtain ⟨d₂, hdrop, hadv₂, hoff₂⟩ := Decode.passes_drop hclose n
  have hsame : d.source.SameBytes d.source := ⟨rfl, rfl, rfl⟩
  have hoff := hoff₂.trans hoff₁.symm
  refine ⟨_, d₁, d₂, hskip, hdrop, ?_, hoff, hsame.advanced hadv₁ hadv₂, fun hflows => ?_, ?_⟩
  · split
    · exact .inl rfl
    · exact .inr rfl
  · have hunread := hadv₁.unread
    rw [Source.available_of_flows hflows] at hunread hoff₁ ⊢
    refine ⟨⟨fun hr => ?_, fun hle => if_pos hle⟩, ?_, ?_⟩
    · by_contra hlt
      rw [if_neg hlt] at hr
      cases hr
    · rw [hunread, ← List.drop_eq_drop_min]
    · rw [hoff₁, List.length_take]
  · rintro rfl
    rw [Decode.skip_zero] at hskip
    rw [Decode.drop_zero] at hdrop
    exact ⟨(Prod.mk.inj hskip).1.symm, (Prod.mk.inj hskip).2.symm, (Prod.mk.inj hdrop).2.symm⟩

/-- Five bytes behind others, in pieces of at most two, with reads that are interrupted in front of the first of them and
behind the fourth. -/
def fiveInPieces : Decoder where
  source := { unread := [1, 2, 3, 4, 5], position := 7, chunk := some 2, interrupts := [7, 11, 7], cuts := [8] }
  offset := 7

theorem skip_agrees_drop_fiveInPieces : fiveInPieces.source.close = .exhausted ∧
    (∃ d₁ d₂, (Decode.skip 4).run fiveInPieces = (.ok (), d₁) ∧ (Decode.drop 4).run fiveInPieces = (.ok (), d₂) ∧
      d₁.source.unread = [5] ∧ d₂.source.unread = [5]) ∧
    ∃ d₁ d₂, (Decode.skip 6).run fiveInPieces = (.error .truncated, d₁) ∧
      (Decode.drop 6).run fiveInPieces = (.error .truncated, d₂) ∧ d₁.offset = 12 ∧ d₂.offset = 12 := by
  have hclose : fiveInPieces.source.close = .exhausted := rfl
  have hflows : fiveInPieces.source.Flows := by
    intro hzero
    cases hzero
  refine ⟨hclose, ?_, ?_⟩
  · obtain ⟨r, d₁, d₂, hskip, hdrop, -, -, hsame, henough, -⟩ := skip_agrees_drop hclose 4
    obtain ⟨hr, hunread, -⟩ := henough hflows
    cases hr.2 (by decide)
    exact ⟨d₁, d₂, hskip, hdrop, hunread, hsame.unread.trans hunread⟩
  · obtain ⟨r, d₁, d₂, hskip, hdrop, hcases, hoff, -, henough, -⟩ := skip_agrees_drop hclose 6
    obtain ⟨hr, -, hoff₁⟩ := henough hflows
    rcases hcases with rfl | rfl
    · exact absurd (hr.1 rfl) (by decide)
    · exact ⟨d₁, d₂, hskip, hdrop, hoff₁, hoff.trans hoff₁⟩

end NodeTrace
