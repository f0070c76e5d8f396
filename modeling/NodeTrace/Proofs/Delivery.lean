import NodeTrace.Source

/-!
# What a source delivers

Chunks and interruptions only cut a delivery into pieces.  The bytes that a source has `ahead` of its end or
of its failure, and the way it closes behind them (`close`), fix what `gather` and `discard` bring about
(`gather_spec`, `discard_spec`), as long as a read brings something while there is something (`Flows`).
-/

namespace NodeTrace.Source

/-- A read brings at least one byte while there is one. -/
def Flows (s : Source) : Prop := s.chunk ≠ some 0

/-- The bytes that a source delivers before it ends or fails. -/
def ahead (s : Source) : List UInt8 :=
  match s.failure with
  | none => s.unread
  | some (stop, _) => if s.position ≤ stop then s.unread.take (stop - s.position) else s.unread

/-- How a source closes behind the bytes that are ahead. -/
def close (s : Source) : Ending :=
  match s.failure with
  | none => .exhausted
  | some (stop, fault) =>
    if s.position ≤ stop ∧ stop ≤ s.position + s.unread.length then .failed fault else .exhausted

theorem ahead_prefix (s : Source) : s.ahead <+: s.unread := by
  unfold ahead
  split
  · exact List.prefix_refl _
  · split
    · exact List.take_prefix _ _
    · exact List.prefix_refl _

theorem flows_ofBytes (bytes : List UInt8) : (ofBytes bytes).Flows := nofun

theorem close_cases (s : Source) : s.close = .exhausted ∨ ∃ fault, s.close = .failed fault := by
  unfold close
  split
  · exact .inl rfl
  · rename_i stop fault _
    split
    · exact .inr ⟨fault, rfl⟩
    · exact .inl rfl

/-- Bytes that are not followed by a failure are all ahead. -/
theorem ahead_of_close {s : Source} (h : s.close = .exhausted) : s.ahead = s.unread := by
  unfold ahead
  unfold close at h
  cases hf : s.failure with
  | none => rfl
  | some failure =>
    obtain ⟨stop, fault⟩ := failure
    rw [hf] at h
    dsimp only at h ⊢
    split
    · rename_i hp
      have hbehind : ¬(s.position ≤ stop ∧ stop ≤ s.position + s.unread.length) := by
        intro hin
        rw [if_pos hin] at h
        cases h
      exact List.take_of_length_le (by omega)
    · rfl

/-- The source never fails, and brings something while there is something. -/
structure Reliable (s : Source) : Prop where
  flows : s.Flows
  failure : s.failure = none

theorem Reliable.close {s : Source} (h : s.Reliable) : s.close = .exhausted := by
  unfold Source.close; rw [h.failure]

theorem Reliable.ahead {s : Source} (h : s.Reliable) : s.ahead = s.unread := ahead_of_close h.close

/-- The source `s'` is `s` after `n` of the bytes ahead; interruptions may have been spent on the way. -/
structure Advanced (s : Source) (n : Nat) (s' : Source) : Prop where
  within : n ≤ s.ahead.length
  unread : s'.unread = s.unread.drop n
  position : s'.position = s.position + n
  failure : s'.failure = s.failure
  chunk : s'.chunk = s.chunk

namespace Advanced

variable {s s' s'' : Source} {n m : Nat}

theorem refl (s : Source) : s.Advanced 0 s := ⟨Nat.zero_le _, rfl, rfl, rfl, rfl⟩

theorem flows (h : s.Advanced n s') (hs : s.Flows) : s'.Flows := by
  unfold Flows; rw [h.chunk]; exact hs

theorem not_flows (h : s.Advanced n s') (hs : ¬s.Flows) : ¬s'.Flows := by
  unfold Flows
  rwa [h.chunk]

theorem reliable (h : s.Advanced n s') (hs : s.Reliable) : s'.Reliable :=
  ⟨h.flows hs.flows, h.failure.trans hs.failure⟩

theorem ahead (h : s.Advanced n s') : s'.ahead = s.ahead.drop n := by
  have hn := h.within
  unfold Source.ahead at hn ⊢
  rw [h.failure, h.unread, h.position]
  cases hf : s.failure with
  | none => rfl
  | some failure =>
    obtain ⟨stop, fault⟩ := failure
    rw [hf] at hn
    dsimp only at hn ⊢
    by_cases hp : s.position ≤ stop
    · rw [if_pos hp, List.length_take] at hn
      rw [if_pos hp, if_pos (by omega), List.drop_take]
      congr 1
      omega
    · rw [if_neg hp, if_neg (by omega)]

theorem close (h : s.Advanced n s') : s'.close = s.close := by
  have hn := h.within
  unfold Source.ahead at hn
  unfold Source.close
  rw [h.failure, h.unread, h.position]
  cases hf : s.failure with
  | none => rfl
  | some failure =>
    obtain ⟨stop, fault⟩ := failure
    rw [hf] at hn
    dsimp only at hn ⊢
    rw [List.length_drop]
    by_cases hp : s.position ≤ stop
    · rw [if_pos hp, List.length_take] at hn
      by_cases hl : stop ≤ s.position + s.unread.length
      · rw [if_pos ⟨by omega, by omega⟩, if_pos ⟨hp, hl⟩]
      · rw [if_neg (by omega), if_neg (by omega)]
    · rw [if_neg (by omega), if_neg (fun h => hp h.1)]

theorem trans (h : s.Advanced n s') (h' : s'.Advanced m s'') : s.Advanced (n + m) s'' where
  within := by
    have hm := h'.within
    rw [h.ahead, List.length_drop] at hm
    have hn := h.within
    omega
  unread := by rw [h'.unread, h.unread, List.drop_drop]
  position := by rw [h'.position, h.position, Nat.add_assoc]
  failure := h'.failure.trans h.failure
  chunk := h'.chunk.trans h.chunk

end Advanced

/-! ## Single reads -/

theorem foldl_min_le (p : Nat) (stops : List Nat) (n : Nat) :
    stops.foldl (fun n stop => min n (stop - p)) n ≤ n := by
  induction stops generalizing n with
  | nil => exact Nat.le_refl n
  | cons stop rest ih => exact Nat.le_trans (ih _) (Nat.min_le_left _ _)

theorem foldl_min_le_of_mem {p stop : Nat} {stops : List Nat} (h : stop ∈ stops) (n : Nat) :
    stops.foldl (fun n stop => min n (stop - p)) n ≤ stop - p := by
  induction stops generalizing n with
  | nil => cases h
  | cons first rest ih =>
    rcases List.mem_cons.1 h with rfl | h
    · exact Nat.le_trans (foldl_min_le p rest _) (Nat.min_le_right _ _)
    · exact ih h _

theorem foldl_min_pos {p : Nat} {stops : List Nat} (h : ∀ stop ∈ stops, p < stop) {n : Nat} (hn : 0 < n) :
    0 < stops.foldl (fun n stop => min n (stop - p)) n := by
  induction stops generalizing n with
  | nil => exact hn
  | cons first rest ih =>
    have hfirst := h first List.mem_cons_self
    refine ih (fun stop hs => h stop (List.mem_cons_of_mem _ hs)) ?_
    exact Nat.lt_min.2 ⟨hn, Nat.sub_pos_of_lt hfirst⟩

theorem reach_le (s : Source) (want : Nat) : s.reach want ≤ want :=
  Nat.le_trans (foldl_min_le _ _ _) (Nat.min_le_left _ _)

theorem reach_pos {s : Source} (hs : s.Flows) {want : Nat} (hw : 0 < want) : 0 < s.reach want := by
  refine foldl_min_pos (fun stop h => of_decide_eq_true (List.mem_filter.1 h).2) ?_
  cases hc : s.chunk with
  | none => exact Nat.lt_min.2 ⟨hw, hw⟩
  | some chunk =>
    have hpos : chunk ≠ 0 := fun h0 => hs (by rw [hc, h0])
    exact Nat.lt_min.2 ⟨hw, Nat.pos_of_ne_zero hpos⟩

/-- A read does not cross the position of the failure. -/
theorem reach_le_failure {s : Source} {stop : Nat} {fault : Fault} (hf : s.failure = some (stop, fault))
    (hp : s.position < stop) (want : Nat) : s.reach want ≤ stop - s.position := by
  refine foldl_min_le_of_mem (List.mem_filter.2 ⟨?_, decide_eq_true hp⟩) _
  rw [stops, hf]
  exact List.mem_append_left _ (List.mem_singleton.2 rfl)

/-- A read is interrupted, fails, or delivers. -/
theorem read_cases (s : Source) (want : Nat) :
    (s.read want = (.interrupted, { s with interrupts := s.interrupts.erase s.position })) ∨
    (∃ fault, s.failure = some (s.position, fault) ∧ s.read want = (.failed fault, s)) ∨
    ((∀ fault, s.failure ≠ some (s.position, fault)) ∧ s.read want = s.deliver (s.reach want)) := by
  unfold read
  by_cases hi : s.position ∈ s.interrupts
  · rw [if_pos hi]; exact .inl rfl
  · rw [if_neg hi]
    cases hf : s.failure with
    | none => exact .inr (.inr ⟨nofun, rfl⟩)
    | some failure =>
      obtain ⟨stop, fault⟩ := failure
      by_cases hp : s.position = stop
      · exact .inr (.inl ⟨fault, by rw [hp], if_pos hp⟩)
      · refine .inr (.inr ⟨fun fault' h => hp ?_, if_neg hp⟩)
        cases h; rfl

theorem advanced_of_interrupted {s s' : Source} {want : Nat} (h : s.read want = (.interrupted, s')) :
    s.Advanced 0 s' := by
  rcases read_cases s want with hr | ⟨fault, -, hr⟩ | ⟨-, hr⟩ <;> rw [hr] at h <;> cases h
  exact ⟨Nat.zero_le _, rfl, rfl, rfl, rfl⟩

theorem close_of_failed {s s' : Source} {want : Nat} {fault : Fault}
    (h : s.read want = (.failed fault, s')) : s' = s ∧ s.ahead = [] ∧ s.close = .failed fault := by
  rcases read_cases s want with hr | ⟨fault', hf, hr⟩ | ⟨-, hr⟩ <;> rw [hr] at h <;> cases h
  refine ⟨rfl, ?_, ?_⟩
  · unfold ahead; rw [hf]; simp
  · unfold close; rw [hf]; exact if_pos ⟨Nat.le_refl _, Nat.le_add_right _ _⟩

/-- A read for `want` bytes that delivers brings the first `reach want` of the bytes ahead. -/
theorem take_reach {s : Source} (hf : ∀ fault, s.failure ≠ some (s.position, fault)) (want : Nat) :
    s.unread.take (s.reach want) = s.ahead.take (s.reach want) := by
  unfold ahead
  cases hs : s.failure with
  | none => rfl
  | some failure =>
    obtain ⟨stop, fault⟩ := failure
    dsimp only
    by_cases hp : s.position ≤ stop
    · have hne : s.position ≠ stop := fun h => hf fault (by rw [hs, h])
      have hle := reach_le_failure hs (by omega) want
      rw [if_pos hp, List.take_take, Nat.min_eq_left hle]
    · rw [if_neg hp]

theorem bytes_of_read {s s' : Source} {want : Nat} {piece : List UInt8}
    (h : s.read want = (.bytes piece, s')) :
    piece = s.ahead.take (s.reach want) ∧ s' = (s.deliver (s.reach want)).2 := by
  rcases read_cases s want with hr | ⟨fault, -, hr⟩ | ⟨hf, hr⟩ <;> rw [hr] at h
  · cases h
  · cases h
  · obtain ⟨hp, rfl⟩ := Prod.mk.inj h
    exact ⟨(Answer.bytes.inj hp).symm.trans (take_reach hf want), rfl⟩

theorem advanced_of_bytes {s s' : Source} {want : Nat} {piece : List UInt8}
    (h : s.read want = (.bytes piece, s')) :
    s.ahead = piece ++ s'.ahead ∧ piece.length ≤ want ∧ s.Advanced piece.length s' := by
  have hsplit := (read_of_bytes h).2
  obtain ⟨hp, rfl⟩ := bytes_of_read h
  have hpre : piece <+: s.ahead := hp ▸ List.take_prefix _ _
  have hlen : (s.unread.take (s.reach want)).length = piece.length := by
    have hu := congrArg List.length hsplit
    simp only [deliver, List.length_append, List.length_drop] at hu
    rw [List.length_take]
    have ha := congrArg List.length hp
    have hin := hpre.length_le
    rw [List.length_take] at ha
    omega
  have hadv : s.Advanced piece.length (s.deliver (s.reach want)).2 := by
    refine ⟨hpre.length_le, ?_, ?_, rfl, rfl⟩
    · rw [hsplit]; exact List.drop_left.symm
    · show s.position + (s.unread.take (s.reach want)).length = _
      rw [hlen]
  refine ⟨?_, ?_, hadv⟩
  · rw [hadv.ahead]; exact (List.prefix_iff_eq_append.1 hpre).symm
  · rw [hp, List.length_take]
    exact Nat.le_trans (Nat.min_le_left _ _) (reach_le s want)

/-- A read that brings nothing tells that the source has ended. -/
theorem close_of_no_bytes {s s' : Source} (hs : s.Flows) {want : Nat} (hw : 0 < want)
    (h : s.read want = (.bytes [], s')) : s.ahead = [] ∧ s.close = .exhausted := by
  have hnil : s.ahead = [] := by
    have hpos := reach_pos hs hw
    rcases List.take_eq_nil_iff.1 (bytes_of_read h).1.symm with h0 | hnil
    · omega
    · exact hnil
  refine ⟨hnil, ?_⟩
  have hf : ∀ fault, s.failure ≠ some (s.position, fault) := by
    rcases read_cases s want with hr | ⟨fault, -, hr⟩ | ⟨hf, -⟩
    · rw [hr] at h; cases h
    · rw [hr] at h; cases h
    · exact hf
  unfold ahead at hnil
  unfold close
  cases hfs : s.failure with
  | none => rfl
  | some failure =>
    obtain ⟨stop, fault⟩ := failure
    rw [hfs] at hnil
    dsimp only at hnil ⊢
    refine if_neg fun ⟨hp, hl⟩ => ?_
    have hne : s.position ≠ stop := fun h => hf fault (by rw [hfs, h])
    rw [if_pos hp, List.take_eq_nil_iff] at hnil
    rcases hnil with h0 | h0
    · omega
    · rw [h0, List.length_nil] at hl; omega

/-! ## Activities of several reads -/

/-- What is wanted of the bytes ahead, once a piece of it was delivered. -/
theorem wanted_behind {s s' : Source} {want : Nat} {piece : List UInt8} (hsplit : s.ahead = piece ++ s'.ahead)
    (hle : piece.length ≤ want) :
    s.ahead.take want = piece ++ s'.ahead.take (want - piece.length) ∧
      (want - piece.length ≤ s'.ahead.length ↔ want ≤ s.ahead.length) := by
  rw [hsplit]
  refine ⟨by rw [List.take_append, List.take_of_length_le hle], ?_⟩
  rw [List.length_append]
  omega

/-- Gathering brings the next bytes ahead, and closes as the source does if there are too few. -/
theorem gather_spec {s : Source} (hs : s.Flows) (want : Nat) :
    (s.gather want).bytes = s.ahead.take want ∧
    s.Advanced (s.ahead.take want).length (s.gather want).source ∧
    (s.gather want).ending = if want ≤ s.ahead.length then .complete else s.close := by
  fun_induction gather s want with
  | case1 s => exact ⟨rfl, Advanced.refl s, (if_pos (Nat.zero_le _)).symm⟩
  | case2 s want hw s' h ih =>
    have ha := advanced_of_interrupted h
    have ih := ih (ha.flows hs)
    rw [ha.ahead, ha.close, List.drop_zero] at ih
    obtain ⟨h1, h2, h3⟩ := ih
    exact ⟨h1, by simpa using ha.trans h2, h3⟩
  | case3 s want hw fault s' h =>
    obtain ⟨rfl, hnil, hc⟩ := close_of_failed h
    rw [hnil, List.take_nil, hc]
    exact ⟨rfl, Advanced.refl _, (if_neg (by simpa using hw)).symm⟩
  | case4 s want hw s' h =>
    obtain ⟨hnil, hc⟩ := close_of_no_bytes hs (Nat.pos_of_ne_zero hw) h
    rw [hnil, List.take_nil, hc]
    exact ⟨rfl, (advanced_of_bytes h).2.2, (if_neg (by simpa using hw)).symm⟩
  | case5 s want hw b piece s' h rest ih =>
    obtain ⟨hsplit, hle, ha⟩ := advanced_of_bytes h
    obtain ⟨h1, h2, h3⟩ := ih (ha.flows hs)
    obtain ⟨htake, hcomplete⟩ := wanted_behind hsplit hle
    rw [htake, List.length_append]
    refine ⟨?_, ha.trans h2, ?_⟩
    · show b :: piece ++ rest.bytes = _
      rw [h1]
      rfl
    · show rest.ending = _
      rw [h3, ha.close]
      simp only [← hcomplete]
      rfl

/-- Discarding passes over the bytes that gathering would bring, and closes in the same way. -/
theorem discard_spec {s : Source} (hs : s.Flows) (want : Nat) :
    (s.discard want).count = (s.ahead.take want).length ∧
    s.Advanced (s.ahead.take want).length (s.discard want).source ∧
    (s.discard want).ending = if want ≤ s.ahead.length then .complete else s.close := by
  fun_induction discard s want with
  | case1 s => exact ⟨rfl, Advanced.refl s, (if_pos (Nat.zero_le _)).symm⟩
  | case2 s want hw s' h ih =>
    have ha := advanced_of_interrupted h
    have ih := ih (ha.flows hs)
    rw [ha.ahead, ha.close, List.drop_zero] at ih
    obtain ⟨h1, h2, h3⟩ := ih
    exact ⟨h1, by simpa using ha.trans h2, h3⟩
  | case3 s want hw fault s' h =>
    obtain ⟨rfl, hnil, hc⟩ := close_of_failed h
    rw [hnil, List.take_nil, hc]
    exact ⟨rfl, Advanced.refl _, (if_neg (by simpa using hw)).symm⟩
  | case4 s want hw s' h =>
    have hpiece : 0 < min want discardPiece := Nat.lt_min.2 ⟨Nat.pos_of_ne_zero hw, by decide⟩
    obtain ⟨hnil, hc⟩ := close_of_no_bytes hs hpiece h
    rw [hnil, List.take_nil, hc]
    exact ⟨rfl, (advanced_of_bytes h).2.2, (if_neg (by simpa using hw)).symm⟩
  | case5 s want hw b piece s' h rest ih =>
    obtain ⟨hsplit, hle, ha⟩ := advanced_of_bytes h
    obtain ⟨h1, h2, h3⟩ := ih (ha.flows hs)
    obtain ⟨htake, hcomplete⟩ := wanted_behind hsplit (Nat.le_trans hle (Nat.min_le_left _ _))
    rw [htake, List.length_append]
    refine ⟨?_, ha.trans h2, ?_⟩
    · show piece.length + 1 + rest.count = _
      rw [h1]
      rfl
    · show rest.ending = _
      rw [h3, ha.close]
      simp only [← hcomplete]
      rfl

end NodeTrace.Source
