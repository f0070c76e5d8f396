import NodeTrace.Decoder.Element
import NodeTrace.Proofs.Reading

/-!
# The basic steps are of fixed width

`take` and `skip` read as many bytes as they are asked for, and so does every step that is made of them for a
number.
-/

namespace NodeTrace.Decode

section Take

variable {b : List UInt8} {n : Nat}

/-- Enough bytes are ahead. -/
theorem answers_take (c : Ending) (h : n ≤ b.length) : Answers (take n) b c (.ok (b.take n)) n n := by
  intro d hd hb hc
  obtain ⟨hbytes, hadv, hend⟩ := Source.gather_spec hd n
  rw [hb, if_pos h] at hend
  rw [hb, List.length_take_of_le h] at hadv
  rw [hb] at hbytes
  refine ⟨{ d with source := (d.source.gather n).source, offset := d.offset + n }, run_eq_ok.2 ?_, hadv, rfl⟩
  simp only [take, hend, hbytes, List.length_take_of_le h]

/-- Too few bytes are ahead of the end: it is clean if there are none. -/
theorem answers_take_atEnd (h : b.length < n) :
    Answers (take n) b .exhausted (.error (if b.isEmpty then .endOfStream else .truncated))
      b.length b.length := by
  intro d hd hb hc
  obtain ⟨hbytes, hadv, hend⟩ := Source.gather_spec hd n
  rw [hb, if_neg (by omega), hc] at hend
  rw [hb, List.take_of_length_le (by omega)] at hadv hbytes
  refine ⟨{ d with source := (d.source.gather n).source, offset := d.offset + b.length },
    run_eq_error.2 ?_, hadv, rfl⟩
  simp only [take, hend, hbytes]

theorem answers_take_atFailure (h : b.length < n) (fault : Fault) :
    Answers (take n) b (.failed fault) (.error (.io fault)) b.length b.length := by
  intro d hd hb hc
  obtain ⟨hbytes, hadv, hend⟩ := Source.gather_spec hd n
  rw [hb, if_neg (by omega), hc] at hend
  rw [hb, List.take_of_length_le (by omega)] at hadv hbytes
  refine ⟨{ d with source := (d.source.gather n).source, offset := d.offset + b.length },
    run_eq_error.2 ?_, hadv, rfl⟩
  simp only [take, hend, hbytes]

theorem length_lt_of_strict_prefix {v w : List UInt8} (h : v <+: w) (hne : v ≠ w) : v.length < w.length := by
  rcases Nat.lt_or_ge v.length w.length with hlt | hge
  · exact hlt
  · exact absurd (h.eq_of_length (Nat.le_antisymm h.length_le hge)) hne

theorem fixed_take (n : Nat) : Fixed n (take n) .ok := by
  rintro w rfl
  refine ⟨judged_ok w, fun rest c => ?_, fun v hv hne => ?_⟩
  · have h := answers_take (b := w ++ rest) (n := w.length) c (by rw [List.length_append]; omega)
    rwa [List.take_left] at h
  · have hlt := length_lt_of_strict_prefix hv hne
    refine ⟨⟨_, ?_, answers_take_atEnd hlt⟩, fun fault => ⟨_, answers_take_atFailure hlt fault⟩⟩
    split
    · exact .inl rfl
    · exact .inr rfl

end Take

section Skip

variable {b : List UInt8} {n : Nat}

theorem answers_skip (c : Ending) (h : n ≤ b.length) : Answers (skip n) b c (.ok ()) n n := by
  intro d hd hb hc
  obtain ⟨hcount, hadv, hend⟩ := Source.discard_spec hd n
  rw [hb, if_pos h] at hend
  rw [hb, List.length_take_of_le h] at hadv hcount
  refine ⟨{ d with source := (d.source.discard n).source, offset := d.offset + n }, run_eq_ok.2 ?_, hadv, rfl⟩
  simp only [skip, hend, hcount]

/-- Too few bytes are ahead of the end: it is never clean. -/
theorem answers_skip_atEnd (h : b.length < n) :
    Answers (skip n) b .exhausted (.error .truncated) b.length b.length := by
  intro d hd hb hc
  obtain ⟨hcount, hadv, hend⟩ := Source.discard_spec hd n
  rw [hb, if_neg (by omega), hc] at hend
  rw [hb, List.take_of_length_le (by omega)] at hadv hcount
  refine ⟨{ d with source := (d.source.discard n).source, offset := d.offset + b.length },
    run_eq_error.2 ?_, hadv, rfl⟩
  simp only [skip, hend, hcount]

/-- A failure of the source behind too few bytes: they are passed, but not counted. -/
theorem answers_skip_atFailure (h : b.length < n) (fault : Fault) :
    Answers (skip n) b (.failed fault) (.error (.io fault)) b.length 0 := by
  intro d hd hb hc
  obtain ⟨-, hadv, hend⟩ := Source.discard_spec hd n
  rw [hb, if_neg (by omega), hc] at hend
  rw [hb, List.take_of_length_le (by omega)] at hadv
  refine ⟨{ d with source := (d.source.discard n).source }, run_eq_error.2 ?_, hadv, rfl⟩
  simp only [skip, hend]

/-- Skipping reads what taking reads.  The bytes passed in front of a failure are not counted. -/
theorem fixed_skip (n : Nat) : Fixed n (skip n) fun _ => .ok () := by
  rintro w rfl
  refine ⟨judged_ok (), fun rest c => ?_, fun v hv hne => ?_⟩
  · exact answers_skip c (by rw [List.length_append]; omega)
  · have hlt := length_lt_of_strict_prefix hv hne
    exact ⟨⟨.truncated, .inr rfl, answers_skip_atEnd hlt⟩, fun fault => ⟨0, answers_skip_atFailure hlt fault⟩⟩

end Skip

/-! ## Numbers -/

theorem fixed_number (width : Nat) : Fixed width (number width) fun w => .ok (BigEndian.toNat w) :=
  (fixed_take width).map _

theorem fixed_word8 : Fixed 1 word8 fun w => .ok (UInt8.ofNat (BigEndian.toNat w)) :=
  (fixed_number 1).map _

theorem fixed_word16 : Fixed 2 word16 fun w => .ok (UInt16.ofNat (BigEndian.toNat w)) :=
  (fixed_number 2).map _

theorem fixed_word32 : Fixed 4 word32 fun w => .ok (UInt32.ofNat (BigEndian.toNat w)) :=
  (fixed_number 4).map _

theorem fixed_word64 : Fixed 8 word64 fun w => .ok (UInt64.ofNat (BigEndian.toNat w)) :=
  (fixed_number 8).map _

theorem fixed_double : Fixed 8 double fun w => .ok ⟨UInt64.ofNat (BigEndian.toNat w)⟩ :=
  fixed_word64.map _

end NodeTrace.Decode
