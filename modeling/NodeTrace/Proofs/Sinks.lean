import NodeTrace.Sink

/-!
# Writing in pieces

A write extends a sink by what fits.  Pieces that are written one after the other are written as all of their bytes at
once, also if they do not fit (`Sink.put_append`): the sink ends with the same bytes and fails in the same way, wherever
between the pieces or inside one of them it is full.  So whatever writes piece by piece, a list of lines or an element
with its header, is one write of its bytes, and the bytes of lines are those of their text (`Sink.bytesOf_eq_toUTF8`).
-/

namespace NodeTrace

namespace Sink

/-- The bytes of lines, each with its line feed. -/
def bytesOf (lines : List String) : List UInt8 := lines.flatMap fun line => (line ++ "\n").toUTF8.toList

@[simp] theorem bytesOf_nil : bytesOf [] = [] := rfl

@[simp] theorem bytesOf_append (lines lines' : List String) :
    bytesOf (lines ++ lines') = bytesOf lines ++ bytesOf lines' := List.flatMap_append

/-- The sink with more bytes in it. -/
def extend (s : Sink) (bytes : List UInt8) : Sink := { s with written := s.written ++ bytes }

@[simp] theorem extend_nil (s : Sink) : s.extend [] = s := by
  simp [extend]

@[simp] theorem extend_extend (s : Sink) (bytes bytes' : List UInt8) :
    (s.extend bytes).extend bytes' = s.extend (bytes ++ bytes') := by
  have hassoc : s.written ++ bytes ++ bytes' = s.written ++ (bytes ++ bytes') := by
    apply Array.ext'
    simp
  unfold extend
  rw [hassoc]

theorem size_extend (s : Sink) (bytes : List UInt8) : (s.extend bytes).written.size = s.written.size + bytes.length := by
  unfold extend
  rw [← Array.length_toList, Array.toList_appendList, List.length_append, Array.length_toList]

theorem written_extend_inj {s : Sink} {bytes bytes' : List UInt8} :
    (s.extend bytes).written = (s.extend bytes').written ↔ bytes = bytes' := by
  unfold extend
  rw [← Array.toList_inj, Array.toList_appendList, Array.toList_appendList, List.append_right_inj]

/-- The sink takes everything, and passes it on. -/
structure Unfailing (s : Sink) : Prop where
  unbounded : s.capacity = none
  flushes : s.flushFails = false

theorem Unfailing.extend {s : Sink} (h : s.Unfailing) (bytes : List UInt8) : (s.extend bytes).Unfailing :=
  ⟨h.unbounded, h.flushes⟩

/-! ## Writing in pieces -/

/-- A write extends the sink by what fits. -/
theorem put_eq (bytes : List UInt8) (s : Sink) : put bytes s =
    if s.room bytes.length = bytes.length then .ok () (s.extend bytes)
    else .error s.fault (s.extend (bytes.take (s.room bytes.length))) := by
  unfold put extend
  dsimp only
  by_cases h : s.room bytes.length = bytes.length
  · rw [if_pos h, if_pos h, h, List.take_length]
  · rw [if_neg h, if_neg h]

/-- Whether it succeeds or not, a write extends the sink and does nothing else to it. -/
theorem exists_put (bytes : List UInt8) (s : Sink) :
    ∃ bytes', put bytes s = .ok () (s.extend bytes') ∨ put bytes s = .error s.fault (s.extend bytes') := by
  rw [put_eq]
  split
  · exact ⟨_, .inl rfl⟩
  · exact ⟨_, .inr rfl⟩

/-- Behind bytes that fit there is that much less room. -/
theorem room_extend {s : Sink} {bytes : List UInt8} (h : s.room bytes.length = bytes.length) (n : Nat) :
    s.room (bytes.length + n) = bytes.length + (s.extend bytes).room n := by
  have hsize := s.size_extend bytes
  have hcapacity : (s.extend bytes).capacity = s.capacity := rfl
  unfold room at *
  rw [hcapacity, hsize]
  cases hc : s.capacity with
  | none => rfl
  | some capacity =>
    rw [hc] at h
    dsimp only at h ⊢
    omega

/-- Where bytes do not fit, there is no more room for more of them. -/
theorem room_of_full {s : Sink} {n : Nat} (h : s.room n ≠ n) (more : Nat) : s.room (n + more) = s.room n := by
  unfold room at *
  cases hc : s.capacity with
  | none =>
    rw [hc] at h
    exact absurd rfl h
  | some capacity =>
    rw [hc] at h
    dsimp only at h ⊢
    omega

/-- Bytes that are written in two pieces are written as in one, also if they do not fit. -/
theorem put_append (bytes bytes' : List UInt8) : put (bytes ++ bytes') = put bytes >>= fun _ => put bytes' := by
  funext s
  show _ = EStateM.bind (put bytes) (fun _ => put bytes') s
  unfold EStateM.bind
  rw [put_eq (bytes ++ bytes'), put_eq bytes, List.length_append]
  by_cases h : s.room bytes.length = bytes.length
  · have htake (k : Nat) : (bytes ++ bytes').take (bytes.length + k) = bytes ++ bytes'.take k := by
      rw [List.take_length_add_append]
    have hfault : (s.extend bytes).fault = s.fault := rfl
    rw [if_pos h]
    dsimp only
    rw [put_eq, room_extend h, htake, extend_extend, extend_extend, hfault]
    simp only [Nat.add_left_cancel_iff]
  · have hle : s.room bytes.length ≤ bytes.length := by
      unfold room
      split <;> omega
    rw [if_neg h, room_of_full h, if_neg (by omega), List.take_append_of_le_length hle]

/-- Nothing fits everywhere. -/
theorem put_nil : put [] = pure () := by
  funext s
  rw [put_eq, extend_nil]
  exact if_pos (by unfold room; split <;> simp)

/-- Lines are written as their bytes are. -/
theorem putLines_eq_put (lines : List String) : putLines lines = put (bytesOf lines) := by
  induction lines with
  | nil => exact put_nil.symm
  | cons line rest ih =>
    have hsplit : bytesOf (line :: rest) = (line ++ "\n").toUTF8.toList ++ bytesOf rest := rfl
    rw [hsplit, put_append, ← ih]
    rfl

theorem putLines_unfailing {s : Sink} (hs : s.Unfailing) (lines : List String) :
    putLines lines s = .ok () (s.extend (bytesOf lines)) := by
  rw [putLines_eq_put]
  exact put_of_unbounded hs.unbounded _

/-! ## Text of lines -/

/-- The text of lines, each with its line feed. -/
def textOf (lines : List String) : String := String.join (lines.map (· ++ "\n"))

theorem textOf_cons (line : String) (lines : List String) : textOf (line :: lines) = line ++ "\n" ++ textOf lines := by
  unfold textOf
  rw [List.map_cons, String.join_cons]

theorem textOf_singleton (line : String) : textOf [line] = line ++ "\n" := by
  rw [textOf_cons]
  exact String.append_empty

theorem byteArray_toList_loop (bytes : ByteArray) (i : Nat) (read : List UInt8) :
    ByteArray.toList.loop bytes i read = read.reverse ++ bytes.data.toList.drop i := by
  fun_induction ByteArray.toList.loop bytes i read with
  | case1 i read hlt ih =>
    have hlen : i < bytes.data.toList.length := hlt
    have hget : bytes.get! i = bytes.data.toList[i] := getElem!_pos bytes.data i hlt
    rw [ih, List.reverse_cons, List.drop_eq_getElem_cons hlen, hget, List.append_assoc, List.singleton_append]
  | case2 i read hge =>
    have hlen : bytes.data.toList.length ≤ i := Nat.le_of_not_lt hge
    rw [List.drop_of_length_le hlen, List.append_nil]

theorem toList_toUTF8 (text : String) : text.toUTF8.toList = text.toByteArray.data.toList :=
  byteArray_toList_loop text.toByteArray 0 []

/-- What is written of lines is their text. -/
theorem bytesOf_eq_toUTF8 (lines : List String) : bytesOf lines = (textOf lines).toUTF8.toList := by
  induction lines with
  | nil => exact (toList_toUTF8 "").symm
  | cons line rest ih =>
    show (line ++ "\n").toUTF8.toList ++ bytesOf rest = _
    rw [ih, textOf_cons, toList_toUTF8, toList_toUTF8, toList_toUTF8, String.toByteArray_append]
    exact ByteArray.toList_data_append.symm

/-- Bytes are those of one text only. -/
theorem eq_of_toUTF8 {text text' : String} (h : text.toUTF8.toList = text'.toUTF8.toList) : text = text' := by
  rw [toList_toUTF8, toList_toUTF8] at h
  exact String.toByteArray_inj.1 (ByteArray.ext (Array.toList_inj.1 h))

theorem toList_textOf (lines : List String) :
    (textOf lines).toList = lines.flatMap fun line => line.toList ++ ['\n'] := by
  unfold textOf
  rw [String.toList_join, List.flatMap_map]
  simp only [String.toList_append]
  rfl

theorem textOf_append (lines lines' : List String) : textOf (lines ++ lines') = textOf lines ++ textOf lines' := by
  apply String.toList_injective
  rw [String.toList_append, toList_textOf, toList_textOf, toList_textOf, List.flatMap_append]

/-- Lines that are made group by group are the texts of the groups one behind the other. -/
theorem textOf_flatMap {α : Type} (f : α → List String) (entries : List α) :
    textOf (entries.flatMap f) = String.join (entries.map fun a => textOf (f a)) := by
  induction entries with
  | nil => rfl
  | cons a rest ih => rw [List.flatMap_cons, textOf_append, ih, List.map_cons, String.join_cons]

/-- The text of lines ends with the line feed of the last of them. -/
theorem exists_textOf {lines : List String} (h : lines ≠ []) : ∃ front, textOf lines = front ++ "\n" := by
  refine ⟨textOf lines.dropLast ++ lines.getLast h, ?_⟩
  have hlast : textOf (lines.dropLast ++ [lines.getLast h]) = textOf lines.dropLast ++ textOf [lines.getLast h] :=
    textOf_append _ _
  rw [List.dropLast_concat_getLast h] at hlast
  rw [hlast, textOf_singleton, String.append_assoc]

end Sink

end NodeTrace
