import NodeTrace.HexDump
import NodeTrace.Proofs.GraphText

/-!
# Dumps are read back

A line of a dump has its parts at marks that no part in front of them contains: the offset ends at the first colon, the
places, with blanks between them, at the first bar behind it.  So the places and the character column are found again on
every line (`HexDump.showsOn_line`), and all places in turn are those of the bytes and of some that are filled up
(`HexDump.flatMap_cells`).  Whoever reads the two digits of each place has the bytes again (`dump_reads_back`).
-/

namespace NodeTrace

/-- The text writes a number in digits of base 16, in lower case, as few as are enough and at least some. -/
structure Digits.Writes (least n : Nat) (text : String) : Prop where
  digits : ∀ c ∈ text.toList, c ∈ all
  value : value 16 text.toList = n
  length : IsLeast {width | least ≤ width ∧ n < 16 ^ width} text.toList.length

theorem Digits.writes_hex {least : Nat} (hl : 0 < least) (n : Nat) : Writes least n (hex least n) where
  digits := mem_hex least n
  value := value_hex least n
  length := by
    have hdigits (width : Nat) (hw : 0 < width) : (Nat.toDigits 16 n).length ≤ width ↔ n < 16 ^ width :=
      Nat.length_toDigits_le_iff (by decide) hw
    have hlen : (hex least n).toList.length = max least (Nat.toDigits 16 n).length := by
      unfold hex padded List.leftpad
      rw [String.toList_ofList, List.length_append, List.length_replicate]
      omega
    rw [hlen]
    refine ⟨⟨Nat.le_max_left _ _, (hdigits _ (by omega)).1 (Nat.le_max_right _ _)⟩, fun width hwidth => ?_⟩
    exact Nat.max_le.2 ⟨hwidth.1, (hdigits width (Nat.lt_of_lt_of_le hl hwidth.1)).2 hwidth.2⟩

namespace HexDump

/-! ## Lines -/

theorem without_cell (place : Option UInt8) : Without '\n' (cell place) := by
  cases place with
  | none => exact (by decide : Without '\n' "__ ")
  | some b => exact ((Numeral.hex 2 b.toNat).without (by decide)).append (by decide)

theorem character_ne (place : Option UInt8) : character place ≠ '\n' := by
  have hprintable : ∀ n < 127, 32 ≤ n → Char.ofNat n ≠ '\n' := by decide
  unfold character
  cases place with
  | none => decide
  | some b =>
    dsimp only
    split
    · rename_i hb
      exact hprintable b.toNat (Nat.lt_succ_of_le (UInt8.le_iff_toNat_le.1 hb.2)) (UInt8.le_iff_toNat_le.1 hb.1)
    · decide

theorem without_line (offset : Nat) (bytes : List UInt8) : Without '\n' (line offset bytes) := by
  have hoffset : Without '\n' (Digits.hex 4 offset) := (Numeral.hex 4 offset).without (by decide)
  have hcells (ps : List (Option UInt8)) : Without '\n' (String.join (ps.map cell)) :=
    .join (List.forall_mem_map.2 fun place _ => without_cell place)
  have hcharacters : Without '\n' (String.ofList ((places bytes).map character)) := by
    refine .ofList fun hmem => ?_
    obtain ⟨place, -, hplace⟩ := List.mem_map.1 hmem
    exact character_ne place hplace
  have hblank : Without '\n' " " := by decide
  have hbar : Without '\n' "|" := by decide
  unfold line
  exact (((((((Without.append (by decide) hoffset).append (by decide)).append (hcells _)).append hblank).append
    (hcells _)).append hbar).append hcharacters).append hbar

theorem line_ne_empty (offset : Nat) (bytes : List UInt8) : line offset bytes ≠ "" := by
  intro h
  have hlist := congrArg String.toList h
  unfold line at hlist
  simp only [String.toList_append, String.toList_empty, List.append_eq_nil_iff] at hlist
  exact absurd hlist.2 (by decide)

/-- Every line of a dump is the line of some bytes. -/
theorem mem_linesFrom {offset : Nat} {bytes : List UInt8} {text : String} (h : text ∈ linesFrom offset bytes) :
    ∃ offset' bytes', text = line offset' bytes' := by
  fun_induction linesFrom offset bytes with
  | case1 => cases h
  | case2 offset b rest bytes ih =>
    rcases List.mem_cons.1 h with rfl | h
    · exact ⟨_, _, rfl⟩
    · exact ih h

theorem lines_nil : lines [] = [] := by
  unfold lines
  rw [linesFrom]

theorem lines_ne_nil {bytes : List UInt8} (h : bytes ≠ []) : lines bytes ≠ [] := by
  cases bytes with
  | nil => exact absurd rfl h
  | cons b rest =>
    unfold lines
    rw [linesFrom]
    exact List.cons_ne_nil _ _

theorem length_linesFrom (offset : Nat) (bytes : List UInt8) : (linesFrom offset bytes).length = (bytes.length + 15) / 16 := by
  fun_induction linesFrom offset bytes with
  | case1 => rfl
  | case2 offset b rest bytes ih =>
    have hlen : bytes.length = rest.length + 1 := rfl
    rw [List.length_cons, ih, List.length_drop, lineSize, groupSize, hlen]
    omega

/-- The line at a place of a dump is that of sixteen bytes, or of those that are left. -/
theorem getElem?_linesFrom {offset i : Nat} {bytes : List UInt8} {text : String}
    (h : (linesFrom offset bytes)[i]? = some text) :
    text = line (offset + 16 * i) ((bytes.drop (16 * i)).take 16) := by
  induction i generalizing offset bytes with
  | zero =>
    cases bytes with
    | nil =>
      rw [linesFrom] at h
      cases h
    | cons b rest =>
      rw [linesFrom] at h
      exact (Option.some.inj h).symm
  | succ i ih =>
    cases bytes with
    | nil =>
      rw [linesFrom] at h
      cases h
    | cons b rest =>
      have hoffset : offset + lineSize + 16 * i = offset + 16 * (i + 1) := by
        rw [lineSize, groupSize]
        omega
      have hdrop : ((b :: rest).drop lineSize).drop (16 * i) = (b :: rest).drop (16 * (i + 1)) := by
        rw [List.drop_drop, lineSize, groupSize]
        congr 1
        omega
      rw [linesFrom] at h
      rw [ih h, hoffset, hdrop]

theorem places_eq {bytes : List UInt8} (h : bytes.length ≤ 16) : places bytes = (List.range 16).map fun j => bytes[j]? := by
  unfold places
  rw [lineSize, groupSize]
  refine List.ext_getElem ?_ fun j hj hj' => ?_
  · rw [List.length_append, List.length_map, List.length_replicate, List.length_map, List.length_range]
    omega
  · rw [List.getElem_map, List.getElem_range]
    rcases Nat.lt_or_ge j bytes.length with hlt | hge
    · rw [List.getElem_append_left (by rwa [List.length_map]), List.getElem_map, List.getElem?_eq_getElem hlt]
    · rw [List.getElem_append_right (by rwa [List.length_map]), List.getElem_replicate, List.getElem?_eq_none hge]

/-- The sixteen places of a line, whether there are bytes at them or not. -/
theorem places_chunk (bytes : List UInt8) (i : Nat) : places ((bytes.drop (16 * i)).take 16) =
    (List.range 16).map fun j => bytes[16 * i + j]? := by
  rw [places_eq (List.length_take_le _ _)]
  refine List.map_congr_left fun j hj => ?_
  rw [List.getElem?_take_of_lt (List.mem_range.1 hj), List.getElem?_drop]

/-! ## Reading -/

/-- A line behind its offset. -/
def body (line : String) : List Char := (line.toList.dropWhile (· ≠ ':')).drop 2

/-- The texts of the places of a line: in front of the first bar, with blanks between them. -/
def cells (line : String) : List String :=
  ((((body line).takeWhile (· ≠ '|')).splitOn ' ').map String.ofList).filter (· ≠ "")

/-- The character column of a line: behind the first bar, but for the last one. -/
def column (line : String) : List Char := (((body line).dropWhile (· ≠ '|')).drop 1).dropLast

/-- The byte at a place, unless it is filled up. -/
def byte? (cell : String) : Option UInt8 :=
  if cell = "__" then none else some (UInt8.ofNat (Digits.value 16 cell.toList))

/-- The bytes at the places of all lines in turn. -/
def readBack (text : String) : List UInt8 := ((Drawing.lines text).flatMap cells).filterMap byte?

/-- The text of a place: two digits of the byte, or what fills it up. -/
def IsCell : Option UInt8 → String → Prop
  | some b, text => text.toList.length = 2 ∧ (∀ c ∈ text.toList, c ∈ Digits.all) ∧
    Digits.value 16 text.toList = b.toNat
  | none, text => text = "__"

/-- What the character column has for a place: the byte as it is if it is a blank or can be printed. -/
def IsCharacter : Option UInt8 → Char → Prop
  | some b, c => if 0x20 ≤ b ∧ b ≤ 0x7e then c.toNat = b.toNat else c = '.'
  | none, c => c = '.'

/-- The line starts with its offset and shows the bytes of its places in both ways. -/
structure ShowsOn (offset : Nat) (places : List (Option UInt8)) (line : String) : Prop where
  starts : ∃ digits rest, line = "$" ++ digits ++ ": " ++ rest ∧ Digits.Writes 4 offset digits
  cells : List.Forall₂ IsCell places (cells line)
  column : List.Forall₂ IsCharacter places (column line)

/-! ## Lines read back -/

/-- What is written at a place, in front of a blank. -/
def word : Option UInt8 → String
  | some b => Digits.hex 2 b.toNat
  | none => "__"

theorem cell_eq (place : Option UInt8) : cell place = word place ++ " " := by
  cases place <;> rfl

theorem isCell_word (place : Option UInt8) : IsCell place (word place) := by
  cases place with
  | none => rfl
  | some b => exact ⟨Digits.length_hex (by decide) b.toNat_lt, Digits.mem_hex 2 b.toNat, Digits.value_hex 2 b.toNat⟩

theorem IsCell.length {place : Option UInt8} {text : String} (h : IsCell place text) : text.toList.length = 2 := by
  cases place with
  | none =>
    have htext : text = "__" := h
    rw [htext]
    rfl
  | some b => exact h.1

/-- The text of a place is made of digits or of what fills it up, so that there is neither a blank nor a bar in it. -/
theorem IsCell.mem {place : Option UInt8} {text : String} (h : IsCell place text) {c : Char} (hc : c ∈ text.toList) :
    c ∈ '_' :: Digits.all := by
  cases place with
  | none =>
    have htext : text.toList = List.replicate 2 '_' := congrArg String.toList h
    rw [htext] at hc
    rw [List.eq_of_mem_replicate hc]
    exact List.mem_cons_self
  | some b => exact List.mem_cons_of_mem _ (h.2.1 c hc)

theorem isCharacter_character (place : Option UInt8) : IsCharacter place (character place) := by
  have hprintable : ∀ n < 127, (Char.ofNat n).toNat = n := by decide
  cases place with
  | none => rfl
  | some b =>
    unfold IsCharacter character
    dsimp only
    split
    · rename_i hb
      exact hprintable b.toNat (Nat.lt_succ_of_le (UInt8.le_iff_toNat_le.1 hb.2))
    · rfl

/-- The words of some places, in two groups with an empty one between them. -/
def words (ps : List (Option UInt8)) : List String := (ps.take groupSize).map word ++ "" :: (ps.drop groupSize).map word

theorem mem_words {ps : List (Option UInt8)} {w : String} (hw : w ∈ words ps) {c : Char} (hc : c ∈ w.toList) :
    c ∈ '_' :: Digits.all := by
  unfold words at hw
  rcases List.mem_append.1 hw with hw | hw
  · obtain ⟨place, -, rfl⟩ := List.mem_map.1 hw
    exact (isCell_word place).mem hc
  · rcases List.mem_cons.1 hw with rfl | hw
    · cases hc
    · obtain ⟨place, -, rfl⟩ := List.mem_map.1 hw
      exact (isCell_word place).mem hc

/-- Without the empty words only those of the places are left. -/
theorem filter_words (ps : List (Option UInt8)) : (words ps ++ [""]).filter (· ≠ "") = ps.map word := by
  have hkept (ps : List (Option UInt8)) : (ps.map word).filter (· ≠ "") = ps.map word := by
    refine List.filter_eq_self.2 (List.forall_mem_map.2 fun place _ => decide_eq_true fun hempty => ?_)
    have hlen := (isCell_word place).length
    rw [hempty] at hlen
    cases hlen
  unfold words
  rw [List.filter_append, List.filter_append, hkept, List.filter_cons_of_neg (by decide), hkept,
    List.filter_cons_of_neg (by decide), List.filter_nil, List.append_nil, ← List.map_append, List.take_append_drop]

section Line

variable (offset : Nat) (bytes : List UInt8)

/-- What stands in front of the first bar of a line behind its offset. -/
def front : List Char := (words (places bytes)).flatMap fun w => w.toList ++ [' ']

theorem mem_front {c : Char} (hc : c ∈ front bytes) : c ≠ '|' := by
  obtain ⟨w, hw, hc⟩ := List.mem_flatMap.1 hc
  rcases List.mem_append.1 hc with hc | hc
  · rintro rfl
    exact absurd (mem_words hw hc) (by decide)
  · rw [List.mem_singleton.1 hc]
    decide

theorem toList_line : (line offset bytes).toList = '$' :: ((Digits.hex 4 offset).toList ++
    ':' :: ' ' :: (front bytes ++ '|' :: ((places bytes).map character ++ ['|']))) := by
  have hcells (ps : List (Option UInt8)) :
      (String.join (ps.map cell)).toList = (ps.map word).flatMap fun w => w.toList ++ [' '] := by
    rw [String.toList_join, List.flatMap_map, List.flatMap_map]
    exact List.flatMap_congr fun p _ => by
      rw [cell_eq, String.toList_append]
      rfl
  unfold line front words
  simp only [String.toList_append, hcells, String.toList_ofList, List.flatMap_append, List.flatMap_cons, List.nil_append,
    List.append_assoc, List.cons_append]
  rfl

theorem body_line : body (line offset bytes) = front bytes ++ '|' :: ((places bytes).map character ++ ['|']) := by
  have hoffset : ∀ c ∈ '$' :: (Digits.hex 4 offset).toList, decide (c ≠ ':') = true := by
    refine List.forall_mem_cons.2 ⟨by decide, fun c hc => decide_eq_true ?_⟩
    rintro rfl
    exact absurd (Digits.mem_hex 4 offset _ hc) (by decide)
  unfold body
  rw [toList_line, ← List.cons_append, List.dropWhile_append_of_pos hoffset, List.dropWhile_cons_of_neg (by decide)]
  rfl

theorem cells_line : cells (line offset bytes) = (places bytes).map word := by
  have hfront : ∀ c ∈ front bytes, decide (c ≠ '|') = true := fun c hc => decide_eq_true (mem_front bytes hc)
  have hparts : front bytes = ((words (places bytes)).map String.toList).flatMap fun part => part ++ [' '] := by
    rw [List.flatMap_map]
    rfl
  have hblank : ∀ part ∈ (words (places bytes)).map String.toList, ' ' ∉ part :=
    List.forall_mem_map.2 fun w hw hmem => absurd (mem_words hw hmem) (by decide)
  have hwords : ((words (places bytes)).map String.toList ++ [[]]).map String.ofList = words (places bytes) ++ [""] := by
    rw [List.map_append, List.map_map]
    simp
  unfold cells
  rw [body_line, List.takeWhile_append_of_pos hfront, List.takeWhile_cons_of_neg (by decide), List.append_nil, hparts,
    Drawing.splitOn_flatMap_concat hblank, hwords, filter_words]

theorem column_line : column (line offset bytes) = (places bytes).map character := by
  have hfront : ∀ c ∈ front bytes, decide (c ≠ '|') = true := fun c hc => decide_eq_true (mem_front bytes hc)
  unfold column
  rw [body_line, List.dropWhile_append_of_pos hfront, List.dropWhile_cons_of_neg (by decide), List.drop_one, List.tail_cons,
    List.dropLast_concat]

theorem showsOn_line : ShowsOn offset (places bytes) (line offset bytes) where
  starts := by
    have hrest : ∃ rest, line offset bytes = "$" ++ Digits.hex 4 offset ++ ": " ++ rest := by
      unfold line
      simp only [String.append_assoc]
      exact ⟨_, rfl⟩
    obtain ⟨rest, hline⟩ := hrest
    exact ⟨_, rest, hline, Digits.writes_hex (by decide) offset⟩
  cells := by
    rw [cells_line, List.forall₂_map_right_iff, List.forall₂_same]
    exact fun place _ => isCell_word place
  column := by
    rw [column_line, List.forall₂_map_right_iff, List.forall₂_same]
    exact fun place _ => isCharacter_character place

theorem length_places {bytes : List UInt8} (h : bytes.length ≤ 16) : (places bytes).length = 16 := by
  rw [places_eq h, List.length_map, List.length_range]

/-- Lines with offsets of four digits have one length. -/
theorem length_line {offset : Nat} {bytes : List UInt8} (hoffset : offset < 0x10000) (hbytes : bytes.length ≤ 16) :
    (line offset bytes).length = 74 := by
  have hwords (ps : List (Option UInt8)) : ((ps.map word).flatMap fun w => w.toList ++ [' ']).length = 3 * ps.length := by
    induction ps with
    | nil => rfl
    | cons place rest ih =>
      rw [List.map_cons, List.flatMap_cons, List.length_append, ih, List.length_append, (isCell_word place).length,
        List.length_singleton, List.length_cons]
      omega
  have hdigits : (Digits.hex 4 offset).toList.length = 4 := Digits.length_hex (by decide) hoffset
  have hlen := length_places hbytes
  have htake : ((places bytes).take groupSize).length = 8 := by
    rw [List.length_take, hlen, groupSize]
    rfl
  have hdrop : ((places bytes).drop groupSize).length = 8 := by
    rw [List.length_drop, hlen, groupSize]
  rw [← String.length_toList, toList_line, front, words, List.flatMap_append, List.flatMap_cons]
  simp only [List.length_cons, List.length_append, hwords, htake, hdrop, hdigits, List.length_map, hlen, List.length_nil,
    String.toList_empty]

end Line

/-! ## Dumps -/

theorem lines_textOf (bytes : List UInt8) : Drawing.lines (text bytes) = lines bytes := by
  refine Drawing.lines_textOf fun l hl => ?_
  obtain ⟨offset, bytes', rfl⟩ := mem_linesFrom hl
  exact without_line offset bytes'

/-- All places in turn: those of the bytes, and those that are filled up, on the last line. -/
theorem flatMap_cells (offset : Nat) (bytes : List UInt8) : ∃ filled < 16, (linesFrom offset bytes).flatMap cells =
    (bytes.map some ++ List.replicate filled none).map word := by
  fun_induction linesFrom offset bytes with
  | case1 => exact ⟨0, by decide, rfl⟩
  | case2 offset b rest bytes ih =>
    rw [List.flatMap_cons, cells_line]
    rcases Nat.lt_or_ge 16 bytes.length with hlt | hle
    · obtain ⟨filled, hfilled, hcells⟩ := ih
      refine ⟨filled, hfilled, ?_⟩
      have htake : (bytes.take lineSize).length = lineSize := List.length_take_of_le (Nat.le_of_lt hlt)
      rw [hcells, ← List.map_append, places, htake, Nat.sub_self, List.replicate_zero, List.append_nil, ← List.append_assoc,
        ← List.map_append, List.take_append_drop]
    · have htake : bytes.take lineSize = bytes := List.take_of_length_le hle
      have hdrop : bytes.drop lineSize = [] := List.drop_eq_nil_of_le hle
      refine ⟨16 - bytes.length, ?_, ?_⟩
      · have hpos : 0 < bytes.length := Nat.succ_pos _
        omega
      · rw [htake, hdrop, linesFrom, List.flatMap_nil, List.append_nil]
        rfl

theorem byte?_of_isCell {place : Option UInt8} {cell : String} (h : IsCell place cell) : byte? cell = place := by
  unfold byte?
  cases place with
  | none => exact if_pos h
  | some b =>
    obtain ⟨-, hdigits, hvalue⟩ := h
    have hne : cell ≠ "__" := by
      rintro rfl
      exact absurd (hdigits '_' (by decide)) (by decide)
    rw [if_neg hne, hvalue, UInt8.ofNat_toNat]

theorem filterMap_byte? {places : List (Option UInt8)} {cells : List String} (h : List.Forall₂ IsCell places cells) :
    cells.filterMap byte? = places.filterMap id := by
  induction h with
  | nil => rfl
  | cons hcell _ ih => rw [List.filterMap_cons, List.filterMap_cons, byte?_of_isCell hcell, ih]; rfl

/-- The text is a dump of the bytes. -/
structure IsDump (bytes : List UInt8) (text : String) : Prop where
  textOf_lines : Sink.textOf (Drawing.lines text) = text
  length : (Drawing.lines text).length = (bytes.length + 15) / 16
  lines : ∀ i line, (Drawing.lines text)[i]? = some line →
    ShowsOn (16 * i) ((List.range 16).map fun j => bytes[16 * i + j]?) line
  aligned : ∀ i line, (Drawing.lines text)[i]? = some line → 16 * i < 0x10000 → line.length = 74
  cells : ∃ filled < 16, List.Forall₂ IsCell (bytes.map some ++ List.replicate filled none)
    ((Drawing.lines text).flatMap cells)
  readBack : readBack text = bytes

theorem isDump_text (bytes : List UInt8) : IsDump bytes (text bytes) := by
  have hcells : ∃ filled < 16, List.Forall₂ IsCell (bytes.map some ++ List.replicate filled none)
      ((Drawing.lines (text bytes)).flatMap cells) := by
    obtain ⟨filled, hfilled, hcells⟩ := flatMap_cells 0 bytes
    refine ⟨filled, hfilled, ?_⟩
    rw [lines_textOf, lines, hcells, List.forall₂_map_right_iff, List.forall₂_same]
    exact fun place _ => isCell_word place
  constructor
  · rw [lines_textOf]
    rfl
  · rw [lines_textOf]
    exact length_linesFrom 0 bytes
  · intro i line hline
    rw [lines_textOf] at hline
    rw [getElem?_linesFrom hline, Nat.zero_add, ← places_chunk]
    exact showsOn_line _ _
  · intro i line hline hoffset
    rw [lines_textOf] at hline
    rw [getElem?_linesFrom hline, Nat.zero_add]
    exact length_line hoffset (List.length_take_le _ _)
  · exact hcells
  · obtain ⟨filled, -, hall⟩ := hcells
    unfold readBack
    rw [filterMap_byte? hall, List.filterMap_append, List.filterMap_map]
    simp

end HexDump

/-- A dump is read back.  It has a line for every sixteen bytes, with the offset and with each byte in two digits and as a
character; lines whose offset has four digits are of one length.  The digits of all lines in turn, but for what fills up the
last line, are those of the bytes, so that different bytes have different dumps. -/
theorem dump_reads_back : (∀ bytes, HexDump.IsDump bytes (HexDump.text bytes)) ∧ Function.Injective HexDump.text := by
  have hback : Function.LeftInverse HexDump.readBack HexDump.text := fun bytes => (HexDump.isDump_text bytes).readBack
  exact ⟨HexDump.isDump_text, hback.injective⟩

end NodeTrace
