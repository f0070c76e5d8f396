import Mathlib.Data.List.DropRight
import NodeTrace.Proofs.GraphText
import NodeTrace.Proofs.IdSets
import NodeTrace.Proofs.Registrations
import NodeTrace.Tally.Report

/-!
# Two forms of one report

In both forms a report has rows of one make: a label, blanks, a colon and a text (`Tally.IsRow`), so that a row is read
back from its line (`Tally.entry`).  The compact form has a row for each counter and for each set of ids
(`Tally.CompactText`).  The human form, cut at its empty lines, is the heading and the rows of each section in turn
(`Tally.humanLines_eq`), and the rows are those of the counters that are not zero and of all sets, with colons below
each other (`Tally.HumanText`).
-/

namespace NodeTrace

namespace Tally

/-! ## Rows -/

/-- Read a row: its label in front of the first colon, without blanks at the end, and its text behind the colon. -/
def entry (line : String) : String × String :=
  (String.ofList ((line.toList.takeWhile (· ≠ ':')).rdropWhile (· = ' ')),
    String.ofList ((line.toList.dropWhile (· ≠ ':')).drop 1))

/-- The text has no colon and no line feed. -/
def Inline (text : String) : Prop := Without ':' text ∧ Without '\n' text

instance (text : String) : Decidable (Inline text) := inferInstanceAs (Decidable (_ ∧ _))

/-- The text does not end with a blank either. -/
def IsLabel (text : String) : Prop := Inline text ∧ text.toList.getLast? ≠ some ' '

instance (text : String) : Decidable (IsLabel text) := inferInstanceAs (Decidable (_ ∧ _))

theorem Inline.append {text text' : String} (h : Inline text) (h' : Inline text') : Inline (text ++ text') :=
  ⟨h.1.append h'.1, h.2.append h'.2⟩

theorem inline_of_numeral {text : String} (h : Numeral text) : Inline text :=
  ⟨h.without (by decide), h.without (by decide)⟩

/-- The line is a row with this label and this text, and with its colon at a column. -/
structure IsRow (label text : String) (column : Nat) (line : String) : Prop where
  isLabel : IsLabel label
  inline : Inline text
  toList_eq : line.toList = label.toList ++ List.replicate (column - label.length) ' ' ++ ':' :: text.toList
  length_le : label.length ≤ column

namespace IsRow

variable {label text line : String} {column : Nat}

theorem not_mem_front (h : IsRow label text column line) :
    ':' ∉ label.toList ++ List.replicate (column - label.length) ' ' := by
  rw [List.mem_append]
  exact fun hmem => hmem.elim h.isLabel.1.1 fun hmem => absurd (List.eq_of_mem_replicate hmem) (by decide)

/-- Blanks that a label is filled up with are dropped again. -/
theorem rdropWhile_front (h : IsRow label text column line) :
    (label.toList ++ List.replicate (column - label.length) ' ').rdropWhile (· = ' ') = label.toList := by
  have hblanks : ∀ c ∈ (List.replicate (column - label.length) ' ').reverse, decide (c = ' ') = true := fun c hc =>
    decide_eq_true (List.eq_of_mem_replicate (List.mem_reverse.1 hc))
  have hlabel : label.toList.rdropWhile (· = ' ') = label.toList :=
    List.rdropWhile_eq_self_iff.2 fun hne hlast =>
      h.isLabel.2 ((List.getLast?_eq_some_getLast hne).trans (congrArg some (of_decide_eq_true hlast)))
  unfold List.rdropWhile at hlabel ⊢
  rw [List.reverse_append, List.dropWhile_append_of_pos hblanks, hlabel]

theorem entry_eq (h : IsRow label text column line) : entry line = (label, text) := by
  have hfront : ∀ c ∈ label.toList ++ List.replicate (column - label.length) ' ', decide (c ≠ ':') = true := by
    intro c hc
    refine decide_eq_true ?_
    rintro rfl
    exact h.not_mem_front hc
  unfold entry
  rw [h.toList_eq, List.takeWhile_append_of_pos hfront, List.dropWhile_append_of_pos hfront,
    List.takeWhile_cons_of_neg (by decide), List.dropWhile_cons_of_neg (by decide), List.append_nil, h.rdropWhile_front]
  simp

theorem count_eq (h : IsRow label text column line) : line.toList.count ':' = 1 := by
  rw [h.toList_eq, List.count_append, List.count_eq_zero_of_not_mem h.not_mem_front, List.count_cons_self,
    List.count_eq_zero_of_not_mem h.inline.1]

theorem idxOf_eq (h : IsRow label text column line) : line.toList.idxOf ':' = column := by
  have hle := h.length_le
  rw [h.toList_eq, List.idxOf_append_of_notMem h.not_mem_front, List.idxOf_cons_self, List.length_append,
    List.length_replicate, String.length_toList]
  omega

theorem without_lineFeed (h : IsRow label text column line) : Without '\n' line := by
  unfold Without
  rw [h.toList_eq, List.mem_append, List.mem_append, List.mem_cons]
  rintro ((hmem | hmem) | hmem | hmem)
  · exact h.isLabel.1.2 hmem
  · exact absurd (List.eq_of_mem_replicate hmem) (by decide)
  · exact absurd hmem (by decide)
  · exact h.inline.2 hmem

theorem ne_empty (h : IsRow label text column line) : line ≠ "" := by
  rintro rfl
  have hcount := h.count_eq
  simp at hcount

end IsRow

/-! ## The rows of a report -/

theorem isRow_compact {name text : String} (hname : IsLabel name) (htext : Inline text) :
    IsRow name text name.length (name ++ ":" ++ text) where
  isLabel := hname
  inline := htext
  toList_eq := by simp [String.toList_append]
  length_le := Nat.le_refl _

/-- A label that is filled up to a width has one blank more in front of its colon. -/
theorem isRow_padded {label text : String} (hlabel : IsLabel label) (htext : Inline text) {width : Nat}
    (h : label.length ≤ width) : IsRow label text (width + 1) (padded width label ++ " :" ++ text) where
  isLabel := hlabel
  inline := htext
  toList_eq := by
    have hblanks : List.replicate (width + 1 - label.length) ' ' = List.replicate (width - label.length) ' ' ++ [' '] := by
      rw [Nat.sub_add_comm h, List.replicate_succ']
    rw [hblanks]
    unfold padded List.rightpad
    simp [String.toList_append, String.length_toList]
  length_le := Nat.le_succ_of_le h

variable (t : Tally)

/-- What a report calls its counters does not depend on the tally. -/
theorem labels_counters : ∀ c ∈ t.counters.flatMap (·.rows), IsLabel c.name ∧ IsLabel c.label ∧ Inline c.unit := by
  unfold counters
  simp only [List.flatMap_cons, List.flatMap_nil, List.cons_append, List.nil_append, List.forall_mem_cons]
  decide

theorem labels_seen : ∀ s ∈ t.seen.rows, IsLabel s.name ∧ IsLabel s.label := by
  unfold seen
  simp only [List.forall_mem_cons]
  decide

theorem inline_seenText (ids : IdSet) : Inline (seenText ids) := by
  have hparts : ∀ part ∈ (ids.members.take maxSeenShown).map fun id => " " ++ hexId id, Inline part :=
    List.forall_mem_map.2 fun id _ => Inline.append (by decide) (inline_of_numeral (numeral_hexId id))
  have hjoin : Inline (String.join ((ids.members.take maxSeenShown).map fun id => " " ++ hexId id)) :=
    ⟨.join fun part hpart => (hparts part hpart).1, .join fun part hpart => (hparts part hpart).2⟩
  unfold seenText
  dsimp only
  split
  · exact hjoin.append (by decide)
  · exact hjoin.append (by decide)

/-- What stands behind the colon of a counter in human form. -/
def counterText (c : Counter) : String := " " ++ Digits.decimal c.value.toNat ++ " " ++ c.unit

theorem isRow_counterLine {width : Nat} {c : Counter} (hc : c ∈ t.counters.flatMap (·.rows))
    (h : c.label.length ≤ width) : IsRow c.label (counterText c) (width + 1) (counterLine width c) := by
  obtain ⟨-, hlabel, hunit⟩ := labels_counters t c hc
  have htext : Inline (counterText c) :=
    ((Inline.append (by decide) (inline_of_numeral (Digits.numeral_decimal _))).append (by decide)).append hunit
  have hline : counterLine width c = padded width c.label ++ " :" ++ counterText c := by
    have hcolon : " : " = " :" ++ " " := rfl
    unfold counterLine counterText
    rw [hcolon]
    simp only [String.append_assoc]
  rw [hline]
  exact isRow_padded hlabel htext h

theorem isRow_seenLine {width : Nat} {s : SeenRow} (hs : s ∈ t.seen.rows) (h : s.label.length ≤ width) :
    IsRow s.label (seenText s.ids) (width + 1) (seenLine width s) :=
  isRow_padded (labels_seen t s hs).2 (inline_seenText s.ids) h

/-! ## Columns -/

/-- Every line has one colon, and all of them are at the column behind the longest label that is read from these lines and
one blank. -/
def Aligned (lines : List String) : Prop := ∃ width,
  (lines ≠ [] → IsGreatest {n | ∃ line ∈ lines, (entry line).1.length = n} width) ∧
    ∀ line ∈ lines, line.toList.count ':' = 1 ∧ line.toList.idxOf ':' = width + 1

section Columns

variable {α : Type} {rows : List α} {label text : α → String} {line : α → String}

theorem isGreatest_longest (h : rows ≠ []) :
    IsGreatest {n | ∃ x ∈ rows, (label x).length = n} (longest (rows.map label)) := by
  have hlongest : longest (rows.map label) = rows.foldl (fun width x => max width (label x).length) 0 := List.foldl_map
  rw [hlongest]
  exact isGreatest_foldl_max (fun x => (label x).length) h

theorem length_le_longest {x : α} (h : x ∈ rows) : (label x).length ≤ longest (rows.map label) :=
  (isGreatest_longest (List.ne_nil_of_mem h)).2 ⟨x, h, rfl⟩

theorem map_entry {column : α → Nat} (h : ∀ x ∈ rows, IsRow (label x) (text x) (column x) (line x)) :
    (rows.map line).map entry = rows.map fun x => (label x, text x) := by
  rw [List.map_map]
  exact List.map_congr_left fun x hx => (h x hx).entry_eq

/-- Rows that are filled up to the length of the longest label are aligned. -/
theorem aligned_of_isRow (h : ∀ x ∈ rows, IsRow (label x) (text x) (longest (rows.map label) + 1) (line x)) :
    Aligned (rows.map line) := by
  have hread (x : α) (hx : x ∈ rows) : (entry (line x)).1 = label x := by
    rw [(h x hx).entry_eq]
  have hlengths : {n | ∃ l ∈ rows.map line, (entry l).1.length = n} = {n | ∃ x ∈ rows, (label x).length = n} := by
    ext n
    constructor
    · rintro ⟨l, hl, hn⟩
      obtain ⟨x, hx, rfl⟩ := List.mem_map.1 hl
      exact ⟨x, hx, hread x hx ▸ hn⟩
    · rintro ⟨x, hx, hn⟩
      exact ⟨line x, List.mem_map_of_mem hx, (hread x hx).symm ▸ hn⟩
  refine ⟨longest (rows.map label), fun hne => ?_, List.forall_mem_map.2 fun x hx => ⟨(h x hx).count_eq, (h x hx).idxOf_eq⟩⟩
  rw [hlengths]
  exact isGreatest_longest fun hnil => hne (by rw [hnil, List.map_nil])

end Columns

/-! ## The compact form -/

/-- The text has a line `name:value` for each counter and then one for each set of ids, which are read as they are. -/
structure CompactText (t : Tally) (text : String) : Prop where
  length : (Drawing.lines text).length = 14 + 4
  counters : (Drawing.lines text).take 14 =
    (t.counters.flatMap (·.rows)).map fun c => c.name ++ ":" ++ Digits.decimal c.value.toNat
  seen : (Drawing.lines text).drop 14 = t.seen.rows.map fun s => s.name ++ ":" ++ seenText s.ids
  entries : (Drawing.lines text).map entry =
    ((t.counters.flatMap (·.rows)).map fun c => (c.name, Digits.decimal c.value.toNat)) ++
      t.seen.rows.map fun s => (s.name, seenText s.ids)

theorem compactText_textOf : t.CompactText (Sink.textOf t.compactLines) := by
  have hcounter : ∀ c ∈ t.counters.flatMap (·.rows), IsRow c.name (Digits.decimal c.value.toNat) c.name.length
      (c.name ++ ":" ++ Digits.decimal c.value.toNat) := fun c hc =>
    isRow_compact (labels_counters t c hc).1 (inline_of_numeral (Digits.numeral_decimal _))
  have hseen : ∀ s ∈ t.seen.rows, IsRow s.name (seenText s.ids) s.name.length (s.name ++ ":" ++ seenText s.ids) :=
    fun s hs => isRow_compact (labels_seen t s hs).1 (inline_seenText s.ids)
  have hwithout : ∀ line ∈ t.compactLines, Without '\n' line :=
    List.forall_mem_append.2 ⟨List.forall_mem_map.2 fun c hc => (hcounter c hc).without_lineFeed,
      List.forall_mem_map.2 fun s hs => (hseen s hs).without_lineFeed⟩
  have hcounters : (t.counters.flatMap (·.rows)).length = 14 := rfl
  have hlen : t.seen.rows.length = 4 := rfl
  unfold compactLines at *
  constructor
  · rw [Drawing.lines_textOf hwithout, List.length_append, List.length_map, List.length_map, hcounters, hlen]
  · rw [Drawing.lines_textOf hwithout]
    exact List.take_left' (by rw [List.length_map, hcounters])
  · rw [Drawing.lines_textOf hwithout]
    exact List.drop_left' (by rw [List.length_map, hcounters])
  · rw [Drawing.lines_textOf hwithout, List.map_append, map_entry hcounter, map_entry hseen]

/-! ## The human form -/

/-- A title and a rule below it. -/
def heading (title : String) : List String := [title, String.ofList (List.replicate title.length '-')]

/-- The text is cut at its empty lines into the heading and the rows of each section in turn.  The rows are those of the
counters that are not zero, section by section, and those of all sets of ids, and their colons are below each other, in
the sections of the counters and in that of the sets. -/
def HumanText (t : Tally) (text : String) : Prop := ∃ (counterRows : List (List String)) (seenRows : List String),
  (Drawing.lines text).splitOn "" = ((t.counters.zip counterRows).flatMap fun p => [heading p.1.title, p.2]) ++
    [heading t.seen.title, seenRows] ∧
  counterRows.map (·.map entry) =
    t.counters.map (fun s => (s.rows.filter (·.value ≠ 0)).map fun c => (c.label, counterText c)) ∧
  seenRows.map entry = t.seen.rows.map (fun s => (s.label, seenText s.ids)) ∧
  Aligned counterRows.flatten ∧ Aligned seenRows

/-- Pairs with a separator between them and between their halves are parts with a separator between them. -/
theorem intercalate_pairs {α : Type} (separator : List α) (pairs : List (List α × List α)) :
    separator.intercalate (pairs.map fun p => p.1 ++ separator ++ p.2) =
      separator.intercalate (pairs.flatMap fun p => [p.1, p.2]) := by
  induction pairs with
  | nil => rfl
  | cons p rest ih =>
    cases rest with
    | nil => simp [List.intercalate_cons_cons]
    | cons p' rest =>
      rw [List.map_cons] at ih
      rw [List.map_cons, List.map_cons, List.intercalate_cons_cons, ih]
      simp [List.intercalate_cons_cons]

/-- The rows of the counters that are shown, section by section. -/
def counterRows : List (List String) :=
  t.counters.map fun s => (shown s).map (counterLine (longest ((t.counters.flatMap shown).map (·.label))))

/-- The rows of the sets of ids. -/
def seenRows : List String := t.seen.rows.map (seenLine (longest (t.seen.rows.map (·.label))))

/-- The headings and the rows of the sections in turn. -/
def parts : List (List String) :=
  ((t.counters.zip t.counterRows).flatMap fun p => [heading p.1.title, p.2]) ++ [heading t.seen.title, t.seenRows]

theorem humanLines_eq : t.humanLines = [""].intercalate t.parts := by
  have hpairs := intercalate_pairs [""] ((t.counters.zip t.counterRows).map (fun p => (heading p.1.title, p.2)) ++
    [(heading t.seen.title, t.seenRows)])
  unfold parts
  rw [List.flatMap_append, List.flatMap_map, List.flatMap_singleton] at hpairs
  rw [← hpairs]
  rfl

/-- The counters that are shown have their colons behind the longest label that is shown, whatever their section. -/
theorem isRow_shown : ∀ c ∈ t.counters.flatMap shown, IsRow c.label (counterText c)
    (longest ((t.counters.flatMap shown).map (·.label)) + 1)
    (counterLine (longest ((t.counters.flatMap shown).map (·.label))) c) := by
  intro c hc
  obtain ⟨s, hs, hshown⟩ := List.mem_flatMap.1 hc
  exact isRow_counterLine t (List.mem_flatMap.2 ⟨s, hs, (List.mem_filter.1 hshown).1⟩) (length_le_longest hc)

theorem isRow_seen : ∀ s ∈ t.seen.rows, IsRow s.label (seenText s.ids) (longest (t.seen.rows.map (·.label)) + 1)
    (seenLine (longest (t.seen.rows.map (·.label))) s) :=
  fun _ hs => isRow_seenLine t hs (length_le_longest hs)

/-- No line of a heading or of rows is empty, and none has a line feed in it. -/
theorem lines_of_parts : ∀ part ∈ t.parts, ∀ line ∈ part, line ≠ "" ∧ Without '\n' line := by
  have hcounters : ∀ s ∈ t.counters, ∀ line ∈ heading s.title, line ≠ "" ∧ Without '\n' line := by
    unfold counters
    simp only [List.forall_mem_cons]
    decide
  have hseen : ∀ line ∈ heading t.seen.title, line ≠ "" ∧ Without '\n' line := by
    unfold seen
    dsimp only
    decide
  have hcounterRows : ∀ rows ∈ t.counterRows, ∀ line ∈ rows, line ≠ "" ∧ Without '\n' line :=
    List.forall_mem_map.2 fun s hs => List.forall_mem_map.2 fun c hc =>
      have hrow := isRow_shown t c (List.mem_flatMap.2 ⟨s, hs, hc⟩)
      ⟨hrow.ne_empty, hrow.without_lineFeed⟩
  have hseenRows : ∀ line ∈ t.seenRows, line ≠ "" ∧ Without '\n' line :=
    List.forall_mem_map.2 fun s hs => ⟨(isRow_seen t s hs).ne_empty, (isRow_seen t s hs).without_lineFeed⟩
  refine List.forall_mem_append.2 ⟨fun part hpart => ?_, List.forall_mem_cons.2 ⟨hseen, List.forall_mem_singleton.2 hseenRows⟩⟩
  obtain ⟨⟨s, rows⟩, hp, hpart⟩ := List.mem_flatMap.1 hpart
  obtain ⟨hs, hrows⟩ := List.of_mem_zip hp
  rcases List.mem_cons.1 hpart with rfl | hpart
  · exact hcounters s hs
  · rw [List.mem_singleton.1 hpart]
    exact hcounterRows rows hrows

theorem humanText_textOf : t.HumanText (Sink.textOf t.humanLines) := by
  have hwithout : ∀ line ∈ t.humanLines, Without '\n' line := by
    intro line hline hmem
    rw [humanLines_eq] at hline
    refine Drawing.not_mem_intercalate ?_ (fun part hpart hin => (lines_of_parts t part hpart line hin).2 hmem) hline
    rintro rfl
    cases hmem
  have hempty : ∀ part ∈ t.parts, "" ∉ part := fun part hpart hmem => (lines_of_parts t part hpart "" hmem).1 rfl
  refine ⟨t.counterRows, t.seenRows, ?_, ?_, map_entry (isRow_seen t), ?_, aligned_of_isRow (isRow_seen t)⟩
  · rw [Drawing.lines_textOf hwithout, humanLines_eq]
    exact List.splitOn_intercalate "" hempty (List.append_ne_nil_of_right_ne_nil _ (List.cons_ne_nil _ _))
  · unfold counterRows
    rw [List.map_map]
    exact List.map_congr_left fun s hs => map_entry fun c hc => isRow_shown t c (List.mem_flatMap.2 ⟨s, hs, hc⟩)
  · have hflatten : t.counterRows.flatten = (t.counters.flatMap shown).map
        (counterLine (longest ((t.counters.flatMap shown).map (·.label)))) := by
      unfold counterRows
      rw [← List.flatMap_def]
      exact List.map_flatMap.symm
    rw [hflatten]
    exact aligned_of_isRow (isRow_shown t)

end Tally

/-! ## The ids of a set -/

/-- The text lists a set in ascending order: the least sixteen members, each with a blank in front of its four digits, and
dots if there are more. -/
def IdSet.ListedAs (ids : IdSet) (text : String) : Prop := ∃ (members : List UInt16) (digits : List String),
  members.Pairwise (· < ·) ∧ (∀ id, id ∈ members ↔ ids.contains id = true) ∧ members.length = ids.size ∧
  List.Forall₂ InDigits digits (members.take 16) ∧
  text = String.join (digits.map fun d => " " ++ d) ++ if 16 < ids.size then " ..." else ""

theorem IdSet.listedAs_seenText (ids : IdSet) : ids.ListedAs (Tally.seenText ids) := by
  refine ⟨ids.members, (ids.members.take 16).map hexId, ids.pairwise_members, ids.mem_members, ids.length_members,
    List.forall₂_map_left_iff.2 (List.forall₂_same.2 fun id _ => inDigits_hexId id), ?_⟩
  rw [← ids.length_members, List.map_map]
  rfl

/-- The fourteen counters and the four sets of ids in a report are those of the tally. -/
structure Tally.Reported (t : Tally) : Prop where
  counters : (t.counters.flatMap (·.rows)).map (fun c => (c.name, c.value.toNat)) = [
    ("ev_unknown", t.events.unknown.toNat),
    ("ev_mon_create", t.events.monitorCreate.toNat),
    ("ev_mon_state", t.events.monitorState.toNat),
    ("ev_mon_data", t.events.monitorData.toNat),
    ("ev_node_create", t.events.nodeCreate.toNat),
    ("ev_node_destroy", t.events.nodeDestroy.toNat),
    ("ev_node_position", t.events.nodePosition.toNat),
    ("sc_unknown", t.scopes.unknown.toNat),
    ("sc_simulation", t.scopes.simulation.toNat),
    ("sc_node", t.scopes.node.toNat),
    ("nb_seen_nodes", t.nodes.size),
    ("nb_seen_contexts", t.contexts.size),
    ("nb_seen_entities", t.entities.size),
    ("nb_seen_states", t.states.size)]
  seen : t.seen.rows.map (fun s => (s.name, s.ids)) = [
    ("seen_nodes", t.nodes),
    ("seen_contexts", t.contexts),
    ("seen_entities", t.entities),
    ("seen_states", t.states)]

/-- The size of a set fits in a counter. -/
theorem IdSet.toNat_ofNat_size (ids : IdSet) : (UInt64.ofNat ids.size).toNat = ids.size :=
  UInt64.toNat_ofNat_of_lt' (Nat.lt_of_le_of_lt ids.size_le (by decide))

theorem Tally.reported (t : Tally) : t.Reported where
  counters := by
    simp only [counters, List.flatMap_cons, List.flatMap_nil, List.append_nil, List.cons_append, List.nil_append,
      List.map_cons, List.map_nil, IdSet.toNat_ofNat_size]
  seen := rfl

/-- Both forms of a report say the same.  The compact form has a line `name:value` for each of the fourteen counters and
each of the four sets of ids of the tally; the human form has, section by section and in this order, the same values of
the counters that are not zero and the same ids, and the colons of either list stand below each other. -/
theorem reports_agree (t : Tally) : ∃ compact human : String,
    Sink.bytesOf (t.lines false) = compact.toUTF8.toList ∧ t.CompactText compact ∧
    Sink.bytesOf (t.lines true) = human.toUTF8.toList ∧ t.HumanText human ∧
    t.Reported ∧ ∀ s ∈ t.seen.rows, s.ids.ListedAs (Tally.seenText s.ids) :=
  ⟨_, _, Sink.bytesOf_eq_toUTF8 _, t.compactText_textOf, Sink.bytesOf_eq_toUTF8 _, t.humanText_textOf, t.reported,
    fun s _ => s.ids.listedAs_seenText⟩

/-- One state change: a section without rows has its heading all the same, and each list its own column. -/
example : (Tally.ofFrames [⟨{}, .monitorState ⟨5, 1, 2⟩⟩]).lines true =
    ["Number of events", "----------------", "", "Mon state : 1 times", "",
      "Number of scopes", "----------------", "", "",
      "Elements seen", "-------------", "", "Contexts  : 1 distinct contexts", "Entities  : 1 distinct entities",
      "States    : 1 distinct states", "",
      "Seen values", "-----------", "", "Nodes    :", "Contexts : 0005", "Entities : 0001", "States   : 0002"] := by
  decide +kernel

end NodeTrace
