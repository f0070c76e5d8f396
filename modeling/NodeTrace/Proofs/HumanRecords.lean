import NodeTrace.Proofs.Agreement
import NodeTrace.Proofs.Dumps

/-!
# Records for a human reader

A record in human form is a title, one line for each field, the lines of attached bytes, and an empty line.  The value of
a field may have line feeds in it, so the lines of the text are not the lines that were written one by one
(`Listing.textOf_humanLines`): below the line of a data field stand the lines of the dump, and an empty line if there are
none.  So the text cut at its empty lines is one block for each event, but for an empty block behind every event that
attaches no bytes (`human_records_parted`).
-/

namespace NodeTrace

/-! ## Lines of text -/

namespace Sink

theorem textOf_two (line line' : String) : textOf [line ++ "\n" ++ line'] = textOf [line, line'] := by
  apply String.toList_injective
  rw [toList_textOf, toList_textOf, List.flatMap_singleton, List.flatMap_cons, List.flatMap_singleton,
    String.toList_append, String.toList_append, List.append_assoc]
  rfl

/-- Lines with line feeds between them are written as if one by one, unless there are none. -/
theorem textOf_intercalate {lines : List String} (h : lines ≠ []) :
    textOf ["\n".intercalate lines] = textOf lines := by
  apply String.toList_injective
  rw [toList_textOf, toList_textOf, List.flatMap_singleton, String.toList_intercalate]
  induction lines with
  | nil => exact absurd rfl h
  | cons line rest ih =>
    cases rest with
    | nil => rw [List.map_singleton, List.intercalate_singleton, List.flatMap_singleton]
    | cons next rest =>
      rw [List.map_cons, List.map_cons, List.intercalate_cons_cons, List.flatMap_cons, ← ih (List.cons_ne_nil _ _),
        List.map_cons]
      simp

theorem textOf_flatMap_congr {α : Type} {xs : List α} {lines lines' : α → List String}
    (h : ∀ x ∈ xs, textOf (lines x) = textOf (lines' x)) : textOf (xs.flatMap lines) = textOf (xs.flatMap lines') := by
  induction xs with
  | nil => rfl
  | cons x rest ih =>
    rw [List.flatMap_cons, List.flatMap_cons, textOf_append, textOf_append, h x List.mem_cons_self,
      ih fun x hx => h x (List.mem_cons_of_mem _ hx)]

end Sink

/-- Names of which no label has a line feed. -/
structure Names.OneLine (names : Names) : Prop where
  context : ∀ context, Without '\n' (names.showContext context)
  entity : ∀ context entity, Without '\n' (names.showEntity context entity)
  state : ∀ context state, Without '\n' (names.showState context state)

theorem Names.oneLine_empty : ({} : Names).OneLine where
  context context := (numeral_hexId context).without (by decide)
  entity _ entity := (numeral_hexId entity).without (by decide)
  state _ state := (numeral_hexId state).without (by decide)

/-! ## Values and fields -/

/-- The value as far as it stands on the line of its field: all of it, but for attached bytes. -/
def Value.head (names : Names) : Value → String
  | .data _ => ""
  | v => v.human names

/-- The lines below the line of the field. -/
def Value.below : Value → List String
  | .data [] => [""]
  | .data bytes => HexDump.lines bytes
  | _ => []

/-- The line of a field, with its title filled up with blanks to a width. -/
def Field.headLine (names : Names) (width : Nat) (f : Field) : String :=
  "  " ++ String.ofList (f.title.toList.rightpad width ' ') ++ " : " ++ f.value.head names

section Lines

variable {names : Names}

/-- What is written of a field are its line and the lines below it. -/
theorem Field.textOf_human (width : Nat) (f : Field) :
    Sink.textOf [f.human names width] = Sink.textOf (f.headLine names width :: f.value.below) := by
  obtain ⟨name, title, value⟩ := f
  cases value with
  | data bytes =>
    have hline : human names width ⟨name, title, .data bytes⟩ =
        headLine names width ⟨name, title, .data bytes⟩ ++ "\n" ++ "\n".intercalate (HexDump.lines bytes) := by
      unfold human headLine Value.head Value.human
      simp only [String.append_assoc, String.append_empty]
    have hbelow : Sink.textOf ["\n".intercalate (HexDump.lines bytes)] = Sink.textOf (Value.below (.data bytes)) := by
      cases bytes with
      | nil => rw [HexDump.lines_nil, Value.below, String.intercalate_nil]
      | cons b rest => exact Sink.textOf_intercalate (HexDump.lines_ne_nil (List.cons_ne_nil b rest))
    rw [hline, Sink.textOf_two]
    exact (Sink.textOf_append [_] [_]).trans (hbelow ▸ (Sink.textOf_append [_] _).symm)
  | _ => rfl

theorem Value.without_head (h : names.OneLine) (v : Value) : Without '\n' (v.head names) := by
  cases v with
  | scopeKinds kinds =>
    have hall : ∀ unknown simulation node : Bool,
        Without '\n' ((scopeKinds ⟨unknown, simulation, node⟩).head {}) := by decide
    exact hall kinds.unknown kinds.simulation kinds.node
  | eventKind kind =>
    have hall : ∀ kind ∈ EventKind.all, Without '\n' kind.title := by decide
    exact hall kind (EventKind.mem_all kind)
  | context c => exact h.context c
  | entity c e => exact h.entity c e
  | state c s => exact h.state c s
  | coordinate x => exact (x.numeral_fixed decimals).without (by decide)
  | millis x => exact ((x.numeral_fixed decimals).without (by decide)).append (by decide)
  | micros n => exact ((Digits.numeral_decimal n.toNat).without (by decide)).append (by decide)
  | cycles n => exact ((Digits.numeral_decimal n.toNat).without (by decide)).append (by decide)
  | data bytes => exact (by decide : Without '\n' "")
  | id n => exact (Digits.numeral_decimal n.toNat).without (by decide)

theorem Field.without_headLine (h : names.OneLine) {f : Field} (htitle : Without '\n' f.title) (width : Nat) :
    Without '\n' (f.headLine names width) := by
  have hpadded : Without '\n' (String.ofList (f.title.toList.rightpad width ' ')) := htitle.rightpad (by decide) width
  exact (((by decide : Without '\n' "  ").append hpadded).append (by decide)).append (f.value.without_head h)

end Lines

/-! ## Blocks -/

/-- The fields that a listing shows of a frame. -/
def Frame.fields (f : Frame) : List Field := Field.ofScope f.scope ++ Field.ofEvent f.event

namespace Event

/-- The event attaches no bytes. -/
def bare : Event → Bool
  | .monitorData a => a.payload.isEmpty
  | _ => false

/-- The lines of the attached bytes. -/
def dump : Event → List String
  | .monitorData a => HexDump.lines a.payload
  | _ => []

/-- What comes between the block of the event and the next: an empty block if the event is bare. -/
def gap (e : Event) : List (List String) := if e.bare then [[]] else []

end Event

namespace Listing

/-- The lines of the record of an event, without empty ones. -/
def block (names : Names) (number : Nat) (f : Frame) : List String :=
  ("Event: " ++ Digits.decimal number) ::
    (f.fields.map (·.headLine names (titleWidth f.fields)) ++ f.event.dump)

/-- The lines of the text of records, block by block. -/
def blocks (names : Names) (number : Nat) (f : Frame) : List (List String) :=
  block names number f :: f.event.gap

variable {names : Names}

theorem below_ofScope (s : Scope) : ∀ f ∈ Field.ofScope s, f.value.below = [] := by
  unfold Field.ofScope
  cases s.simulation? <;> cases s.node? <;> simp [Value.below]

/-- Below the fields of an event stands what it attaches, or an empty line if that is nothing. -/
theorem flatMap_fields (width : Nat) (f : Frame) :
    f.fields.flatMap (fun g => g.headLine names width :: g.value.below) =
      f.fields.map (·.headLine names width) ++ f.event.dump ++ f.event.gap.map fun _ => "" := by
  have hscope : (Field.ofScope f.scope).flatMap (fun g => g.headLine names width :: g.value.below) =
      (Field.ofScope f.scope).map (·.headLine names width) := by
    rw [List.map_eq_flatMap]
    exact List.flatMap_congr fun g hg => by rw [below_ofScope f.scope g hg]
  have hevent : (Field.ofEvent f.event).flatMap (fun g => g.headLine names width :: g.value.below) =
      (Field.ofEvent f.event).map (·.headLine names width) ++ f.event.dump ++ f.event.gap.map fun _ => "" := by
    obtain ⟨scope, event⟩ := f
    cases event with
    | monitorData a =>
      obtain ⟨context, entity, payload⟩ := a
      cases payload with
      | nil => simp [Field.ofEvent, Field.ofKind, Field.ofPayload, Field.ofAttachment, Value.below, Event.dump, Event.gap,
          Event.bare, HexDump.lines_nil]
      | cons b rest => simp [Field.ofEvent, Field.ofKind, Field.ofPayload, Field.ofAttachment, Value.below, Event.dump,
          Event.gap, Event.bare]
    | _ => rfl
  unfold Frame.fields
  rw [List.flatMap_append, List.map_append, hscope, hevent, List.append_assoc, List.append_assoc, List.append_assoc]

/-- The text of a record is that of its blocks, each with an empty line behind it. -/
theorem textOf_humanLines (number : Nat) (f : Frame) : Sink.textOf (humanLines names number f) =
    Sink.textOf ((blocks names number f).flatMap fun lines => lines ++ [""]) := by
  -- the empty line of a bare event stands in front of the last one, and is taken for one behind it
  have hgap : (f.event.gap.map fun _ => "") ++ [""] = [""] ++ f.event.gap.flatMap fun lines => lines ++ [""] := by
    unfold Event.gap
    cases f.event.bare <;> rfl
  have hfields : Sink.textOf (f.fields.map (·.human names (titleWidth f.fields))) =
      Sink.textOf (f.fields.map (·.headLine names (titleWidth f.fields)) ++ f.event.dump ++ f.event.gap.map fun _ => "") := by
    rw [List.map_eq_flatMap, ← flatMap_fields]
    exact Sink.textOf_flatMap_congr fun g _ => g.textOf_human (titleWidth f.fields)
  have hlines : humanLines names number f =
      ["Event: " ++ Digits.decimal number] ++ f.fields.map (·.human names (titleWidth f.fields)) ++ [""] := rfl
  rw [hlines, Sink.textOf_append, Sink.textOf_append, hfields, ← Sink.textOf_append, ← Sink.textOf_append]
  simp only [List.append_assoc]
  rw [hgap]
  unfold blocks block
  rw [List.flatMap_cons]
  simp only [List.append_assoc, List.cons_append, List.nil_append]

/-! ## Blocks and lines -/

theorem without_title (f : Frame) : ∀ g ∈ f.fields, Without '\n' g.title := by
  have hscope : ∀ g ∈ Field.ofScope f.scope, Without '\n' g.title := by
    unfold Field.ofScope
    cases f.scope.simulation? <;> cases f.scope.node? <;> simp only [List.nil_append, List.append_nil,
      List.cons_append, List.forall_mem_cons] <;> decide
  have hevent : ∀ g ∈ Field.ofEvent f.event, Without '\n' g.title := by
    unfold Field.ofEvent Field.ofKind Field.ofPayload
    cases f.event <;> simp only [Field.ofCalibration, Field.ofStateChange, Field.ofAttachment, Field.ofPosition,
      List.forall_mem_cons] <;> decide
  exact List.forall_mem_append.2 ⟨hscope, hevent⟩

/-- No line of a block is empty, and none has a line feed in it. -/
theorem lines_of_block (h : names.OneLine) (number : Nat) (f : Frame) :
    ∀ line ∈ block names number f, line ≠ "" ∧ Without '\n' line := by
  have hnumber : Without '\n' ("Event: " ++ Digits.decimal number) :=
    Without.append (by decide) ((Digits.numeral_decimal number).without (by decide))
  have hfield : ∀ g ∈ f.fields, g.headLine names (titleWidth f.fields) ≠ "" ∧
      Without '\n' (g.headLine names (titleWidth f.fields)) := fun g hg =>
    ⟨by simp [Field.headLine, String.append_eq_empty_iff], Field.without_headLine h (without_title f g hg) _⟩
  have hdump : ∀ line ∈ f.event.dump, line ≠ "" ∧ Without '\n' line := by
    intro line hline
    unfold Event.dump at hline
    cases hevent : f.event with
    | monitorData a =>
      rw [hevent] at hline
      obtain ⟨offset, bytes, rfl⟩ := HexDump.mem_linesFrom hline
      exact ⟨HexDump.line_ne_empty offset bytes, HexDump.without_line offset bytes⟩
    | _ =>
      rw [hevent] at hline
      cases hline
  exact List.forall_mem_cons.2 ⟨⟨by simp [String.append_eq_empty_iff], hnumber⟩,
    List.forall_mem_append.2 ⟨List.forall_mem_map.2 hfield, hdump⟩⟩

/-! ## The text of a listing -/

/-- The blocks of frames, with the empty ones behind bare events. -/
def allBlocks (names : Names) (frames : List Frame) : List (List String) :=
  frames.zipIdx.flatMap fun p => blocks names p.2 p.1

/-- The blocks of frames, one for each. -/
def ownBlocks (names : Names) (frames : List Frame) : List (List String) :=
  frames.zipIdx.map fun p => block names p.2 p.1

variable {frames : List Frame}

theorem length_ownBlocks (names : Names) (frames : List Frame) : (ownBlocks names frames).length = frames.length := by
  unfold ownBlocks
  rw [List.length_map, List.length_zipIdx]

theorem allBlocks_eq_zip (names : Names) (frames : List Frame) : allBlocks names frames =
    ((ownBlocks names frames).zip frames).flatMap fun p => p.1 :: p.2.event.gap := by
  have hzip (k : Nat) : (frames.zipIdx k).flatMap (fun p => blocks names p.2 p.1) =
      (((frames.zipIdx k).map fun p => block names p.2 p.1).zip frames).flatMap fun p => p.1 :: p.2.event.gap := by
    induction frames generalizing k with
    | nil => rfl
    | cons f rest ih =>
      rw [List.zipIdx_cons, List.flatMap_cons, ih, List.map_cons, List.zip_cons_cons, List.flatMap_cons]
      rfl
  exact hzip 0

theorem length_allBlocks (names : Names) (frames : List Frame) :
    (allBlocks names frames).length = frames.length + frames.countP (·.event.bare) := by
  have hlen (k : Nat) : ((frames.zipIdx k).flatMap fun p => blocks names p.2 p.1).length =
      frames.length + frames.countP (·.event.bare) := by
    induction frames generalizing k with
    | nil => rfl
    | cons f rest ih =>
      have hgap : f.event.gap.length = if f.event.bare then 1 else 0 := by
        unfold Event.gap
        cases f.event.bare <;> rfl
      rw [List.zipIdx_cons, List.flatMap_cons, List.length_append, ih, List.length_cons, List.countP_cons]
      unfold blocks
      rw [List.length_cons, hgap]
      omega
  exact hlen 0

/-- There is one block for each event exactly if no event is bare. -/
theorem allBlocks_eq_ownBlocks_iff :
    allBlocks names frames = ownBlocks names frames ↔ ∀ f ∈ frames, f.event.bare = false := by
  constructor
  · intro heq
    have hlen := congrArg List.length heq
    rw [length_allBlocks, length_ownBlocks] at hlen
    have hnone : frames.countP (·.event.bare) = 0 := by omega
    exact fun f hf => Bool.eq_false_of_not_eq_true (List.countP_eq_zero.1 hnone f hf)
  · intro hbare
    unfold allBlocks ownBlocks
    rw [List.map_eq_flatMap]
    refine List.flatMap_congr fun p hp => ?_
    have hgap : p.1.event.gap = [] := if_neg (by rw [hbare p.1 (List.fst_mem_of_mem_zipIdx hp)]; nofun)
    unfold blocks
    rw [hgap]

theorem lines_of_allBlocks (h : names.OneLine) (frames : List Frame) :
    ∀ lines ∈ allBlocks names frames, ∀ line ∈ lines, line ≠ "" ∧ Without '\n' line := by
  intro lines hlines
  obtain ⟨p, -, hlines⟩ := List.mem_flatMap.1 hlines
  rcases List.mem_cons.1 hlines with rfl | hgap
  · exact lines_of_block h p.2 p.1
  · unfold Event.gap at hgap
    split at hgap
    · rw [List.mem_singleton.1 hgap]
      exact List.forall_mem_nil _
    · cases hgap

theorem empty_not_mem_allBlocks (h : names.OneLine) (frames : List Frame) :
    ∀ lines ∈ allBlocks names frames, "" ∉ lines :=
  fun lines hlines hmem => (lines_of_allBlocks h frames lines hlines "" hmem).1 rfl

/-- The lines of the text of a listing are the blocks, each with an empty line behind it. -/
theorem lines_textOf_human (h : names.OneLine) (frames : List Frame) :
    Drawing.lines (Sink.textOf (records names true frames)) =
      (allBlocks names frames).flatMap fun lines => lines ++ [""] := by
  have htext : Sink.textOf (records names true frames) =
      Sink.textOf ((allBlocks names frames).flatMap fun lines => lines ++ [""]) := by
    unfold records allBlocks
    rw [List.flatMap_assoc]
    exact Sink.textOf_flatMap_congr fun p _ => textOf_humanLines p.2 p.1
  have hwithout : ∀ line ∈ (allBlocks names frames).flatMap fun lines => lines ++ [""], Without '\n' line := by
    intro line hline
    obtain ⟨lines, hlines, hline⟩ := List.mem_flatMap.1 hline
    rcases List.mem_append.1 hline with hline | hline
    · exact (lines_of_allBlocks h frames lines hlines line hline).2
    · rw [List.mem_singleton.1 hline]
      decide
  rw [htext, Drawing.lines_textOf hwithout]

theorem splitOn_lines (h : names.OneLine) (frames : List Frame) :
    (Drawing.lines (Sink.textOf (records names true frames))).splitOn "" = allBlocks names frames ++ [[]] := by
  rw [lines_textOf_human h]
  exact Drawing.splitOn_flatMap_concat (empty_not_mem_allBlocks h frames)

theorem count_lines (h : names.OneLine) (frames : List Frame) :
    (Drawing.lines (Sink.textOf (records names true frames))).count "" =
      frames.length + frames.countP (·.event.bare) := by
  have hcount {parts : List (List String)} (hparts : ∀ part ∈ parts, "" ∉ part) :
      (parts.flatMap fun part => part ++ [""]).count "" = parts.length := by
    induction parts with
    | nil => rfl
    | cons part rest ih =>
      rw [List.flatMap_cons, List.count_append, List.count_append, List.count_singleton_self,
        List.count_eq_zero_of_not_mem (hparts part List.mem_cons_self),
        ih fun part hpart => hparts part (List.mem_cons_of_mem _ hpart), List.length_cons]
      omega
  rw [lines_textOf_human h, hcount (empty_not_mem_allBlocks h frames), length_allBlocks]

end Listing

/-! ## Columns -/

/-- The line shows the field: its title behind an indent and filled up with blanks, and from a column on its value behind
a colon. -/
structure Field.ShownAt (names : Names) (column : Nat) (f : Field) (line : String) : Prop where
  title : line.toList.take column =
    ("  " ++ f.title).toList ++ List.replicate (column - ("  " ++ f.title).toList.length) ' '
  value : line.toList.drop column = (" : " ++ f.value.head names).toList

/-- The lines of the record of an event as they are shown: none is empty, the first has the number, all fields are shown at
the column behind the longest title, and the lines of attached bytes stand directly below the field that they are of. -/
structure Listing.Block (names : Names) (number : Nat) (f : Frame) (lines : List String) : Prop where
  empty_not_mem : "" ∉ lines
  fields : ∃ width fieldLines, IsGreatest {n | ∃ g ∈ f.fields, g.title.length = n} width ∧
    lines = ("Event: " ++ Digits.decimal number) :: (fieldLines ++ f.event.dump) ∧
    List.Forall₂ (Field.ShownAt names (2 + width)) f.fields fieldLines
  data : ∀ a, f.event = .monitorData a → ∃ above line column, lines = above ++ line :: HexDump.lines a.payload ∧
    Field.ShownAt names column ⟨"DATA", "Data", .data a.payload⟩ line

theorem Field.shownAt_headLine {names : Names} {width : Nat} {f : Field} (h : f.title.length ≤ width) :
    f.ShownAt names (2 + width) (f.headLine names width) := by
  obtain ⟨label, hlabel⟩ : ∃ label, label =
      ("  " ++ f.title).toList ++ List.replicate (2 + width - ("  " ++ f.title).toList.length) ' ' := ⟨_, rfl⟩
  have hindent : ("  " ++ f.title).toList.length = 2 + f.title.length := by
    rw [String.toList_append, List.length_append, String.length_toList]
    rfl
  have hlen : label.length = 2 + width := by
    rw [hlabel, List.length_append, List.length_replicate, hindent]
    omega
  have hline : (f.headLine names width).toList = label ++ (" : " ++ f.value.head names).toList := by
    have hblanks : 2 + width - (2 + f.title.length) = width - f.title.toList.length := by
      rw [String.length_toList]
      omega
    rw [hlabel, hindent, hblanks]
    unfold headLine List.rightpad
    simp [String.toList_append]
  constructor
  · rw [hline, List.take_left' hlen, hlabel]
  · rw [hline, List.drop_left' hlen]

theorem Listing.isGreatest_titleWidth (f : Frame) :
    IsGreatest {n | ∃ g ∈ f.fields, g.title.length = n} (titleWidth f.fields) :=
  isGreatest_foldl_max (fun g : Field => g.title.length) (List.append_ne_nil_of_right_ne_nil _ (List.cons_ne_nil _ _))

theorem Listing.shownAt_of_mem_fields {names : Names} {f : Frame} {g : Field} (hg : g ∈ f.fields) :
    g.ShownAt names (2 + titleWidth f.fields) (g.headLine names (titleWidth f.fields)) :=
  Field.shownAt_headLine ((isGreatest_titleWidth f).2 ⟨g, hg, rfl⟩)

theorem Listing.block_spec {names : Names} (h : names.OneLine) (number : Nat) (f : Frame) :
    Block names number f (block names number f) where
  empty_not_mem hmem := (lines_of_block h number f "" hmem).1 rfl
  fields := ⟨titleWidth f.fields, _, isGreatest_titleWidth f, rfl,
    List.forall₂_map_right_iff.2 (List.forall₂_same.2 fun _ hg => shownAt_of_mem_fields hg)⟩
  data a ha := by
    obtain ⟨fields, hfields⟩ : ∃ fields, f.fields = fields ++ [⟨"DATA", "Data", .data a.payload⟩] := by
      unfold Frame.fields
      rw [ha]
      exact ⟨Field.ofScope f.scope ++ [⟨"EVENT_TYPE", "Event type", .eventKind .monitorData⟩,
        ⟨"CTX", "Context", .context a.context⟩, ⟨"ENT", "Entity", .entity a.context a.entity⟩],
        by rw [List.append_assoc]; rfl⟩
    refine ⟨("Event: " ++ Digits.decimal number) :: fields.map (·.headLine names (titleWidth f.fields)), _, _, ?_,
      shownAt_of_mem_fields (hfields ▸ List.mem_append_right fields List.mem_cons_self)⟩
    have hmap (width : Nat) : f.fields.map (·.headLine names width) = fields.map (·.headLine names width) ++
        [Field.headLine names width ⟨"DATA", "Data", .data a.payload⟩] := by
      rw [hfields, List.map_append]
      rfl
    unfold block
    rw [ha, hmap, List.append_assoc]
    rfl

/-- A listing for a human reader, with labels that have no line feeds and a sink that takes everything, is cut at its empty
lines into one block for each event, which shows the event, but for an empty block behind every event that attaches data
of no bytes.  So it has one empty line for each event and one more for each of these, and its blocks are those of the
events exactly if there are none of these. -/
theorem human_records_parted {sink : Sink} (hsink : sink.Unfailing) {names : Names} (hnames : names.OneLine)
    (frames : List Frame) : ∃ (l : Listing) (text : String) (blocks : List (List String)),
    (Listing.handler names true).handleAll .endOfStream 0 frames { sink } = (.ok frames.length, l) ∧
    l.sink.written = sink.written ++ text.toUTF8.toList ∧
    (Drawing.lines text).count "" = frames.length + frames.countP (·.event.bare) ∧
    blocks.length = frames.length ∧
    (Drawing.lines text).splitOn "" = ((blocks.zip frames).flatMap fun p => p.1 :: p.2.event.gap) ++ [[]] ∧
    ((Drawing.lines text).splitOn "" = blocks ++ [[]] ↔ ∀ f ∈ frames, f.event.bare = false) ∧
    ∀ i f lines, frames[i]? = some f → blocks[i]? = some lines → Listing.Block names i f lines := by
  refine ⟨Listing.after names true sink frames, Sink.textOf (Listing.records names true frames),
    Listing.ownBlocks names frames, Listing.handleAll_eq_after hsink names true frames,
    Listing.written_after names true sink frames, Listing.count_lines hnames frames,
    Listing.length_ownBlocks names frames, ?_, ?_, fun i f lines hf hlines => ?_⟩
  · rw [Listing.splitOn_lines hnames, Listing.allBlocks_eq_zip]
  · rw [Listing.splitOn_lines hnames, List.append_left_inj, Listing.allBlocks_eq_ownBlocks_iff]
  · unfold Listing.ownBlocks at hlines
    rw [List.getElem?_map, List.getElem?_zipIdx, hf, Nat.zero_add] at hlines
    cases hlines
    exact Listing.block_spec hnames i f

/-- Data of no bytes. -/
def bareFrame : Frame := ⟨{}, .monitorData ⟨6, 0, []⟩⟩

/-- A state change in front of data of one byte. -/
def stateAndDataFrames : List Frame := [⟨{}, .monitorState ⟨1, 2, 3⟩⟩, ⟨{}, .monitorData ⟨6, 0, [65]⟩⟩]

theorem human_records_parted_stateAndData : ({} : Sink).Unfailing ∧ ({} : Names).OneLine ∧
    ∃ (text : String) (blocks : List (List String)), blocks.length = 2 ∧ (Drawing.lines text).count "" = 2 ∧
      (Drawing.lines text).splitOn "" = blocks ++ [[]] ∧
      ((Listing.handler {} true).handleAll .endOfStream 0 stateAndDataFrames { sink := {} }).2.sink.written =
        ({} : Sink).written ++ text.toUTF8.toList := by
  have hsink : ({} : Sink).Unfailing := ⟨rfl, rfl⟩
  have hnames : ({} : Names).OneLine := Names.oneLine_empty
  obtain ⟨l, text, blocks, hl, htext, hcount, hlen, -, hsplit, -⟩ := human_records_parted hsink hnames stateAndDataFrames
  exact ⟨hsink, hnames, text, blocks, hlen, hcount, hsplit.2 (by decide), by rw [hl, htext]⟩

/-- Behind the line of data of no bytes there are two empty lines. -/
theorem human_record_not_parted : ({} : Names).OneLine ∧ ∃ (l : Listing) (text : String),
    (Listing.handler {} true).handleAll .endOfStream 0 [bareFrame] { sink := {} } = (.ok 1, l) ∧
    l.sink.written = ({} : Sink).written ++ text.toUTF8.toList ∧
    text = "Event: 0\n  Scopes used : none\n  Event type  : Data event\n  Context     : 0006\n  Entity      : 0000\n" ++
      "  Data        : \n\n\n" ∧
    (Drawing.lines text).count "" = 2 := by
  have hsink : ({} : Sink).Unfailing := ⟨rfl, rfl⟩
  exact ⟨Names.oneLine_empty, _, _, Listing.handleAll_eq_after hsink {} true [bareFrame],
    Listing.written_after {} true {} [bareFrame], by decide +kernel, by decide +kernel⟩

end NodeTrace
