import NodeTrace.Proofs.GraphText

/-!
# Names between double quotes

In DOT a string runs from a double quote to the next one that has no backslash in front of it, and a double quote inside
is written with a backslash.  Graphs have names between double quotes as they are.  So the strings of a graph are its
names, escaped, if no name has a double quote or ends in a backslash, and only then (`strings_eq_escaped_iff`).
-/

namespace NodeTrace

namespace Dot

/-- The strings in a text; `open?` has what was read of a string that has begun, the last character first. -/
def scan (open? : Option (List Char)) : List Char → List (List Char)
  | [] => []
  | c :: rest =>
    match open? with
    | none => if c = '"' then scan (some []) rest else scan none rest
    | some read =>
      if c = '"' ∧ read.head? ≠ some '\\' then read.reverse :: scan none rest else scan (some (c :: read)) rest

/-- The strings in a text. -/
def strings (text : String) : List String := (scan none text.toList).map String.ofList

/-- A character inside a string. -/
def escapedChar (c : Char) : List Char := if c = '"' then ['\\', '"'] else [c]

/-- A name as it is written inside a string. -/
def escaped (name : String) : String := String.ofList (name.toList.flatMap escapedChar)

/-- The name is a string as it is. -/
def Whole (name : List Char) : Prop := '"' ∉ name ∧ name.getLast? ≠ some '\\'

instance (name : List Char) : Decidable (Whole name) := inferInstanceAs (Decidable (_ ∧ _))

/-! ## One string -/

section Scan

variable {part : List Char} {read rest : List Char}

/-- What has no double quote begins no string. -/
theorem scan_none_append (h : '"' ∉ part) (rest : List Char) : scan none (part ++ rest) = scan none rest := by
  induction part with
  | nil => rfl
  | cons c part ih =>
    have hc : c ≠ '"' := fun hc => h (hc ▸ List.mem_cons_self)
    rw [List.cons_append, scan, if_neg hc]
    exact ih fun hmem => h (List.mem_cons_of_mem _ hmem)

/-- What has no double quote ends no string. -/
theorem scan_some_append (h : '"' ∉ part) (read rest : List Char) :
    scan (some read) (part ++ rest) = scan (some (part.reverse ++ read)) rest := by
  induction part generalizing read with
  | nil => rfl
  | cons c part ih =>
    have hc : c ≠ '"' := fun hc => h (hc ▸ List.mem_cons_self)
    rw [List.cons_append, scan, if_neg fun hand => hc hand.1, ih fun hmem => h (List.mem_cons_of_mem _ hmem),
      List.reverse_cons, List.append_assoc, List.singleton_append]

/-- A double quote ends a string unless a backslash is in front of it. -/
theorem scan_quote (h : part.getLast? ≠ some '\\') (rest : List Char) :
    scan (some part.reverse) ('"' :: rest) = part :: scan none rest := by
  rw [scan, List.head?_reverse, if_pos ⟨rfl, h⟩, List.reverse_reverse]

/-- A double quote with a backslash in front of it belongs to the string. -/
theorem scan_escaped_quote (h : part.getLast? = some '\\') (rest : List Char) :
    scan (some part.reverse) ('"' :: rest) = scan (some (part ++ ['"']).reverse) rest := by
  rw [scan, List.head?_reverse, if_neg fun hand => hand.2 h, List.reverse_concat]

/-- A string that has begun keeps what was read of it. -/
theorem prefix_of_scan_some {string : List Char} {strings : List (List Char)}
    (h : scan (some read) rest = string :: strings) : read.reverse <+: string := by
  induction rest generalizing read with
  | nil => cases h
  | cons c rest ih =>
    rw [scan] at h
    split at h
    · obtain ⟨rfl, -⟩ := List.cons.inj h
      exact List.prefix_refl _
    · have hprefix := ih h
      rw [List.reverse_cons] at hprefix
      exact (List.prefix_append _ _).trans hprefix

theorem flatMap_escapedChar (h : '"' ∉ part) : part.flatMap escapedChar = part := by
  induction part with
  | nil => rfl
  | cons c part ih =>
    have hne : c ≠ '"' := fun hc => h (hc ▸ List.mem_cons_self)
    have hc : escapedChar c = [c] := if_neg hne
    rw [List.flatMap_cons, hc, ih fun hmem => h (List.mem_cons_of_mem _ hmem), List.singleton_append]

/-- A name is read as its escaped form exactly if it is a string as it is. -/
theorem scan_name_iff {name : List Char} {behind : List (List Char)} :
    scan none ('"' :: name ++ '"' :: rest) = name.flatMap escapedChar :: behind ↔
      Whole name ∧ scan none rest = behind := by
  have hbegin : scan none ('"' :: name ++ '"' :: rest) = scan (some []) (name ++ '"' :: rest) := rfl
  rw [hbegin]
  by_cases hquote : '"' ∈ name
  · -- the first double quote of the name is where the string ends, or has no backslash of its own
    refine ⟨fun hscan => ?_, fun h => absurd hquote h.1.1⟩
    exfalso
    obtain ⟨before, after, rfl, hbefore⟩ := List.eq_append_cons_of_mem hquote
    have hescaped : (before ++ '"' :: after).flatMap escapedChar =
        before ++ '\\' :: '"' :: after.flatMap escapedChar := by
      rw [List.flatMap_append, flatMap_escapedChar hbefore]
      rfl
    rw [List.append_assoc, scan_some_append hbefore, List.append_nil, List.cons_append, hescaped] at hscan
    by_cases hlast : before.getLast? = some '\\'
    · rw [scan_escaped_quote hlast] at hscan
      have hprefix := prefix_of_scan_some hscan
      rw [List.reverse_reverse, List.prefix_append_right_inj, List.cons_prefix_cons] at hprefix
      exact absurd hprefix.1 (by decide)
    · rw [scan_quote hlast] at hscan
      have hlen := congrArg List.length (List.cons.inj hscan).1
      rw [List.length_append, List.length_cons] at hlen
      omega
  · rw [scan_some_append hquote, List.append_nil, flatMap_escapedChar hquote]
    by_cases hlast : name.getLast? = some '\\'
    · -- the double quote behind the name does not end the string
      refine ⟨fun hscan => ?_, fun h => absurd hlast h.1.2⟩
      rw [scan_escaped_quote hlast] at hscan
      have hlen := (prefix_of_scan_some hscan).length_le
      rw [List.reverse_reverse, List.length_append, List.length_singleton] at hlen
      omega
    · rw [scan_quote hlast, List.cons.injEq]
      exact and_congr_left' ⟨fun _ => ⟨hquote, hlast⟩, fun _ => rfl⟩

end Scan

/-! ## Graphs -/

/-- A part of a text. -/
inductive Token where
  /-- Text of the format. -/
  | format (text : List Char)
  /-- A name between double quotes. -/
  | name (text : List Char)

namespace Token

def chars : Token → List Char
  | format text => text
  | name text => '"' :: text ++ ['"']

/-- The name, if the part is one. -/
def name? : Token → Option (List Char)
  | format _ => none
  | name text => some text

end Token

/-- The strings of a text are its names, escaped, exactly if all of them are strings as they are. -/
theorem scan_tokens_iff {tokens : List Token} (h : ∀ text, .format text ∈ tokens → '"' ∉ text) :
    scan none (tokens.flatMap Token.chars) = (tokens.filterMap Token.name?).map (·.flatMap escapedChar) ↔
      ∀ text ∈ tokens.filterMap Token.name?, Whole text := by
  induction tokens with
  | nil => exact ⟨fun _ => nofun, fun _ => rfl⟩
  | cons token rest ih =>
    have hrest := ih fun text hmem => h text (List.mem_cons_of_mem _ hmem)
    cases token with
    | format text =>
      have hskip : scan none ((Token.format text :: rest).flatMap Token.chars) = scan none (rest.flatMap Token.chars) :=
        scan_none_append (h text List.mem_cons_self) _
      rw [hskip]
      exact hrest
    | name text =>
      have hchars : (Token.name text :: rest).flatMap Token.chars =
          '"' :: text ++ '"' :: rest.flatMap Token.chars := by
        rw [List.flatMap_cons, Token.chars, List.append_assoc, List.singleton_append]
      have hnames : (Token.name text :: rest).filterMap Token.name? = text :: rest.filterMap Token.name? := rfl
      rw [hchars, hnames, List.map_cons, scan_name_iff, hrest, List.forall_mem_cons]

end Dot

namespace Drawing.Statement

/-- The parts of a line and of its line feed. -/
def tokens : Statement → List Dot.Token
  | graph name => [.format "digraph ".toList, .name name.toList, .format " \x7b\n".toList]
  | state name => [.name name.toList, .format ";\n".toList]
  | edge source destination none =>
    [.name source.toList, .format " -> ".toList, .name destination.toList, .format "\n".toList]
  | edge source destination (some label) => [.name source.toList, .format " -> ".toList, .name destination.toList,
      .format " [ label=".toList, .name label.toList, .format " ]\n".toList]
  | close => [.format "\x7d\n".toList]

theorem flatMap_tokens (st : Statement) : st.tokens.flatMap Dot.Token.chars = st.text.toList ++ ['\n'] := by
  cases st with
  | edge source destination label =>
    cases label <;> simp [tokens, Dot.Token.chars, text, inQuotes, String.toList_append]
  | _ => simp [tokens, Dot.Token.chars, text, inQuotes, String.toList_append]

theorem filterMap_tokens (st : Statement) : st.tokens.filterMap Dot.Token.name? = st.names.map String.toList := by
  cases st with
  | edge source destination label => cases label <;> rfl
  | _ => rfl

theorem not_mem_format {st : Statement} {text : List Char} (h : .format text ∈ st.tokens) : '"' ∉ text := by
  unfold tokens at h
  split at h
  all_goals simp only [List.mem_cons, List.not_mem_nil, Dot.Token.format.injEq, reduceCtorEq, false_or, or_false] at h
  · rcases h with rfl | rfl <;> decide
  · subst h
    decide
  · rcases h with rfl | rfl <;> decide
  · rcases h with rfl | rfl | rfl <;> decide
  · subst h
    decide

end Drawing.Statement

/-- The text of lines is that of their parts. -/
theorem Sink.toList_textOf_statements (statements : List Drawing.Statement) :
    (textOf (statements.map Drawing.Statement.text)).toList =
      (statements.flatMap Drawing.Statement.tokens).flatMap Dot.Token.chars := by
  rw [toList_textOf, List.flatMap_map, List.flatMap_assoc]
  exact List.flatMap_congr fun st _ => st.flatMap_tokens.symm

/-- The strings of lines are their names, escaped, exactly if all of them are strings as they are. -/
theorem Dot.strings_statements_iff (statements : List Drawing.Statement) :
    strings (Sink.textOf (statements.map Drawing.Statement.text)) =
        (statements.flatMap Drawing.Statement.names).map escaped ↔
      ∀ st ∈ statements, ∀ name ∈ st.names, Whole name.toList := by
  have hnames : (statements.flatMap Drawing.Statement.tokens).filterMap Token.name? =
      (statements.flatMap Drawing.Statement.names).map String.toList := by
    rw [List.filterMap_flatMap, List.map_flatMap]
    exact List.flatMap_congr fun st _ => st.filterMap_tokens
  have hformat : ∀ text, .format text ∈ statements.flatMap Drawing.Statement.tokens → '"' ∉ text := by
    intro text hmem
    obtain ⟨st, -, hst⟩ := List.mem_flatMap.1 hmem
    exact Drawing.Statement.not_mem_format hst
  have hescaped : (statements.flatMap Drawing.Statement.names).map escaped =
      (((statements.flatMap Drawing.Statement.names).map String.toList).map (·.flatMap escapedChar)).map
        String.ofList := by
    rw [List.map_map, List.map_map]
    rfl
  have hinj : Function.Injective (List.map String.ofList) :=
    List.map_injective_iff.2 fun _ _ h => String.ofList_injective h
  unfold strings
  rw [hescaped, Sink.toList_textOf_statements, hinj.eq_iff, ← hnames, scan_tokens_iff hformat, hnames,
    List.forall_mem_map]
  simp only [List.mem_flatMap]
  exact ⟨fun h st hst name hname => h name ⟨st, hst, hname⟩, fun h name ⟨st, hst, hname⟩ => h st hst name hname⟩

theorem Plain.whole {text : String} (h : Plain text) : Dot.Whole text.toList :=
  ⟨fun hmem => (h _ hmem).1 rfl, fun hlast => (h _ (List.mem_of_getLast? hlast)).2.1 rfl⟩

/-- What stands between double quotes in the graph of an automaton: its name, and the names of its states; and behind
each state for each transition the names of its ends and its label, if any. -/
def Automaton.labels (names : Names) (metric : Option Metric) (a : Automaton) : List String :=
  names.showContext a.context :: a.states.flatMap fun n => names.showState a.context n.state ::
    n.transitions.flatMap fun t => names.showState a.context n.state :: names.showState a.context t.destination ::
      (metric.map (·.label t.statistics)).toList

theorem Automata.flatMap_labels (names : Names) (metric : Option Metric) (m : Automata) :
    ((m.drawings names metric).flatMap Drawing.Graph.statements).flatMap Drawing.Statement.names =
      m.automata.flatMap (Automaton.labels names metric) := by
  have hstate (context : UInt16) (n : StateNode) :
      (n.drawing names metric context).statements.flatMap Drawing.Statement.names = names.showState context n.state ::
        n.transitions.flatMap fun t => names.showState context n.state :: names.showState context t.destination ::
          (metric.map (·.label t.statistics)).toList := by
    unfold Drawing.State.statements StateNode.drawing
    rw [List.flatMap_cons, List.flatMap_map, List.flatMap_map]
    rfl
  have hgraph (a : Automaton) :
      (a.drawing names metric).statements.flatMap Drawing.Statement.names = a.labels names metric := by
    unfold Drawing.Graph.statements Automaton.drawing Automaton.labels
    rw [List.cons_append, List.flatMap_cons, List.flatMap_append, List.flatMap_assoc, List.flatMap_map]
    simp only [hstate]
    show [names.showContext a.context] ++ (_ ++ []) = _
    rw [List.append_nil, List.singleton_append]
  unfold drawings
  rw [List.flatMap_assoc, List.flatMap_map]
  simp only [hgraph]

/-- The strings of the graphs that are written of an observation, with any metric or none, are the labels in them,
escaped, if no name that is shown has a double quote or ends in a backslash; otherwise they are not. -/
theorem strings_eq_escaped_iff (names : Names) (metric : Option Metric) {frames : List Frame} {m : Automata}
    (hm : Automata.ofFrames frames = .ok m) {text : String}
    (htext : Sink.bytesOf (m.lines names metric) = text.toUTF8.toList) :
    Dot.strings text = (m.automata.flatMap (Automaton.labels names metric)).map Dot.escaped ↔
      ∀ a ∈ m.automata, Dot.Whole (names.showContext a.context).toList ∧
        ∀ n ∈ a.states, Dot.Whole (names.showState a.context n.state).toList := by
  obtain rfl := Except.ok.inj ((Automata.ofFrames_eq frames).symm.trans hm)
  rw [Sink.bytesOf_eq_toUTF8] at htext
  rw [← Sink.eq_of_toUTF8 htext, Automata.textOf_lines, ← Automata.flatMap_labels]
  refine (Dot.strings_statements_iff _).trans ⟨fun h a ha => ?_, fun h => ?_⟩
  · have hstatement : ∀ st ∈ (a.drawing names metric).statements, ∀ name ∈ st.names, Dot.Whole name.toList :=
      fun st hst => h st (List.mem_flatMap.2 ⟨_, List.mem_map_of_mem ha, hst⟩)
    refine ⟨hstatement (.graph (names.showContext a.context)) List.mem_cons_self _ List.mem_cons_self, fun n hn => ?_⟩
    refine hstatement (.state (names.showState a.context n.state)) ?_ _ List.mem_cons_self
    unfold Drawing.Graph.statements
    exact List.mem_append_left _ (List.mem_cons_of_mem _
      (List.mem_flatMap.2 ⟨_, List.mem_map_of_mem hn, List.mem_cons_self⟩))
  · refine Automata.forall_names (P := fun name => Dot.Whole name.toList) (fun a ha => (h a ha).1)
      (fun a ha n hn => ⟨(h a ha).2 n hn, fun t ht => ?_⟩) fun metric s => (metric.plain_label s).whole
    obtain ⟨context, hc, rfl⟩ := List.mem_map.1 ha
    have hshape := Automaton.shape_ofVisits context (visits_ne_nil (List.mem_eraseDups.1 hc))
    obtain ⟨n', hn', hdestination⟩ := List.mem_map.1 (hshape.closed n hn t ht)
    rw [← hdestination]
    exact (h _ ha).2 n' hn'

theorem strings_eq_escaped_radio : ∃ (m : Automata) (text : String), Automata.ofFrames radioSwitched = .ok m ∧
    Sink.bytesOf (m.lines BuiltIn.names (some .count)) = text.toUTF8.toList ∧
    Dot.strings text = ["RADIO", "ON", "ON", "OFF", "count=1", "OFF", "OFF", "ON", "count=1"] := by
  have hm := Automata.ofFrames_eq radioSwitched
  have htext := Sink.bytesOf_eq_toUTF8 ((Automata.observed radioSwitched).lines BuiltIn.names (some .count))
  have hlabels (names : Names) : (Automata.observed radioSwitched).automata.flatMap (Automaton.labels names (some .count)) =
      [names.showContext BuiltIn.radio, names.showState BuiltIn.radio 0, names.showState BuiltIn.radio 0,
        names.showState BuiltIn.radio 1, "count=1", names.showState BuiltIn.radio 1, names.showState BuiltIn.radio 1,
        names.showState BuiltIn.radio 0, "count=1"] := rfl
  obtain ⟨hcontext, hon, hoff⟩ := BuiltIn.show_radio
  have hstrings := (strings_eq_escaped_iff BuiltIn.names (some .count) hm htext).2 (by decide +kernel)
  rw [hlabels, hcontext, hon, hoff] at hstrings
  exact ⟨_, _, hm, htext, hstrings⟩

/-- A context that is named with a double quote in its name. -/
def quoteNamed : Names := ({} : Names).nameContext 1 "a\"b"

/-- A double quote in a name closes its string, and what is behind the name begins another. -/
theorem strings_ne_escaped : ∃ (m : Automata) (text : String),
    Automata.ofFrames [⟨{}, .monitorState ⟨1, 0, 2⟩⟩] = .ok m ∧
    Sink.bytesOf (m.lines quoteNamed none) = text.toUTF8.toList ∧
    text = "digraph \"a\"b\" \x7b\n\"0002\";\n\x7d\n" ∧
    Dot.strings text = ["a", " \x7b\n"] ∧
    (m.automata.flatMap (Automaton.labels quoteNamed none)).map Dot.escaped = ["a\\\"b", "0002"] ∧
    Dot.strings text ≠ (m.automata.flatMap (Automaton.labels quoteNamed none)).map Dot.escaped :=
  ⟨_, _, Automata.ofFrames_eq _, Sink.bytesOf_eq_toUTF8 _, rfl, rfl, rfl, by decide⟩

end NodeTrace
