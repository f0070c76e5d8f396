import NodeTrace.Proofs.Shape
import NodeTrace.Proofs.Output
import NodeTrace.Proofs.Telling

/-!
# Graphs are read back

The text of graphs is cut into lines, and each line at its double quotes, so what is drawn can be read back from it as
long as no name has a double quote or a line feed (`Drawing.read?_text`).  If the names tell ids apart, what is drawn
tells which contexts, states and transitions there are and in which order, and labels with counts tell these
(`graphs_lossless`).
-/

namespace NodeTrace

namespace Drawing

/-- The lines of a text. -/
def lines (text : String) : List String := (text.toList.splitOn '\n').dropLast.map String.ofList

/-- Parts that each end with a separator are found again by cutting at it; behind the last there is nothing. -/
theorem splitOn_flatMap_concat {α : Type} [BEq α] [LawfulBEq α] {separator : α} {parts : List (List α)}
    (h : ∀ part ∈ parts, separator ∉ part) :
    (parts.flatMap fun part => part ++ [separator]).splitOn separator = parts ++ [[]] := by
  induction parts with
  | nil => exact List.splitOn_nil separator
  | cons part rest ih =>
    rw [List.flatMap_cons, List.append_assoc, List.singleton_append,
      List.splitOn_append_cons_self_of_not_mem (h part List.mem_cons_self),
      ih fun part hpart => h part (List.mem_cons_of_mem _ hpart), List.cons_append]

theorem lines_textOf {lines : List String} (h : ∀ line ∈ lines, '\n' ∉ line.toList) :
    Drawing.lines (Sink.textOf lines) = lines := by
  have hparts : (Sink.textOf lines).toList = (lines.map String.toList).flatMap fun part => part ++ ['\n'] := by
    rw [Sink.toList_textOf, List.flatMap_map]
  unfold Drawing.lines
  rw [hparts, splitOn_flatMap_concat (List.forall_mem_map.2 h), List.dropLast_concat, List.map_map]
  simp

theorem not_mem_intercalate {α : Type} {x separator : α} (hne : x ≠ separator) {parts : List (List α)}
    (h : ∀ part ∈ parts, x ∉ part) : x ∉ [separator].intercalate parts := by
  induction parts with
  | nil => exact List.not_mem_nil
  | cons part rest ih =>
    have hpart := h part List.mem_cons_self
    cases rest with
    | nil => rwa [List.intercalate_singleton]
    | cons next rest =>
      have hrest := ih fun p hp => h p (List.mem_cons_of_mem _ hp)
      rw [List.intercalate_cons_cons, List.append_assoc, List.mem_append, List.mem_append, List.mem_singleton]
      exact fun hmem => hmem.elim hpart fun hmem => hmem.elim hne hrest

/-- Text is cut into the parts that it was made of if none of them has the character between them. -/
theorem map_splitOn_intercalate {c : Char} {parts : List String} (hne : parts ≠ [])
    (h : ∀ part ∈ parts, c ∉ part.toList) :
    (([c].intercalate (parts.map String.toList)).splitOn c).map String.ofList = parts := by
  have hne' : parts.map String.toList ≠ [] := fun hnil => hne (List.map_eq_nil_iff.1 hnil)
  rw [List.splitOn_intercalate c (List.forall_mem_map.2 h) hne', List.map_map]
  simp

/-! ## Statements -/

/-- A line of a graph. -/
inductive Statement where
  | graph (name : String)
  | state (name : String)
  | edge (source destination : String) (label : Option String)
  | close
  deriving DecidableEq, Repr

namespace Statement

/-- The text of a line. -/
def text : Statement → String
  | graph name => "digraph " ++ inQuotes name ++ " \x7b"
  | state name => inQuotes name ++ ";"
  | edge source destination label => inQuotes source ++ " -> " ++ inQuotes destination ++
    match label with
    | none => ""
    | some label => " [ label=" ++ inQuotes label ++ " ]"
  | close => "\x7d"

/-- What stands between the double quotes of a line, in front of the first and behind the last. -/
def pieces : Statement → List String
  | graph name => ["digraph ", name, " \x7b"]
  | state name => ["", name, ";"]
  | edge source destination none => ["", source, " -> ", destination, ""]
  | edge source destination (some label) => ["", source, " -> ", destination, " [ label=", label, " ]"]
  | close => ["\x7d"]

/-- The line with these pieces. -/
def ofPieces? : List String → Option Statement
  | ["digraph ", name, " \x7b"] => some (graph name)
  | ["", name, ";"] => some (state name)
  | ["", source, " -> ", destination, ""] => some (edge source destination none)
  | ["", source, " -> ", destination, " [ label=", label, " ]"] => some (edge source destination (some label))
  | ["\x7d"] => some close
  | _ => none

/-- Read a line. -/
def read? (line : String) : Option Statement := ofPieces? ((line.toList.splitOn '"').map String.ofList)

/-- The names and the label in a line, in their order. -/
def names : Statement → List String
  | graph name => [name]
  | state name => [name]
  | edge source destination label => source :: destination :: label.toList
  | close => []

theorem ofPieces?_pieces (st : Statement) : ofPieces? st.pieces = some st := by
  cases st with
  | edge source destination label => cases label <;> rfl
  | _ => rfl

theorem toList_text (st : Statement) : st.text.toList = ['"'].intercalate (st.pieces.map String.toList) := by
  cases st with
  | edge source destination label => cases label <;> simp [text, pieces, inQuotes, String.toList_append]
  | _ => simp [text, pieces, inQuotes, String.toList_append]

/-- A line without double quotes and line feeds in its names has them only in the text of the format. -/
theorem clean_pieces {st : Statement} (h : ∀ name ∈ st.names, Clean name) : ∀ piece ∈ st.pieces, Clean piece := by
  have hformat : ∀ piece ∈ ["digraph ", " \x7b", "", ";", " -> ", " [ label=", " ]", "\x7d"], Clean piece := by
    unfold Clean
    decide
  have hpiece : ∀ piece ∈ st.pieces, piece ∈ st.names ∨
      piece ∈ ["digraph ", " \x7b", "", ";", " -> ", " [ label=", " ]", "\x7d"] := by
    cases st with
    | edge source destination label => cases label <;> simp [pieces, names]
    | _ => simp [pieces, names]
  exact fun piece hp => (hpiece piece hp).elim (h piece) (hformat piece)

theorem read?_text {st : Statement} (h : ∀ name ∈ st.names, Clean name) : read? st.text = some st := by
  have hne : st.pieces ≠ [] := by
    cases st with
    | edge source destination label => cases label <;> exact List.cons_ne_nil _ _
    | _ => exact List.cons_ne_nil _ _
  unfold read?
  rw [toList_text, map_splitOn_intercalate hne fun piece hp => (clean_pieces h piece hp).1, ofPieces?_pieces]

theorem not_mem_text {st : Statement} (h : ∀ name ∈ st.names, Clean name) : '\n' ∉ st.text.toList := by
  rw [toList_text]
  exact not_mem_intercalate (by decide) (List.forall_mem_map.2 fun piece hp => (clean_pieces h piece hp).2)

end Statement

/-! ## Graphs -/

/-- A transition as it is drawn. -/
structure Edge where
  destination : String
  label : Option String
  deriving DecidableEq, Repr

/-- A state and the transitions that leave it, as they are drawn. -/
structure State where
  name : String
  edges : List Edge
  deriving DecidableEq, Repr

/-- A graph as it is drawn. -/
structure Graph where
  name : String
  states : List State
  deriving DecidableEq, Repr

/-- The lines of a state and of the transitions that leave it. -/
def State.statements (s : State) : List Statement :=
  .state s.name :: s.edges.map fun e => .edge s.name e.destination e.label

/-- The lines of a graph. -/
def Graph.statements (g : Graph) : List Statement :=
  .graph g.name :: g.states.flatMap State.statements ++ [.close]

/-- The text of graphs. -/
def text (graphs : List Graph) : String := Sink.textOf ((graphs.flatMap Graph.statements).map Statement.text)

/-- What was read of graphs from their last line up to some line. -/
structure Reading where
  /-- Transitions of a state whose line is still to come. -/
  edges : List Edge := []
  /-- States of a graph whose first line is still to come. -/
  states : List State := []
  graphs : List Graph := []

/-- Read the line in front of those that were read. -/
def Reading.add : Statement → Reading → Reading
  | .graph name, r => { graphs := ⟨name, r.states⟩ :: r.graphs }
  | .state name, r => { r with edges := [], states := ⟨name, r.edges⟩ :: r.states }
  | .edge _ destination label, r => { r with edges := ⟨destination, label⟩ :: r.edges }
  | .close, r => r

/-- Read graphs. -/
def read? (text : String) : Option (List Graph) :=
  ((lines text).mapM Statement.read?).map fun statements => (statements.foldr Reading.add {}).graphs

section Read

variable (states : List State) (graphs : List Graph)

theorem foldr_edges (name : String) (edges : List Edge) :
    (edges.map fun e => Statement.edge name e.destination e.label).foldr Reading.add ⟨[], states, graphs⟩ =
      ⟨edges, states, graphs⟩ := by
  induction edges with
  | nil => rfl
  | cons e edges ih =>
    rw [List.map_cons, List.foldr_cons, ih]
    rfl

theorem foldr_state (s : State) :
    s.statements.foldr Reading.add ⟨[], states, graphs⟩ = ⟨[], s :: states, graphs⟩ := by
  unfold State.statements
  rw [List.foldr_cons, foldr_edges]
  rfl

theorem foldr_states (behind : List State) :
    (states.flatMap State.statements).foldr Reading.add ⟨[], behind, graphs⟩ = ⟨[], states ++ behind, graphs⟩ := by
  induction states with
  | nil => rfl
  | cons s states ih =>
    rw [List.flatMap_cons, List.foldr_append, ih, foldr_state]
    rfl

theorem foldr_graph (g : Graph) : g.statements.foldr Reading.add ⟨[], [], graphs⟩ = ⟨[], [], g :: graphs⟩ := by
  unfold Graph.statements
  rw [List.cons_append, List.foldr_cons, List.foldr_append]
  show Reading.add (.graph g.name) ((g.states.flatMap State.statements).foldr Reading.add ⟨[], [], graphs⟩) = _
  rw [foldr_states, List.append_nil]
  rfl

theorem foldr_graphs : (graphs.flatMap Graph.statements).foldr Reading.add {} = ⟨[], [], graphs⟩ := by
  induction graphs with
  | nil => rfl
  | cons g graphs ih => rw [List.flatMap_cons, List.foldr_append, ih, foldr_graph]

end Read

theorem mapM_read?_text {statements : List Statement} (h : ∀ st ∈ statements, ∀ name ∈ st.names, Clean name) :
    (statements.map Statement.text).mapM Statement.read? = some statements := by
  induction statements with
  | nil => rfl
  | cons st rest ih =>
    rw [List.map_cons, List.mapM_cons, Statement.read?_text (h st List.mem_cons_self),
      ih fun st hst => h st (List.mem_cons_of_mem _ hst)]
    rfl

/-- Graphs are read back from their text. -/
theorem read?_text {graphs : List Graph}
    (h : ∀ st ∈ graphs.flatMap Graph.statements, ∀ name ∈ st.names, Clean name) :
    read? (text graphs) = some graphs := by
  have hlines : Drawing.lines (text graphs) = (graphs.flatMap Graph.statements).map Statement.text :=
    lines_textOf (List.forall_mem_map.2 fun st hst => Statement.not_mem_text (h st hst))
  unfold read?
  rw [hlines, mapM_read?_text h]
  show some ((graphs.flatMap Graph.statements).foldr Reading.add {}).graphs = _
  rw [foldr_graphs]

end Drawing

/-! ## Graphs of automata -/

/-- A state of a context as it is drawn. -/
def StateNode.drawing (names : Names) (metric : Option Metric) (context : UInt16) (n : StateNode) : Drawing.State where
  name := names.showState context n.state
  edges := n.transitions.map fun t =>
    ⟨names.showState context t.destination, metric.map (·.label t.statistics)⟩

/-- The graph of an automaton as it is drawn. -/
def Automaton.drawing (names : Names) (metric : Option Metric) (a : Automaton) : Drawing.Graph where
  name := names.showContext a.context
  states := a.states.map (StateNode.drawing names metric a.context)

/-- The graphs of all automata as they are drawn. -/
def Automata.drawings (names : Names) (metric : Option Metric) (m : Automata) : List Drawing.Graph :=
  m.automata.map (Automaton.drawing names metric)

section Drawings

variable (names : Names) (metric : Option Metric)

theorem Automaton.stateLines_eq (a : Automaton) (n : StateNode) : a.stateLines names metric n =
    (n.drawing names metric a.context).statements.map Drawing.Statement.text := by
  have hedge (t : Transition) : a.transitionLine names metric n t = (Drawing.Statement.edge
      (names.showState a.context n.state) (names.showState a.context t.destination)
        (metric.map (·.label t.statistics))).text := by
    cases metric <;> rfl
  unfold Automaton.stateLines Drawing.State.statements StateNode.drawing
  rw [List.map_cons, List.map_map, List.map_map]
  exact congrArg (_ :: ·) (List.map_congr_left fun t _ => hedge t)

theorem Automaton.lines_eq (a : Automaton) :
    a.lines names metric = (a.drawing names metric).statements.map Drawing.Statement.text := by
  have hstates : a.stateLines names metric = _ := funext (a.stateLines_eq names metric)
  unfold Automaton.lines Drawing.Graph.statements Automaton.drawing
  rw [hstates, List.map_append, List.map_cons, List.map_flatMap, List.flatMap_map]
  rfl

/-- What is written of automata is the text of their graphs. -/
theorem Automata.textOf_lines (m : Automata) :
    Sink.textOf (m.lines names metric) = Drawing.text (m.drawings names metric) := by
  unfold Automata.lines Drawing.text drawings
  rw [List.map_flatMap, List.flatMap_map]
  simp only [Automaton.lines_eq]

end Drawings

section Contents

variable {names : Names} {metric : Option Metric} {P : String → Prop}

/-- The text in the lines of a state is from names of states and from labels. -/
theorem StateNode.forall_names {context : UInt16} {n : StateNode} (hstate : P (names.showState context n.state))
    (hdestination : ∀ t ∈ n.transitions, P (names.showState context t.destination))
    (hlabel : ∀ metric s, P (Metric.label metric s)) :
    ∀ st ∈ (n.drawing names metric context).statements, ∀ name ∈ st.names, P name := by
  unfold Drawing.State.statements StateNode.drawing
  refine List.forall_mem_cons.2 ⟨List.forall_mem_singleton.2 hstate, fun st hst => ?_⟩
  obtain ⟨_, he, rfl⟩ := List.mem_map.1 hst
  obtain ⟨t, ht, rfl⟩ := List.mem_map.1 he
  refine List.forall_mem_cons.2 ⟨hstate, List.forall_mem_cons.2 ⟨hdestination t ht, fun name hname => ?_⟩⟩
  cases metric with
  | none => cases hname
  | some metric =>
    rw [List.mem_singleton.1 hname]
    exact hlabel metric t.statistics

/-- The text in the lines of graphs is from names of contexts and of states and from labels. -/
theorem Automata.forall_names {m : Automata} (hcontext : ∀ a ∈ m.automata, P (names.showContext a.context))
    (hstate : ∀ a ∈ m.automata, ∀ n ∈ a.states, P (names.showState a.context n.state) ∧
      ∀ t ∈ n.transitions, P (names.showState a.context t.destination))
    (hlabel : ∀ metric s, P (Metric.label metric s)) :
    ∀ st ∈ (m.drawings names metric).flatMap Drawing.Graph.statements, ∀ name ∈ st.names, P name := by
  intro st hst
  obtain ⟨_, hmem, hst⟩ := List.mem_flatMap.1 hst
  obtain ⟨a, ha, rfl⟩ := List.mem_map.1 hmem
  unfold Drawing.Graph.statements Automaton.drawing at hst
  rcases List.mem_append.1 hst with hst | hst
  · rcases List.mem_cons.1 hst with rfl | hst
    · exact List.forall_mem_singleton.2 (hcontext a ha)
    · obtain ⟨_, hmem, hst⟩ := List.mem_flatMap.1 hst
      obtain ⟨n, hn, rfl⟩ := List.mem_map.1 hmem
      obtain ⟨hname, hdestination⟩ := hstate a ha n hn
      exact StateNode.forall_names hname hdestination hlabel st hst
  · rw [List.mem_singleton.1 hst]
    exact nofun

end Contents

/-! ## What graphs tell -/

/-- The context, its states, and the destinations of the transitions that leave each, in their order. -/
def Automaton.outline (a : Automaton) : UInt16 × List (UInt16 × List UInt16) :=
  (a.context, a.states.map fun n => (n.state, n.transitions.map (·.destination)))

/-- How often each transition was taken. -/
def Automaton.counts (a : Automaton) : List (List UInt64) :=
  a.states.map fun n => n.transitions.map (·.statistics.count)

/-- The names of the context, of its states, and of the destinations of the transitions that leave each. -/
def Drawing.Graph.outline (g : Graph) : String × List (String × List String) :=
  (g.name, g.states.map fun s => (s.name, s.edges.map (·.destination)))

/-- The labels of the transitions. -/
def Drawing.Graph.labels (g : Graph) : List (List (Option String)) := g.states.map fun s => s.edges.map (·.label)

/-- A context, its states, and destinations by their names. -/
def Names.showOutline (names : Names) (o : UInt16 × List (UInt16 × List UInt16)) :
    String × List (String × List String) :=
  (names.showContext o.1, o.2.map fun s => (names.showState o.1 s.1, s.2.map (names.showState o.1)))

section Outlines

variable {names : Names} {m m' : Automata}

theorem Names.Tells.showOutline_injective (h : names.Tells) : Function.Injective names.showOutline := by
  rintro ⟨context, states⟩ ⟨context', states'⟩ heq
  obtain ⟨hcontext, hstates⟩ := Prod.mk.inj heq
  obtain rfl : context = context' := h.contexts hcontext
  have hstate : Function.Injective fun s : UInt16 × List UInt16 =>
      (names.showState context s.1, s.2.map (names.showState context)) :=
    (h.states context).prodMap (List.map_injective_iff.2 (h.states context))
  exact congrArg (Prod.mk context) (List.map_injective_iff.2 hstate hstates)

theorem Automaton.outline_drawing (metric : Option Metric) (a : Automaton) :
    (a.drawing names metric).outline = names.showOutline a.outline := by
  unfold drawing StateNode.drawing Drawing.Graph.outline outline Names.showOutline
  simp only [List.map_map, Function.comp_def]

theorem Automaton.labels_drawing (a : Automaton) : (a.drawing names (some .count)).labels =
    a.counts.map (List.map fun n => some (Metric.count.label { count := n })) := by
  unfold drawing StateNode.drawing Drawing.Graph.labels counts
  simp only [List.map_map, Function.comp_def, Option.map_some]
  rfl

/-- What is drawn tells which contexts, states and transitions there are, whatever the labels. -/
theorem Automata.outline_eq_of_drawings (h : names.Tells) {metric : Option Metric}
    (heq : m.drawings names metric = m'.drawings names metric) :
    m.automata.map Automaton.outline = m'.automata.map Automaton.outline := by
  have houtlines := congrArg (List.map Drawing.Graph.outline) heq
  unfold drawings at houtlines
  simp only [List.map_map, Function.comp_def, Automaton.outline_drawing] at houtlines
  rw [← Function.comp_def names.showOutline, ← List.map_map, ← List.map_map] at houtlines
  exact List.map_injective_iff.2 h.showOutline_injective houtlines

/-- Labels with counts tell the counts. -/
theorem Automata.counts_eq_of_drawings (heq : m.drawings names (some .count) = m'.drawings names (some .count)) :
    m.automata.map Automaton.counts = m'.automata.map Automaton.counts := by
  have hlabel : Function.Injective fun n : UInt64 => some (Metric.count.label { count := n }) :=
    fun n n' hn => Metric.label_count_injective (Option.some.inj hn)
  have hlabels := congrArg (List.map Drawing.Graph.labels) heq
  unfold drawings at hlabels
  simp only [List.map_map, Function.comp_def, Automaton.labels_drawing] at hlabels
  rw [← Function.comp_def (List.map (List.map _)) Automaton.counts, ← List.map_map, ← List.map_map] at hlabels
  exact List.map_injective_iff.2 (List.map_injective_iff.2 (List.map_injective_iff.2 hlabel)) hlabels

end Outlines

/-- What is written of automata is read back as what is drawn of them. -/
theorem Names.Tells.read?_drawings {names : Names} (h : names.Tells) (metric : Option Metric) (m : Automata) :
    Drawing.read? (Sink.textOf (m.lines names metric)) = some (m.drawings names metric) := by
  rw [Automata.textOf_lines]
  exact Drawing.read?_text (Automata.forall_names (fun a _ => h.clean_context a.context)
    (fun a _ n _ => ⟨h.clean_state a.context n.state, fun t _ => h.clean_state a.context t.destination⟩)
    fun metric s => (metric.plain_label s).clean)

/-- Different drawings are written differently. -/
theorem Names.Tells.drawings_eq_of_bytesOf {names : Names} (h : names.Tells) {metric : Option Metric} {m m' : Automata}
    (heq : Sink.bytesOf (m.lines names metric) = Sink.bytesOf (m'.lines names metric)) :
    m.drawings names metric = m'.drawings names metric := by
  have hread := h.read?_drawings metric m
  rw [Sink.bytesOf_eq_toUTF8, Sink.bytesOf_eq_toUTF8] at heq
  rw [Sink.eq_of_toUTF8 heq, h.read?_drawings] at hread
  exact (Option.some.inj hread).symm

/-- The built-in names tell ids apart, resolved or not.  With names that do, what is written of automata can be read
back; if the same is written of two observations, with any metric or none, these have the same contexts, states and
destinations in the same order, and with counts the same counts; and each of them is written once, in the place where it
first came. -/
theorem graphs_lossless :
    (∃ names, BuiltIn.register {} = .ok () names ∧ ∀ enabled, (names.enable enabled).Tells) ∧
    ∀ names : Names, names.Tells → ∀ (frames frames' : List Frame) (m m' : Automata),
      Automata.ofFrames frames = .ok m → Automata.ofFrames frames' = .ok m' →
      (∀ metric, Sink.bytesOf (m.lines names metric) = Sink.bytesOf (m'.lines names metric) →
        m.automata.map Automaton.outline = m'.automata.map Automaton.outline) ∧
      (Sink.bytesOf (m.lines names (some .count)) = Sink.bytesOf (m'.lines names (some .count)) →
        m.automata.map Automaton.counts = m'.automata.map Automaton.counts) ∧
      (∀ metric, ∃ text : String, Sink.bytesOf (m.lines names metric) = text.toUTF8.toList ∧
        Drawing.read? text = some (m.drawings names metric)) ∧
      m.automata.map Automaton.outline = (contexts frames).eraseDups.map fun context =>
        (context, ((visits context frames).map (·.state)).eraseDups.map fun state =>
          (state, (successors state (visits context frames)).eraseDups)) := by
  refine ⟨⟨BuiltIn.names, BuiltIn.register_empty, BuiltIn.tells⟩, fun names h frames frames' m m' hm hm' =>
    ⟨fun metric heq => Automata.outline_eq_of_drawings h (h.drawings_eq_of_bytesOf heq),
      fun heq => Automata.counts_eq_of_drawings (h.drawings_eq_of_bytesOf heq),
      fun metric => ⟨_, Sink.bytesOf_eq_toUTF8 _, h.read?_drawings metric m⟩, ?_⟩⟩
  obtain rfl := Except.ok.inj ((Automata.ofFrames_eq frames).symm.trans hm)
  unfold Automata.observed Automaton.outline Automaton.ofVisits StateNode.ofVisits
  simp only [List.map_map, Function.comp_def, List.map_id']

/-- The radio is switched on, off and on again. -/
def radioSwitched : List Frame :=
  [⟨{}, .monitorState ⟨5, 0, 0⟩⟩, ⟨{}, .monitorState ⟨5, 0, 1⟩⟩, ⟨{}, .monitorState ⟨5, 0, 0⟩⟩]

/-- The same at some time, with an event of another kind in between. -/
def radioSwitchedLater : List Frame :=
  [⟨({} : Scope).withSimulation 7, .monitorState ⟨5, 1, 0⟩⟩, ⟨({} : Scope).withSimulation 9, .monitorState ⟨5, 1, 1⟩⟩,
    ⟨{}, .nodeCreate⟩, ⟨({} : Scope).withSimulation 12, .monitorState ⟨5, 1, 0⟩⟩]

theorem graphs_lossless_radio : (BuiltIn.names.enable true).Tells ∧ ∃ m m' : Automata,
    Automata.ofFrames radioSwitched = .ok m ∧ Automata.ofFrames radioSwitchedLater = .ok m' ∧
    Sink.bytesOf (m.lines (BuiltIn.names.enable true) (some .count)) =
      Sink.bytesOf (m'.lines (BuiltIn.names.enable true) (some .count)) ∧
    m.automata.map Automaton.outline = m'.automata.map Automaton.outline ∧
    m.automata.map Automaton.counts = m'.automata.map Automaton.counts ∧
    m.automata.map Automaton.outline = [(5, [(0, [1]), (1, [0])])] ∧
    ∃ text : String, Sink.bytesOf (m.lines (BuiltIn.names.enable true) (some .count)) = text.toUTF8.toList ∧
      Drawing.read? text = some [⟨"RADIO", [⟨"ON", [⟨"OFF", some "count=1"⟩]⟩, ⟨"OFF", [⟨"ON", some "count=1"⟩]⟩]⟩] := by
  have hm := Automata.ofFrames_eq radioSwitched
  have hm' := Automata.ofFrames_eq radioSwitchedLater
  have hlines (names : Names) : (Automata.observed radioSwitched).lines names (some .count) =
      (Automata.observed radioSwitchedLater).lines names (some .count) := rfl
  have hsame := congrArg Sink.bytesOf (hlines (BuiltIn.names.enable true))
  have hdrawings (names : Names) : (Automata.observed radioSwitched).drawings names (some .count) =
      [⟨names.showContext BuiltIn.radio,
        [⟨names.showState BuiltIn.radio 0, [⟨names.showState BuiltIn.radio 1, some "count=1"⟩]⟩,
          ⟨names.showState BuiltIn.radio 1, [⟨names.showState BuiltIn.radio 0, some "count=1"⟩]⟩]⟩] := rfl
  obtain ⟨houtline, hcounts, hread, honce⟩ :=
    graphs_lossless.2 _ (BuiltIn.tells true) radioSwitched radioSwitchedLater _ _ hm hm'
  obtain ⟨text, htext, hback⟩ := hread (some .count)
  obtain ⟨hcontext, hon, hoff⟩ := BuiltIn.show_radio
  rw [hdrawings, BuiltIn.enable_names, hcontext, hon, hoff] at hback
  exact ⟨BuiltIn.tells true, _, _, hm, hm', hsame, houtline _ hsame, hcounts hsame, honce, text, htext, hback⟩

end NodeTrace
