import NodeTrace.Digits
import NodeTrace.Names.Registry
import NodeTrace.Tally

/-!
# Reports of a tally

A report has two lists: the counters, in three sections, and the ids that were seen.  In compact form every
counter and every set of ids is a line `name:value`.  In human form each section has a title with a rule below
it, counters that are zero are left out, and the labels of a list are padded to the longest that it shows.
-/

namespace NodeTrace

namespace Tally

/-- A number in a report. -/
structure Counter where
  name : String
  label : String
  unit : String
  value : UInt64
  deriving DecidableEq, Repr

/-- A set of ids in a report. -/
structure SeenRow where
  name : String
  label : String
  ids : IdSet
  deriving DecidableEq, Repr

/-- A titled part of a report. -/
structure Section (α : Type) where
  title : String
  rows : List α

/-- The counters, section by section. -/
def counters (t : Tally) : List (Section Counter) := [
  { title := "Number of events", rows := [
    ⟨"ev_unknown", "Unknown", "times", t.events.unknown⟩,
    ⟨"ev_mon_create", "Mon create", "times", t.events.monitorCreate⟩,
    ⟨"ev_mon_state", "Mon state", "times", t.events.monitorState⟩,
    ⟨"ev_mon_data", "Mon data", "times", t.events.monitorData⟩,
    ⟨"ev_node_create", "Node create", "times", t.events.nodeCreate⟩,
    ⟨"ev_node_destroy", "Node destroy", "times", t.events.nodeDestroy⟩,
    ⟨"ev_node_position", "Node position", "times", t.events.nodePosition⟩] },
  { title := "Number of scopes", rows := [
    ⟨"sc_unknown", "Unknown", "times", t.scopes.unknown⟩,
    ⟨"sc_simulation", "Simulation", "times", t.scopes.simulation⟩,
    ⟨"sc_node", "Node", "times", t.scopes.node⟩] },
  { title := "Elements seen", rows := [
    ⟨"nb_seen_nodes", "Nodes", "distinct nodes", UInt64.ofNat t.nodes.size⟩,
    ⟨"nb_seen_contexts", "Contexts", "distinct contexts", UInt64.ofNat t.contexts.size⟩,
    ⟨"nb_seen_entities", "Entities", "distinct entities", UInt64.ofNat t.entities.size⟩,
    ⟨"nb_seen_states", "States", "distinct states", UInt64.ofNat t.states.size⟩] }]

/-- The ids that were seen. -/
def seen (t : Tally) : Section SeenRow where
  title := "Seen values"
  rows := [
    ⟨"seen_nodes", "Nodes", t.nodes⟩,
    ⟨"seen_contexts", "Contexts", t.contexts⟩,
    ⟨"seen_entities", "Entities", t.entities⟩,
    ⟨"seen_states", "States", t.states⟩]

/-- How many ids of a set are listed before the rest is left out. -/
def maxSeenShown : Nat := 16

/-- The least ids of a set, and dots if there are more. -/
def seenText (ids : IdSet) : String :=
  let members := ids.members
  String.join ((members.take maxSeenShown).map fun id => " " ++ hexId id) ++
    if maxSeenShown < members.length then " ..." else ""

/-- The report in compact form. -/
def compactLines (t : Tally) : List String :=
  (t.counters.flatMap (·.rows)).map (fun c => c.name ++ ":" ++ Digits.decimal c.value.toNat) ++
    t.seen.rows.map fun s => s.name ++ ":" ++ seenText s.ids

/-- The title of a section, a rule of the same length, and a blank line. -/
def titleLines (title : String) : List String :=
  [title, String.ofList (List.replicate title.length '-'), ""]

/-- The length of the longest label. -/
def longest (labels : List String) : Nat := labels.foldl (fun width l => max width l.length) 0

/-- A label padded to a width. -/
def padded (width : Nat) (label : String) : String := String.ofList (label.toList.rightpad width ' ')

/-- A counter with its unit. -/
def counterLine (width : Nat) (c : Counter) : String :=
  padded width c.label ++ " : " ++ Digits.decimal c.value.toNat ++ " " ++ c.unit

/-- A set of ids with its label. -/
def seenLine (width : Nat) (s : SeenRow) : String := padded width s.label ++ " :" ++ seenText s.ids

/-- The counters of a section that are shown to a human reader. -/
def shown (s : Section Counter) : List Counter := s.rows.filter (·.value ≠ 0)

/-- The report in human form, a blank line between its sections. -/
def humanLines (t : Tally) : List String :=
  let counterWidth := longest ((t.counters.flatMap shown).map (·.label))
  let seenWidth := longest (t.seen.rows.map (·.label))
  let counterSections := t.counters.map fun s =>
    titleLines s.title ++ (shown s).map (counterLine counterWidth)
  let seenSection := titleLines t.seen.title ++ t.seen.rows.map (seenLine seenWidth)
  [""].intercalate (counterSections ++ [seenSection])

/-- The report in either form. -/
def lines (t : Tally) (human : Bool) : List String := if human then t.humanLines else t.compactLines

end Tally

end NodeTrace
