import NodeTrace.AnalysisError
import NodeTrace.Handler
import NodeTrace.IdSet

/-!
# Tallies

A tally counts the events of a trace by kind and the scopes by what they hold, and collects the ids that
occur: nodes in the scopes of all events; contexts, entities and states in state changes only.
-/

namespace NodeTrace

/-- How many events of each kind there were. -/
structure EventCounts where
  unknown : UInt64 := 0
  monitorCreate : UInt64 := 0
  monitorState : UInt64 := 0
  monitorData : UInt64 := 0
  nodeCreate : UInt64 := 0
  nodeDestroy : UInt64 := 0
  nodePosition : UInt64 := 0
  deriving DecidableEq, Repr

namespace EventCounts

/-- The count of a kind. -/
def get (c : EventCounts) : EventKind → UInt64
  | .unknown => c.unknown
  | .monitorCreate => c.monitorCreate
  | .monitorState => c.monitorState
  | .monitorData => c.monitorData
  | .nodeCreate => c.nodeCreate
  | .nodeDestroy => c.nodeDestroy
  | .nodePosition => c.nodePosition

/-- One more event of a kind. -/
def add (c : EventCounts) : EventKind → EventCounts
  | .unknown => { c with unknown := c.unknown + 1 }
  | .monitorCreate => { c with monitorCreate := c.monitorCreate + 1 }
  | .monitorState => { c with monitorState := c.monitorState + 1 }
  | .monitorData => { c with monitorData := c.monitorData + 1 }
  | .nodeCreate => { c with nodeCreate := c.nodeCreate + 1 }
  | .nodeDestroy => { c with nodeDestroy := c.nodeDestroy + 1 }
  | .nodePosition => { c with nodePosition := c.nodePosition + 1 }

/-- The count of all events. -/
def total (c : EventCounts) : UInt64 := EventKind.all.foldl (fun n kind => n + c.get kind) 0

theorem get_add (c : EventCounts) (kind kind' : EventKind) :
    (c.add kind).get kind' = c.get kind' + if kind' = kind then 1 else 0 := by
  cases kind <;> cases kind' <;> simp [add, get]

end EventCounts

/-- How many scopes had elements of each kind. -/
structure ScopeCounts where
  unknown : UInt64 := 0
  simulation : UInt64 := 0
  node : UInt64 := 0
  deriving DecidableEq, Repr

/-- One more scope. -/
def ScopeCounts.add (c : ScopeCounts) (kinds : ScopeKinds) : ScopeCounts where
  unknown := c.unknown + if kinds.unknown then 1 else 0
  simulation := c.simulation + if kinds.simulation then 1 else 0
  node := c.node + if kinds.node then 1 else 0

/-- Counts and ids of a trace. -/
structure Tally where
  events : EventCounts := {}
  scopes : ScopeCounts := {}
  nodes : IdSet := {}
  contexts : IdSet := {}
  entities : IdSet := {}
  states : IdSet := {}
  deriving DecidableEq, Repr

namespace Tally

/-- Take note of the ids of a state change. -/
def see (t : Tally) (c : StateChange) : Tally :=
  { t with
    contexts := t.contexts.insert c.context
    entities := t.entities.insert c.entity
    states := t.states.insert c.state }

/-- Count an event of this kind and its scope. -/
def record (t : Tally) (scope : Scope) (kind : EventKind) : Tally :=
  { t with
    events := t.events.add kind
    scopes := t.scopes.add scope.kinds
    nodes := match scope.node? with
      | none => t.nodes
      | some (id, _) => t.nodes.insert id }

/-- Take note of a frame. -/
def add (t : Tally) (frame : Frame) : Tally :=
  match frame.event with
  | .monitorState change => (t.record frame.scope .monitorState).see change
  | event => t.record frame.scope event.kind

/-- The tally of a list of frames. -/
def ofFrames (frames : List Frame) : Tally := frames.foldl add {}

@[simp] theorem ofFrames_nil : ofFrames [] = {} := rfl

theorem ofFrames_concat (frames : List Frame) (frame : Frame) :
    ofFrames (frames ++ [frame]) = (ofFrames frames).add frame := by
  simp [ofFrames, List.foldl_append]

/-- A handler that takes note of every event. -/
def handler : Handler Tally AnalysisError where
  unknown scope _ _ := modify (·.record scope .unknown)
  monitorCreate scope _ := modify (·.record scope .monitorCreate)
  monitorState scope change := modify fun t => (t.record scope .monitorState).see change
  monitorData scope _ := modify (·.record scope .monitorData)
  nodeCreate scope := modify (·.record scope .nodeCreate)
  nodeDestroy scope := modify (·.record scope .nodeDestroy)
  nodePosition scope _ := modify (·.record scope .nodePosition)
  ofDecodeError := .decode

/-- Every action of the handler takes note of the frame it is for. -/
theorem handle_eq (frame : Frame) (t : Tally) : handler.handle frame t = .ok () (t.add frame) := by
  obtain ⟨scope, event⟩ := frame
  cases event <;> rfl

end Tally

end NodeTrace
