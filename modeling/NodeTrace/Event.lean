import NodeTrace.Scope

/-!
# Events and frames

An event is one thing that happened on a monitored node; a frame is an event together with its scope, the
unit of which a trace is made.
-/

namespace NodeTrace

/-- The offsets that a monitor measures once, when it starts, to calibrate its clocks. -/
structure Calibration where
  stateOffset : NodeTime
  dataOffset : NodeTime
  byteOffset : NodeTime
  byteOrder : UInt8
  deriving DecidableEq, Repr

/-- An entity of a context entered a state. -/
structure StateChange where
  context : UInt16
  entity : UInt16
  state : UInt16
  deriving DecidableEq, Repr

/-- Data that an entity of a context attached to the trace. -/
structure Attachment where
  context : UInt16
  entity : UInt16
  payload : List UInt8
  deriving DecidableEq, Repr

/-- Where a node stands. -/
structure Position where
  x : Binary64
  y : Binary64
  z : Binary64
  deriving DecidableEq, Repr

/-- One thing that a trace reports. -/
inductive Event where
  /-- An element whose tag has no meaning; its payload is not kept. -/
  | unknown (tag : UInt16) (length : UInt32)
  | monitorCreate (calibration : Calibration)
  | monitorState (change : StateChange)
  | monitorData (attachment : Attachment)
  | nodeCreate
  | nodeDestroy
  | nodePosition (position : Position)
  deriving DecidableEq, Repr

/-- The kind of an event, without what it carries. -/
inductive EventKind where
  | unknown
  | monitorCreate
  | monitorState
  | monitorData
  | nodeCreate
  | nodeDestroy
  | nodePosition
  deriving DecidableEq, Repr

/-- The kind of an event. -/
def Event.kind : Event → EventKind
  | .unknown .. => .unknown
  | .monitorCreate _ => .monitorCreate
  | .monitorState _ => .monitorState
  | .monitorData _ => .monitorData
  | .nodeCreate => .nodeCreate
  | .nodeDestroy => .nodeDestroy
  | .nodePosition _ => .nodePosition

namespace EventKind

/-- Every kind, in the order in which kinds are counted and listed. -/
def all : List EventKind :=
  [.unknown, .monitorCreate, .monitorState, .monitorData, .nodeCreate, .nodeDestroy, .nodePosition]

/-- The name of a kind in compact listings and in messages. -/
def name : EventKind → String
  | .unknown => "UNKNOWN"
  | .monitorCreate => "MON_CREATE"
  | .monitorState => "MON_STATE"
  | .monitorData => "MON_DATA"
  | .nodeCreate => "NODE_CREATE"
  | .nodeDestroy => "NODE_DESTROY"
  | .nodePosition => "NODE_POSITION"

/-- The name of a kind in listings for a human reader. -/
def title : EventKind → String
  | .unknown => "Unknown event"
  | .monitorCreate => "Monitor creation"
  | .monitorState => "State event"
  | .monitorData => "Data event"
  | .nodeCreate => "Node creation"
  | .nodeDestroy => "Node removal"
  | .nodePosition => "Node position"

theorem mem_all (kind : EventKind) : kind ∈ all := by cases kind <;> decide

end EventKind

/-- An event and its scope. -/
structure Frame where
  scope : Scope
  event : Event
  deriving DecidableEq, Repr

end NodeTrace
