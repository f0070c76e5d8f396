import NodeTrace.AnalysisError
import NodeTrace.Handler
import NodeTrace.Sink
import NodeTrace.Value

/-!
# Listings

A listing shows every event of a trace, numbered from 0, as it is decoded.  In compact form an event is one
line, `EVENT=<number> <scope fields>:<event fields>`.  In human form it is a record of several lines: a title,
one line for each field with the values below each other, and a blank line.
-/

namespace NodeTrace

/-- A named value: `name` in compact form, `title` in human form. -/
structure Field where
  name : String
  title : String
  value : Value
  deriving DecidableEq, Repr

namespace Field

/-- The fields of a scope: its kinds, and what the kinds say is there. -/
def ofScope (s : Scope) : List Field :=
  let simulation := match s.simulation? with
    | none => []
    | some micros => [⟨"SIM_TIME_US", "Simulation time (micros.)", .micros micros⟩]
  let node := match s.node? with
    | none => []
    | some (id, time) => [
      ⟨"NID", "Node ID", .id id⟩,
      ⟨"NODE_TIME_MS", "Millis. since boot", .millis time.millis⟩,
      ⟨"NODE_CYCLES", "CPU cycles since boot", .cycles time.cycles⟩]
  ⟨"SCOPES_USED", "Scopes used", .scopeKinds s.kinds⟩ :: (simulation ++ node)

/-- What the calibration of a monitor holds. -/
def ofCalibration (c : Calibration) : List Field := [
  ⟨"STATE_OFFSET_TIME", "State offset in millis", .millis c.stateOffset.millis⟩,
  ⟨"STATE_OFFSET_CYCLES", "State offset in CPU cycles", .cycles c.stateOffset.cycles⟩,
  ⟨"DATA_OFFSET_TIME", "Data offset in millis", .millis c.dataOffset.millis⟩,
  ⟨"DATA_OFFSET_CYCLES", "Data offset in CPU cycles", .cycles c.dataOffset.cycles⟩,
  ⟨"BYTE_OFFSET_TIME", "Byte offset in millis", .millis c.byteOffset.millis⟩,
  ⟨"BYTE_OFFSET_CYCLES", "Byte offset in CPU cycles", .cycles c.byteOffset.cycles⟩]

/-- What a state change holds. -/
def ofStateChange (c : StateChange) : List Field := [
  ⟨"CTX", "Context", .context c.context⟩,
  ⟨"ENT", "Entity", .entity c.context c.entity⟩,
  ⟨"STATE", "State", .state c.context c.state⟩]

/-- What attached data holds. -/
def ofAttachment (a : Attachment) : List Field := [
  ⟨"CTX", "Context", .context a.context⟩,
  ⟨"ENT", "Entity", .entity a.context a.entity⟩,
  ⟨"DATA", "Data", .data a.payload⟩]

/-- What a position holds. -/
def ofPosition (p : Position) : List Field := [
  ⟨"COORD_X", "Coord. X", .coordinate p.x⟩,
  ⟨"COORD_Y", "Coord. Y", .coordinate p.y⟩,
  ⟨"COORD_Z", "Coord. Z", .coordinate p.z⟩]

/-- What an event carries. -/
def ofPayload : Event → List Field
  | .monitorCreate c => ofCalibration c
  | .monitorState c => ofStateChange c
  | .monitorData a => ofAttachment a
  | .nodePosition p => ofPosition p
  | .unknown .. | .nodeCreate | .nodeDestroy => []

/-- The fields of an event: its kind, and what it carries. -/
def ofKind (kind : EventKind) (payload : List Field) : List Field :=
  ⟨"EVENT_TYPE", "Event type", .eventKind kind⟩ :: payload

/-- The fields of an event as a whole. -/
def ofEvent (e : Event) : List Field := ofKind e.kind (ofPayload e)

/-- A field in compact form. -/
def compact (names : Names) (f : Field) : String := f.name ++ "=" ++ f.value.compact names

/-- A field in human form, its title padded to a width. -/
def human (names : Names) (width : Nat) (f : Field) : String :=
  "  " ++ String.ofList (f.title.toList.rightpad width ' ') ++ " : " ++ f.value.human names

end Field

namespace Listing

/-- The line of an event in compact form, made from the fields of its scope and its own. -/
def compactOf (names : Names) (number : Nat) (scope event : List Field) : String :=
  "EVENT=" ++ Digits.decimal number ++ " " ++
    " ".intercalate (scope.map (·.compact names)) ++ ":" ++
    " ".intercalate (event.map (·.compact names))

/-- The line of a frame in compact form. -/
def compactLine (names : Names) (number : Nat) (frame : Frame) : String :=
  compactOf names number (Field.ofScope frame.scope) (Field.ofEvent frame.event)

/-- The width of the longest title. -/
def titleWidth (fields : List Field) : Nat := fields.foldl (fun width f => max width f.title.length) 0

/-- The lines of an event in human form.  The value of a field may itself have several lines. -/
def humanOf (names : Names) (number : Nat) (fields : List Field) : List String :=
  ("Event: " ++ Digits.decimal number) :: fields.map (·.human names (titleWidth fields)) ++ [""]

/-- The lines of a frame in human form. -/
def humanLines (names : Names) (number : Nat) (frame : Frame) : List String :=
  humanOf names number (Field.ofScope frame.scope ++ Field.ofEvent frame.event)

/-- The lines of a frame. -/
def record (names : Names) (human : Bool) (number : Nat) (frame : Frame) : List String :=
  if human then humanLines names number frame else [compactLine names number frame]

end Listing

/-- A listing under way. -/
structure Listing where
  sink : Sink
  /-- How many events were listed. -/
  count : Nat := 0

namespace Listing

/-- List an event of this kind that carries this payload.  It counts once all of it is written. -/
def emit (names : Names) (human : Bool) (scope : Scope) (kind : EventKind) (payload : List Field) :
    EStateM AnalysisError Listing Unit := fun l =>
  let scope := Field.ofScope scope
  let event := Field.ofKind kind payload
  let lines := if human then humanOf names l.count (scope ++ event) else [compactOf names l.count scope event]
  match Sink.putLines lines l.sink with
  | .ok _ sink => .ok () { sink, count := l.count + 1 }
  | .error fault sink => .error (.output fault) { l with sink }

/-- The record made before an event is listed. -/
def remarks : Event → List LogRecord
  | .unknown tag length => [⟨.trace, "printing unknown event type " ++ Digits.decimal tag.toNat ++ " (" ++
      Digits.decimal length.toNat ++ " bytes)"⟩]
  | _ => []

/-- A handler that lists every event. -/
def handler (names : Names) (human : Bool) : Handler Listing AnalysisError where
  unknown scope _ _ := emit names human scope .unknown []
  monitorCreate scope calibration := emit names human scope .monitorCreate (Field.ofCalibration calibration)
  monitorState scope change := emit names human scope .monitorState (Field.ofStateChange change)
  monitorData scope attachment := emit names human scope .monitorData (Field.ofAttachment attachment)
  nodeCreate scope := emit names human scope .nodeCreate []
  nodeDestroy scope := emit names human scope .nodeDestroy []
  nodePosition scope position := emit names human scope .nodePosition (Field.ofPosition position)
  ofDecodeError := .decode
  remarks := remarks

/-- Every action of the handler lists the frame it is for. -/
theorem handle_eq (names : Names) (human : Bool) (frame : Frame) (l : Listing) :
    (handler names human).handle frame l =
      match Sink.putLines (record names human l.count frame) l.sink with
      | .ok _ sink => .ok () { sink, count := l.count + 1 }
      | .error fault sink => .error (.output fault) { l with sink } := by
  obtain ⟨scope, event⟩ := frame
  cases event <;> rfl

end Listing

end NodeTrace
