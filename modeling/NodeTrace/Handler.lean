import NodeTrace.Decoder.Trace

/-!
# Handling the events of a trace

A handler has one action for each kind of event, on a state of its own.  `dispatch` decodes frame after frame
and hands each to the handler; it ends at the clean end of the trace, at the first decode error, or at the
first action that fails.
-/

namespace NodeTrace

/-- One action for each kind of event.  An action changes the state of the handler and may fail. -/
structure Handler (σ ε : Type) where
  unknown : Scope → UInt16 → UInt32 → EStateM ε σ Unit
  monitorCreate : Scope → Calibration → EStateM ε σ Unit
  monitorState : Scope → StateChange → EStateM ε σ Unit
  monitorData : Scope → Attachment → EStateM ε σ Unit
  nodeCreate : Scope → EStateM ε σ Unit
  nodeDestroy : Scope → EStateM ε σ Unit
  nodePosition : Scope → Position → EStateM ε σ Unit
  /-- The error of the whole run when decoding fails. -/
  ofDecodeError : DecodeError → ε
  /-- The records made before an event is handled. -/
  remarks : Event → List LogRecord := fun _ => []

/-- The action for a frame. -/
def Handler.handle {σ ε : Type} (h : Handler σ ε) (frame : Frame) : EStateM ε σ Unit :=
  match frame.event with
  | .unknown tag length => h.unknown frame.scope tag length
  | .monitorCreate calibration => h.monitorCreate frame.scope calibration
  | .monitorState change => h.monitorState frame.scope change
  | .monitorData attachment => h.monitorData frame.scope attachment
  | .nodeCreate => h.nodeCreate frame.scope
  | .nodeDestroy => h.nodeDestroy frame.scope
  | .nodePosition position => h.nodePosition frame.scope position

/-- The result of handling the events of a trace: how many there were or why it ended early, and both states
afterwards. -/
structure Dispatched (σ ε : Type) where
  outcome : Except ε Nat
  decoder : Decoder
  state : σ

namespace Decoder

/-- Add records to the log. -/
def remark (d : Decoder) (records : List LogRecord) : Decoder :=
  { d with log := d.log ++ records.toArray }

@[simp] theorem unread_remark (d : Decoder) (records : List LogRecord) :
    (d.remark records).unread = d.unread := rfl

variable {σ ε : Type}

/-- Hand the frames that are left to the handler, after `count` of them. -/
def dispatchFrom (limit : Nat) (h : Handler σ ε) (count : Nat) (d : Decoder) (s : σ) :
    Dispatched σ ε :=
  match _hf : Decode.frame limit d with
  | .error .endOfStream d' =>
    ⟨.ok count, d'.note .debug ("dispatched " ++ Digits.decimal count ++ " events (" ++
      Digits.decimal d'.offset ++ " bytes)"), s⟩
  | .error e d' =>
    ⟨.error (h.ofDecodeError e), d'.note .debug ("decode failed after " ++ Digits.decimal count ++
      " events at offset " ++ Digits.decimal d'.offset ++ ": " ++ e.message), s⟩
  | .ok frame d' =>
    match h.handle frame s with
    | .error e s' => ⟨.error e, d'.remark (h.remarks frame.event), s'⟩
    | .ok _ s' => dispatchFrom limit h (count + 1) (d'.remark (h.remarks frame.event)) s'
termination_by d.unread
decreasing_by
  have := Decode.consumes_frame limit _hf
  rw [unread_remark]
  omega

/-- Hand every frame of an opened trace to the handler. -/
def dispatch (limit : Nat) (h : Handler σ ε) (d : Decoder) (s : σ) : Dispatched σ ε :=
  d.dispatchFrom limit h 0 s

end Decoder

end NodeTrace
