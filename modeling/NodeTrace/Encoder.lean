import NodeTrace.BigEndian
import NodeTrace.Digits
import NodeTrace.Format
import NodeTrace.Sink

/-!
# Writing traces

Headers, scopes, events and other elements are written number by number in the trace format, each number by a write of
its own.  An element can be refused for a tag that is no tag of an element, and for a payload longer than a length field
can say.  Both are looked at before the control word, which is the first that is written of an element.  A length below
256 takes the field of one byte, any other the field of four.
-/

namespace NodeTrace

namespace Encode

def word8 (w : UInt8) : List UInt8 := BigEndian.ofNat 1 w.toNat
def word16 (w : UInt16) : List UInt8 := BigEndian.ofNat 2 w.toNat
def word32 (w : UInt32) : List UInt8 := BigEndian.ofNat 4 w.toNat
def word64 (w : UInt64) : List UInt8 := BigEndian.ofNat 8 w.toNat
def double (x : Binary64) : List UInt8 := word64 x.bits

end Encode

namespace Sink

open Encode

/-- Write the header of a trace. -/
def putHeader (h : TraceHeader) : Write Unit :=
  [Format.magic.1, Format.magic.2, h.major, h.minor].forM fun word => put (word32 word)

/-- Write control word and length field of an element. -/
def putElementHeader (tag : UInt16) (length : UInt32) : Write Unit :=
  if tag = Format.separatorTag ∨ Format.maxTag < tag then
    throw (.invalidInput ("invalid element type tag " ++ Digits.decimal tag.toNat))
  else if length < 256 then do
    put (word16 (tag * 2))
    put (word8 length.toUInt8)
  else do
    put (word16 (tag * 2 + 1))
    put (word32 length)

/-- Write cycles, then milliseconds. -/
def putNodeTime (t : NodeTime) : Write Unit := do
  put (word64 t.cycles)
  put (double t.millis)

/-- Write the element of a simulated time, if there is one. -/
def putSimulation : Option UInt64 → Write Unit
  | none => pure ()
  | some micros => do
    putElementHeader Format.simulationTag Format.simulationSize
    put (word64 micros)

/-- Write the element of a node and its clocks, if there is one. -/
def putNode : Option (UInt16 × NodeTime) → Write Unit
  | none => pure ()
  | some (id, time) => do
    putElementHeader Format.nodeTag Format.nodeSize
    putNodeTime time
    put (word16 id)

/-- Write a scope run with its separator.  That a scope had elements without a meaning is not written. -/
def putScope (s : Scope) : Write Unit := do
  putSimulation s.simulation?
  putNode s.node?
  put (word16 (Format.separatorTag * 2))

/-- A length that a length field can say. -/
def lengthField (n : Nat) : Write UInt32 :=
  if n < UInt32.size then pure (UInt32.ofNat n) else throw (.invalidInput "payload too large")

/-- Write an event element.  An event without a meaning is written with zeros for its payload. -/
def putEvent : Event → Write Unit
  | .unknown tag length => do
    putElementHeader tag length
    putZeros length.toNat
  | .monitorCreate c => do
    putElementHeader Format.monitorCreateTag Format.monitorCreateSize
    putNodeTime c.stateOffset
    putNodeTime c.dataOffset
    putNodeTime c.byteOffset
    put (word8 c.byteOrder)
  | .monitorState c => do
    putElementHeader Format.monitorStateTag Format.monitorStateSize
    put (word16 c.context)
    put (word16 c.entity)
    put (word16 c.state)
  | .monitorData a => do
    let length ← lengthField (a.payload.length + Format.attachmentPrefixSize.toNat)
    putElementHeader Format.monitorDataTag length
    put (word16 a.context)
    put (word16 a.entity)
    put a.payload
  | .nodeCreate => putElementHeader Format.nodeCreateTag 0
  | .nodeDestroy => putElementHeader Format.nodeDestroyTag 0
  | .nodePosition p => do
    putElementHeader Format.nodePositionTag Format.nodePositionSize
    put (double p.x)
    put (double p.y)
    put (double p.z)

/-- Write an element with any tag and payload. -/
def putElement (tag : UInt16) (payload : List UInt8) : Write Unit := do
  let length ← lengthField payload.length
  putElementHeader tag length
  put payload

/-- What can be asked of a writer of traces. -/
inductive WriteStep where
  | header (h : TraceHeader)
  | scope (s : Scope)
  | event (e : Event)
  | element (tag : UInt16) (payload : List UInt8)
  | flush

/-- The steps that write a whole trace. -/
def WriteStep.ofFrames (frames : List Frame) : List WriteStep :=
  .header Format.header :: frames.flatMap fun frame => [.scope frame.scope, .event frame.event]

/-- Carry out one step of writing a trace. -/
def perform : WriteStep → Write Unit
  | .header h => putHeader h
  | .scope s => putScope s
  | .event e => putEvent e
  | .element tag payload => putElement tag payload
  | .flush => flush

/-- Carry out steps in turn, also after one that failed: the fault of each step, if any, and the sink. -/
def performAll : List WriteStep → Sink → List (Option Fault) × Sink
  | [], s => ([], s)
  | step :: rest, s =>
    match perform step s with
    | .ok _ s' => (performAll rest s').map (none :: ·) id
    | .error fault s' => (performAll rest s').map (some fault :: ·) id

end Sink

end NodeTrace
