import NodeTrace.Event

/-!
# The trace format

A trace is a header of sixteen bytes (two magic words, major and minor version) and then frames.  A frame
is a run of scope elements, a separator, and one event element.  An element is a control word of two bytes,
a length field and as many bytes of payload as the length says.  The control word holds the tag in its upper
fifteen bits; its last bit tells whether the length field has one byte or four.  The separator has tag 0 and
no length field.  All numbers are big-endian.

This module holds the numbers on which writer and reader agree.
-/

namespace NodeTrace

/-- What the header of a trace says besides the magic words. -/
structure TraceHeader where
  major : UInt32
  minor : UInt32
  deriving DecidableEq, Repr

namespace Format

/-- The two words with which a trace starts, `ctkt` and `race` as bytes. -/
def magic : UInt32 × UInt32 := (0x63746b74, 0x72616365)

/-- The only major version that is understood. -/
def majorVersion : UInt32 := 1

/-- The minor version that is written; any is understood. -/
def minorVersion : UInt32 := 0

/-- The header of the version that is written. -/
def header : TraceHeader := ⟨majorVersion, minorVersion⟩

/-- The largest payload that is accepted if no other limit is set, 256 MiB. -/
def defaultPayloadLimit : Nat := 268435456

/-- The tag of the separator that closes a scope run. -/
def separatorTag : UInt16 := 0

/-- The largest tag that fits a control word. -/
def maxTag : UInt16 := 0x7fff

/-- The tag of a scope element with simulated time, and the length of its payload. -/
def simulationTag : UInt16 := 1
def simulationSize : UInt32 := 8

/-- The tag of a scope element with a node and its clocks, and the length of its payload. -/
def nodeTag : UInt16 := 2
def nodeSize : UInt32 := 18

def monitorCreateTag : UInt16 := 1
def monitorStateTag : UInt16 := 2
def monitorDataTag : UInt16 := 3
def nodeCreateTag : UInt16 := 4
def nodeDestroyTag : UInt16 := 5
def nodePositionTag : UInt16 := 6

def monitorCreateSize : UInt32 := 49
def monitorStateSize : UInt32 := 6
def nodePositionSize : UInt32 := 24

/-- The bytes of a data element before its payload: context and entity. -/
def attachmentPrefixSize : UInt32 := 4

/-- The kind of event that a tag announces. -/
def kindOfTag (tag : UInt16) : EventKind :=
  if tag = monitorCreateTag then .monitorCreate
  else if tag = monitorStateTag then .monitorState
  else if tag = monitorDataTag then .monitorData
  else if tag = nodeCreateTag then .nodeCreate
  else if tag = nodeDestroyTag then .nodeDestroy
  else if tag = nodePositionTag then .nodePosition
  else .unknown

end Format

end NodeTrace
