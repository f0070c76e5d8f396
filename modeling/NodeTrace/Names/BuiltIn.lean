import NodeTrace.Log
import NodeTrace.Names.Catalogue

/-!
# Built-in names

The contexts, states and entities that the instrumented firmware itself uses.  They are registered by calls like any
other names: first all contexts and the states of all contexts, then what is inside the contexts of the radio, of its
power cycle and of control.
-/

namespace NodeTrace

namespace BuiltIn

def control : UInt16 := 0
def radio : UInt16 := 5
def powerCycle : UInt16 := 6

def contexts : List Naming :=
  [⟨control, "CONTROL"⟩, ⟨1, "SCHED"⟩, ⟨2, "NETIN"⟩, ⟨3, "NETOUT"⟩, ⟨4, "CPU"⟩, ⟨radio, "RADIO"⟩,
    ⟨powerCycle, "POWERCYCLE"⟩]

def commonStates : List Naming := [⟨0xfffd, "CREATE"⟩, ⟨0xfffe, "DESTROY"⟩, ⟨0xffff, "INFO"⟩]

def radioStates : List String :=
  ["ON", "OFF", "CCA", "ISR", "POLL", "RDC", "READ", "PREPARE", "TRANSMIT", "DEVOFF", "CCA_END",
    "CCA_FAIL"]

def powerCycleStates : List String :=
  ["RADIO_ON_1", "RADIO_OFF_1", "RADIO_OFF_2", "RADIO_OFF_3", "RADIO_OFF_4", "RADIO_CCA_1",
    "RADIO_CCA_2", "LISTEN_TIME_AFTER_PACKET_DETECTED", "MAX_SILENCE", "FASTSLEEP", "PACKET_SEEN",
    "SILENCE", "ACTIVITY", "RECEIVING", "PENDING", "NEXT_CCA", "NEXT_CCA_CHECK", "NEXT_POWERCYCLE",
    "ARCH_SLEEP", "FSM_START", "FSM_PROBES", "FSM_PROBE", "FSM_SEEN", "FSM_ACTIVITY_CHECK",
    "FSM_PERIODS_CHECK", "FSM_PENDING", "FSM_SLEEP_END", "FSM_END"]

/-- The checks of the oscillators. -/
def oscillatorStates : List String := ["ACLK", "MCLK", "BLINK", "LFXT1OF", "OFIFG", "NOSLEEP"]

/-- The state that ends a self check, behind those of the oscillators. -/
def checkState : UInt16 := 6

def controlEntities : List Naming := [⟨0, "CAL"⟩, ⟨1, "TEST"⟩, ⟨2, "XP"⟩]

/-- Names for the ids 0, 1, 2, … in turn. -/
def numbered (names : List String) : List Naming :=
  names.zipIdx.map fun (name, i) => ⟨UInt16.ofNat i, name⟩

/-- Name the states 0, 1, 2, … inside a context. -/
def registerIndexed (context : UInt16) (states : List String) : Registering Unit :=
  (numbered states).forM fun s => Names.nameState context s.id s.name

/-- Register the built-in names. -/
def register : Registering Unit := do
  contexts.forM fun c => modify (·.nameContext c.id c.name)
  commonStates.forM fun s => modify (·.nameCommonState s.id s.name)
  registerIndexed radio radioStates
  Names.nameEntity radio 0 "CC2420"
  registerIndexed powerCycle powerCycleStates
  Names.nameEntity powerCycle 0 "CONTIKIMAC"
  registerIndexed control oscillatorStates
  Names.nameState control checkState "CHECK"
  controlEntities.forM fun e => Names.nameEntity control e.id e.name

/-- The record made when the built-in names are registered. -/
def remark : LogRecord := ⟨.debug, "registered built-in monitor names"⟩

end BuiltIn

end NodeTrace
