import NodeTrace.Event
import NodeTrace.HexDump
import NodeTrace.Names.Registry

/-!
# Shown values

A value that a listing shows, tagged with what it is.  `compact` is its form in a line of `NAME=value` fields,
`human` its form with units and long names.
-/

namespace NodeTrace

/-- A value that a listing shows. -/
inductive Value where
  | scopeKinds (kinds : ScopeKinds)
  | eventKind (kind : EventKind)
  | context (context : UInt16)
  | entity (context entity : UInt16)
  | state (context state : UInt16)
  | coordinate (x : Binary64)
  | millis (x : Binary64)
  | micros (n : UInt64)
  | cycles (n : UInt64)
  | data (bytes : List UInt8)
  | id (id : UInt16)
  deriving DecidableEq, Repr

namespace Value

/-- How many places of a coordinate or a time are shown. -/
def decimals : Nat := 6

/-- The labels of the kinds that are present, in the order in which kinds are listed. -/
def presentKinds (kinds : ScopeKinds) (unknown simulation node : String) : List String :=
  (if kinds.unknown then [unknown] else []) ++ (if kinds.simulation then [simulation] else []) ++
    (if kinds.node then [node] else [])

/-- The labels of the kinds that are present, or another label if none is. -/
def kindsText (labels : List String) (separator none : String) : String :=
  if labels.isEmpty then none else separator.intercalate labels

/-- The form of a value in a compact line. -/
def compact (names : Names) : Value → String
  | .scopeKinds kinds => kindsText (presentKinds kinds "UNKNOWN" "SIMULATION" "NODE") "/" "NONE"
  | .eventKind kind => kind.name
  | .context c => names.showContext c
  | .entity c e => names.showEntity c e
  | .state c s => names.showState c s
  | .coordinate x => x.fixed decimals
  | .millis x => x.fixed decimals
  | .micros n => Digits.decimal n.toNat
  | .cycles n => Digits.decimal n.toNat
  | .data bytes => String.join (bytes.map fun b => Digits.hexUpper 2 b.toNat)
  | .id n => Digits.decimal n.toNat

/-- The form of a value for a human reader. -/
def human (names : Names) : Value → String
  | .scopeKinds kinds => kindsText (presentKinds kinds "unknown" "simulation" "node") " " "none"
  | .eventKind kind => kind.title
  | .millis x => x.fixed decimals ++ " ms"
  | .micros n => Digits.decimal n.toNat ++ " us"
  | .cycles n => Digits.decimal n.toNat ++ " cycles"
  | .data bytes => "\n" ++ "\n".intercalate (HexDump.lines bytes)
  | value => value.compact names

end Value

end NodeTrace
