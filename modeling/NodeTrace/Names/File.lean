import NodeTrace.Json.Shape
import NodeTrace.Names.Catalogue
import NodeTrace.Source

/-!
# Names files

A names file is a catalogue in JSON.  The lists of a catalogue and of a context may be left out.  Names of
members are checked everywhere but in the entry of a single id, which may have members of other names.
-/

namespace NodeTrace

open Json

/-- The fields of a context while it is scanned. -/
structure ContextDraft where
  id : Option UInt16 := none
  name : Option String := none
  states : Option (List Naming) := none
  entities : Option (List Naming) := none

/-- The fields of a catalogue while it is scanned. -/
structure CatalogueDraft where
  contexts : Option (List NamedContext) := none
  commonStates : Option (List Naming) := none
  commonEntities : Option (List Naming) := none

/-- The entry of an id. -/
def Naming.shape : Scan.Shape (Option UInt16 × Option String) Naming where
  slots := [
    ⟨"id", (·.1.isSome), fun d => return (some (← Scan.word16), d.2)⟩,
    ⟨"name", (·.2.isSome), fun d => return (d.1, some (← Scan.quoted))⟩]
  lax := true
  blank := (none, none)
  finish d := do return ⟨← d.1, ← d.2⟩

/-- A list of entries. -/
def Naming.scanList : Scan (List Naming) := Scan.list (Scan.record Naming.shape)

/-- A context. -/
def NamedContext.shape : Scan.Shape ContextDraft NamedContext where
  slots := [
    ⟨"id", (·.id.isSome), fun d => return { d with id := some (← Scan.word16) }⟩,
    ⟨"name", (·.name.isSome), fun d => return { d with name := some (← Scan.quoted) }⟩,
    ⟨"states", (·.states.isSome), fun d => return { d with states := some (← Naming.scanList) }⟩,
    ⟨"entities", (·.entities.isSome), fun d =>
      return { d with entities := some (← Naming.scanList) }⟩]
  lax := false
  blank := {}
  finish d := do return ⟨← d.id, ← d.name, d.states.getD [], d.entities.getD []⟩

/-- A whole catalogue. -/
def Catalogue.shape : Scan.Shape CatalogueDraft Catalogue where
  slots := [
    ⟨"contexts", (·.contexts.isSome), fun d =>
      return { d with contexts := some (← Scan.list (Scan.record NamedContext.shape)) }⟩,
    ⟨"common_states", (·.commonStates.isSome), fun d =>
      return { d with commonStates := some (← Naming.scanList) }⟩,
    ⟨"common_entities", (·.commonEntities.isSome), fun d =>
      return { d with commonEntities := some (← Naming.scanList) }⟩]
  lax := false
  blank := {}
  finish d := some ⟨d.contexts.getD [], d.commonStates.getD [], d.commonEntities.getD []⟩

/-- The catalogue that a source delivers, or the first problem on the way to its end.  The source is asked for a byte
when the scan comes to it, so a problem of the bytes in front of a failure is met before the failure. -/
def Catalogue.read (source : Source) : Except Problem Catalogue :=
  let delivered := source.gather (source.unread.length + 1)
  Scan.whole (Scan.record Catalogue.shape) delivered.bytes delivered.ending.fault?

end NodeTrace
