import NodeTrace.Names.Registry

/-!
# Catalogues of names

A catalogue lists names to be registered together: contexts with the states and entities inside them, and the
names that count in all contexts.  It is what a names file holds.  A catalogue may repeat ids; the later name
counts.
-/

namespace NodeTrace

/-- An id and its name. -/
structure Naming where
  id : UInt16
  name : String
  deriving DecidableEq, Repr

/-- A context, its name, and the names inside it. -/
structure NamedContext where
  id : UInt16
  name : String
  states : List Naming := []
  entities : List Naming := []
  deriving DecidableEq, Repr

/-- Names to be registered together. -/
structure Catalogue where
  contexts : List NamedContext := []
  commonStates : List Naming := []
  commonEntities : List Naming := []
  deriving DecidableEq, Repr

namespace Names

/-- Register a context and then the names inside it. -/
def applyContext (c : NamedContext) : Registering Unit := do
  modify (·.nameContext c.id c.name)
  c.states.forM fun s => nameState c.id s.id s.name
  c.entities.forM fun e => nameEntity c.id e.id e.name

/-- Register everything in a catalogue. -/
def apply (c : Catalogue) : Registering Unit := do
  c.contexts.forM applyContext
  c.commonStates.forM fun s => modify (·.nameCommonState s.id s.name)
  c.commonEntities.forM fun e => modify (·.nameCommonEntity e.id e.name)

end Names

end NodeTrace
