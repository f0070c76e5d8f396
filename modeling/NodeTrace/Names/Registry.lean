import NodeTrace.Digits
import NodeTrace.Names.Table

/-!
# Names of contexts, states and entities

Names are registered before a trace is read and used only where an id is shown.  A state or an entity is
named inside a context that has to be registered first, or for all contexts alike; a common name wins over
the name inside a context.  While resolution is disabled no id has a name.  What has no name is shown as four
hexadecimal digits.
-/

namespace NodeTrace

/-- Why a name could not be registered. -/
inductive NameError where
  /-- States and entities can be named only inside a registered context. -/
  | unregisteredContext (context : UInt16)
  deriving DecidableEq, Repr

/-- The wording of a name error. -/
def NameError.message : NameError → String
  | .unregisteredContext context => "Unregistered context " ++ Digits.hexUpper 4 context.toNat

/-- The name of a context and the names inside it. -/
structure ContextEntry where
  name : String
  states : Table String := {}
  entities : Table String := {}

/-- All registered names. -/
structure Names where
  enabled : Bool := true
  contexts : Table ContextEntry := {}
  commonStates : Table String := {}
  commonEntities : Table String := {}

/-- Names registered for nothing yet. -/
instance : Inhabited Names := ⟨{}⟩

/-- An action that registers names.  One that fails tells why, and leaves names too. -/
abbrev Registering (α : Type) : Type := EStateM NameError Names α

/-- The names behind an action, if it succeeds. -/
def Registering.on (act : Registering Unit) (n : Names) : Except NameError Names :=
  match act n with
  | .ok _ n' => .ok n'
  | .error e _ => .error e

/-- An id as it is shown without a name. -/
def hexId (id : UInt16) : String := Digits.hex 4 id.toNat

namespace Names

/-- Switch resolution on or off. -/
def enable (n : Names) (enabled : Bool) : Names := { n with enabled }

/-- Name a context.  One that has a name already is renamed and keeps the names inside it. -/
def nameContext (n : Names) (context : UInt16) (name : String) : Names :=
  let entry := match n.contexts.get? context with
    | none => { name }
    | some entry => { entry with name }
  { n with contexts := n.contexts.insert context entry }

/-- Change the names inside a context that has to be registered. -/
def inContext (context : UInt16) (change : ContextEntry → ContextEntry) : Registering Unit := fun n =>
  match n.contexts.get? context with
  | none => .error (.unregisteredContext context) n
  | some entry => .ok () { n with contexts := n.contexts.insert context (change entry) }

/-- Name a state inside a context. -/
def nameState (context state : UInt16) (name : String) : Registering Unit :=
  inContext context fun entry => { entry with states := entry.states.insert state name }

/-- Name an entity inside a context. -/
def nameEntity (context entity : UInt16) (name : String) : Registering Unit :=
  inContext context fun entry => { entry with entities := entry.entities.insert entity name }

/-- Name a state for all contexts. -/
def nameCommonState (n : Names) (state : UInt16) (name : String) : Names :=
  { n with commonStates := n.commonStates.insert state name }

/-- Name an entity for all contexts. -/
def nameCommonEntity (n : Names) (entity : UInt16) (name : String) : Names :=
  { n with commonEntities := n.commonEntities.insert entity name }

/-- The name of a context. -/
def context? (n : Names) (context : UInt16) : Option String :=
  if n.enabled then (n.contexts.get? context).map (·.name) else none

/-- The name of a state of a context. -/
def state? (n : Names) (context state : UInt16) : Option String :=
  if n.enabled then
    (n.commonStates.get? state).or ((n.contexts.get? context).bind (·.states.get? state))
  else none

/-- The name of an entity of a context. -/
def entity? (n : Names) (context entity : UInt16) : Option String :=
  if n.enabled then
    (n.commonEntities.get? entity).or ((n.contexts.get? context).bind (·.entities.get? entity))
  else none

/-- How a context is shown. -/
def showContext (n : Names) (context : UInt16) : String :=
  (n.context? context).getD (hexId context)

/-- How a state of a context is shown. -/
def showState (n : Names) (context state : UInt16) : String :=
  (n.state? context state).getD (hexId state)

/-- How an entity of a context is shown. -/
def showEntity (n : Names) (context entity : UInt16) : String :=
  (n.entity? context entity).getD (hexId entity)

theorem enable_eq_self {n : Names} {enabled : Bool} (h : n.enabled = enabled) : n.enable enabled = n := by
  subst h
  rfl

/-! ## Names that are disabled -/

section Disabled

variable {n : Names}

theorem context?_of_disabled (h : n.enabled = false) (context : UInt16) : n.context? context = none := by
  rw [context?, h]
  rfl

theorem state?_of_disabled (h : n.enabled = false) (context state : UInt16) : n.state? context state = none := by
  rw [state?, h]
  rfl

theorem entity?_of_disabled (h : n.enabled = false) (context entity : UInt16) : n.entity? context entity = none := by
  rw [entity?, h]
  rfl

theorem showContext_of_disabled (h : n.enabled = false) (context : UInt16) : n.showContext context = hexId context := by
  rw [showContext, context?_of_disabled h]
  rfl

theorem showState_of_disabled (h : n.enabled = false) (context state : UInt16) :
    n.showState context state = hexId state := by
  rw [showState, state?_of_disabled h]
  rfl

theorem showEntity_of_disabled (h : n.enabled = false) (context entity : UInt16) :
    n.showEntity context entity = hexId entity := by
  rw [showEntity, entity?_of_disabled h]
  rfl

end Disabled

end Names

end NodeTrace
