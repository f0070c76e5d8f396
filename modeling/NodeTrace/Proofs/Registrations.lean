import Mathlib.Data.List.Induction
import NodeTrace.Proofs.Labels

/-!
# Names remember what was registered

Names are the outcome of calls that register names or switch resolution.  Behind a call each table answers with what the
call gives, else as before, so behind all calls it answers with what the last of them gives (`Names.ofCalls_eq_last`).
Inside a context only calls that succeed count, and these are the ones behind a registration of the context
(`Names.ofCalls_eq_last_success`, `Names.bind_entry_ofCalls`).
-/

namespace NodeTrace

/-- A call that registers a name or switches resolution. -/
inductive Registration where
  | context (context : UInt16) (name : String)
  | state (context state : UInt16) (name : String)
  | entity (context entity : UInt16) (name : String)
  | commonState (state : UInt16) (name : String)
  | commonEntity (entity : UInt16) (name : String)
  | enable (enabled : Bool)
  deriving DecidableEq, Repr

namespace Names

/-- Make a call. -/
def register : Registration → Registering Unit
  | .context c name => modify (·.nameContext c name)
  | .state c s name => nameState c s name
  | .entity c e name => nameEntity c e name
  | .commonState s name => modify (·.nameCommonState s name)
  | .commonEntity e name => modify (·.nameCommonEntity e name)
  | .enable enabled => modify (·.enable enabled)

/-- The names behind a call, whether it succeeds or fails. -/
def registered (n : Names) (r : Registration) : Names :=
  match register r n with
  | .ok _ n' => n'
  | .error _ n' => n'

/-- The names behind calls, made one after the other. -/
def ofCalls (calls : List Registration) : Names := calls.foldl registered {}

theorem ofCalls_concat (calls : List Registration) (r : Registration) :
    ofCalls (calls ++ [r]) = (ofCalls calls).registered r := by
  simp [ofCalls, List.foldl_append]

end Names

/-! ## What calls give -/

namespace Registration

/-- The name that the call gives to a context. -/
def contextName? (context : UInt16) : Registration → Option String
  | .context c name => if c = context then some name else none
  | _ => none

/-- The name that the call gives to a state inside a context. -/
def stateName? (context state : UInt16) : Registration → Option String
  | .state c s name => if c = context ∧ s = state then some name else none
  | _ => none

/-- The name that the call gives to an entity inside a context. -/
def entityName? (context entity : UInt16) : Registration → Option String
  | .entity c e name => if c = context ∧ e = entity then some name else none
  | _ => none

/-- The name that the call gives to a state of all contexts. -/
def commonStateName? (state : UInt16) : Registration → Option String
  | .commonState s name => if s = state then some name else none
  | _ => none

/-- The name that the call gives to an entity of all contexts. -/
def commonEntityName? (entity : UInt16) : Registration → Option String
  | .commonEntity e name => if e = entity then some name else none
  | _ => none

/-- Whether the call switches resolution on or off. -/
def switch? : Registration → Option Bool
  | .enable enabled => some enabled
  | _ => none

/-- The context inside which the call gives a name. -/
def inside? : Registration → Option UInt16
  | .state c _ _ | .entity c _ _ => some c
  | _ => none

/-- The context inside which the call gives a name, if any, was registered in the past. -/
def allowed (past : List Registration) (r : Registration) : Bool :=
  r.inside?.all fun context => past.any fun p => (p.contextName? context).isSome

/-- The calls that succeed, if those of the past were made before them. -/
def successes (past : List Registration) : List Registration → List Registration
  | [] => []
  | r :: rest => if r.allowed past then r :: successes (past ++ [r]) rest else successes (past ++ [r]) rest

/-- What the last call gives that gives anything. -/
def last {α : Type} (given? : Registration → Option α) (calls : List Registration) : Option α :=
  (calls.filterMap given?).getLast?

section Last

variable {α : Type} {given? : Registration → Option α} {calls : List Registration} {r : Registration}

theorem last_concat : last given? (calls ++ [r]) = (given? r).or (last given? calls) := by
  unfold last
  rw [List.filterMap_append, List.filterMap_cons, List.filterMap_nil]
  cases given? r with
  | none => rw [List.append_nil]; rfl
  | some x => rw [List.getLast?_concat]; rfl

theorem last_eq_none_iff : last given? calls = none ↔ ∀ p ∈ calls, given? p = none := by
  unfold last
  rw [List.getLast?_eq_none_iff, List.filterMap_eq_nil_iff]

/-- No call registers the context. -/
theorem last_contextName?_eq_none_iff {context : UInt16} :
    last (contextName? context) calls = none ↔ ∀ name, .context context name ∉ calls := by
  rw [last_eq_none_iff]
  constructor
  · intro h name hmem
    have hnone := h _ hmem
    rw [contextName?, if_pos rfl] at hnone
    cases hnone
  · intro h p hp
    unfold contextName?
    cases p with
    | context c name => exact if_neg fun hc : c = context => h name (hc ▸ hp)
    | _ => rfl

theorem allowed_eq_false_iff : r.allowed calls = false ↔
    ∃ context, r.inside? = some context ∧ last (contextName? context) calls = none := by
  unfold allowed
  cases r.inside? with
  | none => exact ⟨nofun, fun ⟨_, h, _⟩ => nomatch h⟩
  | some context =>
    simp only [Option.all_some, List.any_eq_false, Option.some.injEq, exists_eq_left', last_eq_none_iff,
      Bool.not_eq_true, Option.isSome_eq_false_iff, Option.isNone_iff_eq_none]

theorem successes_concat (past calls : List Registration) (r : Registration) : successes past (calls ++ [r]) =
    successes past calls ++ if r.allowed (past ++ calls) then [r] else [] := by
  induction calls generalizing past with
  | nil => rw [List.append_nil]; rfl
  | cons p rest ih =>
    rw [List.cons_append, successes, successes, ih, List.append_assoc, List.singleton_append]
    by_cases h : p.allowed past
    · rw [if_pos h, if_pos h]; rfl
    · rw [if_neg h, if_neg h]

/-- One more call gives something to what succeeded if it is allowed. -/
theorem last_successes_concat : last given? (successes [] (calls ++ [r])) =
    (if r.allowed calls then given? r else none).or (last given? (successes [] calls)) := by
  rw [successes_concat, List.nil_append]
  by_cases h : r.allowed calls
  · rw [if_pos h, if_pos h, last_concat]
  · rw [if_neg h, if_neg h, List.append_nil]; rfl

end Last

end Registration

/-! ## One context -/

theorem Table.get?_insert_eq_or {α : Type} (t : Table α) (id id' : UInt16) (value : α) :
    (t.insert id value).get? id' = (if id = id' then some value else none).or (t.get? id') := by
  rw [get?_insert]
  by_cases h : id = id'
  · rw [if_pos h, if_pos h.symm]; rfl
  · rw [if_neg h, if_neg (Ne.symm h)]; rfl

namespace Registration

/-- What the call changes inside its context. -/
def change : Registration → ContextEntry → ContextEntry
  | .state _ s name, entry => { entry with states := entry.states.insert s name }
  | .entity _ e name, entry => { entry with entities := entry.entities.insert e name }
  | _, entry => entry

/-- The entry of a context behind the call. -/
def entry (context : UInt16) (r : Registration) (before : Option ContextEntry) : Option ContextEntry :=
  if r.inside? = some context then before.map r.change
  else (r.contextName? context).elim before fun name => some { before.getD { name } with name }

theorem name_change (r : Registration) (entry : ContextEntry) : (r.change entry).name = entry.name := by
  cases r <;> rfl

theorem contextName?_of_inside {r : Registration} {c : UInt16} (h : r.inside? = some c) (context : UInt16) :
    r.contextName? context = none := by
  cases r with
  | context => cases h
  | _ => rfl

/-- A call gives names to states of no context but the one inside which it is made. -/
theorem stateName?_of_ne {r : Registration} {context : UInt16} (h : r.inside? ≠ some context) (state : UInt16) :
    r.stateName? context state = none := by
  cases r with
  | state c s name => exact if_neg fun hc => h (congrArg some hc.1)
  | _ => rfl

theorem entityName?_of_ne {r : Registration} {context : UInt16} (h : r.inside? ≠ some context) (entity : UInt16) :
    r.entityName? context entity = none := by
  cases r with
  | entity c e name => exact if_neg fun hc => h (congrArg some hc.1)
  | _ => rfl

section Entry

variable (context : UInt16) (r : Registration) (before : Option ContextEntry)

theorem name_entry : (r.entry context before).map (·.name) =
    (r.contextName? context).or (before.map (·.name)) := by
  unfold entry
  by_cases h : r.inside? = some context
  · rw [if_pos h, contextName?_of_inside h, Option.map_map]
    simp only [Function.comp_def, name_change]
    rfl
  · rw [if_neg h]
    cases r.contextName? context <;> rfl

variable {context r}

/-- A table of a context that calls inside of it extend, and no other calls touch. -/
theorem table_entry {table : ContextEntry → Table String} {id : UInt16} {given : Option String}
    (hfresh : ∀ name, table { name } = {}) (hrename : ∀ entry name, table { entry with name } = table entry)
    (hinside : r.inside? = some context → ∀ entry,
      (table (r.change entry)).get? id = given.or ((table entry).get? id))
    (houtside : r.inside? ≠ some context → given = none) :
    (r.entry context before).bind (fun entry => (table entry).get? id) =
      (before.bind fun _ => given).or (before.bind fun entry => (table entry).get? id) := by
  unfold entry
  by_cases h : r.inside? = some context
  · rw [if_pos h]
    cases before with
    | none => rfl
    | some entry => exact hinside h entry
  · rw [if_neg h, houtside h]
    cases r.contextName? context with
    | none => cases before <;> rfl
    | some name =>
      cases before with
      | none =>
        show (table { name }).get? id = none
        rw [hfresh]
        rfl
      | some entry =>
        show (table { entry with name }).get? id = (table entry).get? id
        rw [hrename]

variable (context r)

theorem state_entry (state : UInt16) : (r.entry context before).bind (·.states.get? state) =
    (before.bind fun _ => r.stateName? context state).or (before.bind (·.states.get? state)) := by
  refine table_entry before (fun _ => rfl) (fun _ _ => rfl) (fun h entry => ?_) fun h => stateName?_of_ne h state
  cases r with
  | state c s name =>
    cases h
    show (entry.states.insert s name).get? state = (if context = context ∧ s = state then some name else none).or _
    rw [Table.get?_insert_eq_or]
    simp only [true_and]
  | entity => rfl
  | _ => cases h

theorem entity_entry (entity : UInt16) : (r.entry context before).bind (·.entities.get? entity) =
    (before.bind fun _ => r.entityName? context entity).or (before.bind (·.entities.get? entity)) := by
  refine table_entry before (fun _ => rfl) (fun _ _ => rfl) (fun h entry => ?_) fun h => entityName?_of_ne h entity
  cases r with
  | entity c e name =>
    cases h
    show (entry.entities.insert e name).get? entity = (if context = context ∧ e = entity then some name else none).or _
    rw [Table.get?_insert_eq_or]
    simp only [true_and]
  | state => rfl
  | _ => cases h

end Entry

end Registration

/-! ## One more call -/

namespace Names

section Call

variable {n n' : Names} {r : Registration} {context : UInt16}

theorem registered_of_ok (h : register r n = .ok () n') : n.registered r = n' := by
  unfold registered
  rw [h]

theorem registered_of_error {e : NameError} (h : register r n = .error e n') : n.registered r = n' := by
  unfold registered
  rw [h]

theorem register_inside (h : r.inside? = some context) : register r = inContext context r.change := by
  cases r with
  | state => cases h; rfl
  | entity => cases h; rfl
  | _ => cases h

theorem register_of_none (h : r.inside? = some context) (hentry : n.contexts.get? context = none) :
    register r n = .error (.unregisteredContext context) n := by
  rw [register_inside h, inContext, hentry]

theorem register_of_some (h : r.inside? = some context) {entry : ContextEntry}
    (hentry : n.contexts.get? context = some entry) :
    register r n = .ok () { n with contexts := n.contexts.insert context (r.change entry) } := by
  rw [register_inside h, inContext, hentry]

/-- A call fails if it gives a name inside a context that has no entry, and then changes nothing. -/
theorem register_eq_error_iff {e : NameError} : register r n = .error e n' ↔ (∃ context, r.inside? = some context ∧
    n.contexts.get? context = none ∧ e = .unregisteredContext context) ∧ n' = n := by
  constructor
  · intro h
    cases hinside : r.inside? with
    | none =>
      cases r with
      | state => cases hinside
      | entity => cases hinside
      | _ => cases h
    | some context =>
      cases hentry : n.contexts.get? context with
      | none =>
        rw [register_of_none hinside hentry] at h
        cases h
        exact ⟨⟨context, rfl, hentry, rfl⟩, rfl⟩
      | some entry =>
        rw [register_of_some hinside hentry] at h
        cases h
  · rintro ⟨⟨context, hinside, hentry, rfl⟩, rfl⟩
    exact register_of_none hinside hentry

/-- A call inside a context changes nothing but the entry of this context, if there is one. -/
theorem registered_inside (h : r.inside? = some context) :
    n.registered r = { n with contexts := (n.registered r).contexts } ∧
      ∀ id, (n.registered r).contexts.get? id =
        if context = id then (n.contexts.get? context).map r.change else n.contexts.get? id := by
  cases hentry : n.contexts.get? context with
  | none =>
    rw [registered_of_error (register_of_none h hentry)]
    refine ⟨rfl, fun id => ?_⟩
    by_cases hid : context = id
    · rw [if_pos hid, ← hid, hentry]
      rfl
    · rw [if_neg hid]
  | some entry =>
    rw [registered_of_ok (register_of_some h hentry)]
    refine ⟨rfl, fun id => ?_⟩
    show (n.contexts.insert context (r.change entry)).get? id = _
    rw [Table.get?_insert]
    simp only [eq_comm]
    rfl

end Call

section Tables

variable (n : Names) (r : Registration)

theorem enabled_registered : some (n.registered r).enabled = r.switch?.or (some n.enabled) := by
  cases r with
  | state c s name => rw [(registered_inside (r := .state c s name) rfl).1]; rfl
  | entity c e name => rw [(registered_inside (r := .entity c e name) rfl).1]; rfl
  | _ => rfl

theorem commonStates_registered (state : UInt16) :
    (n.registered r).commonStates.get? state = (r.commonStateName? state).or (n.commonStates.get? state) := by
  cases r with
  | commonState s name => exact n.commonStates.get?_insert_eq_or s state name
  | state c s name => rw [(registered_inside (r := .state c s name) rfl).1]; rfl
  | entity c e name => rw [(registered_inside (r := .entity c e name) rfl).1]; rfl
  | _ => rfl

theorem commonEntities_registered (entity : UInt16) :
    (n.registered r).commonEntities.get? entity = (r.commonEntityName? entity).or (n.commonEntities.get? entity) := by
  cases r with
  | commonEntity e name => exact n.commonEntities.get?_insert_eq_or e entity name
  | state c s name => rw [(registered_inside (r := .state c s name) rfl).1]; rfl
  | entity c e name => rw [(registered_inside (r := .entity c e name) rfl).1]; rfl
  | _ => rfl

theorem get?_contexts_registered (context : UInt16) :
    (n.registered r).contexts.get? context = r.entry context (n.contexts.get? context) := by
  have hinside {c : UInt16} (h : r.inside? = some c) :
      (n.registered r).contexts.get? context = r.entry context (n.contexts.get? context) := by
    rw [(registered_inside h).2]
    unfold Registration.entry
    by_cases hc : c = context
    · subst hc
      rw [if_pos rfl, if_pos h]
    · rw [if_neg hc, if_neg fun h' => hc (Option.some.inj (h.symm.trans h')), Registration.contextName?_of_inside h]
      rfl
  cases r with
  | context c name =>
    show (n.nameContext c name).contexts.get? context = (if c = context then some name else none).elim _ _
    unfold nameContext
    dsimp only
    rw [Table.get?_insert_eq_or]
    by_cases hc : c = context
    · rw [if_pos hc, if_pos hc, hc]
      cases n.contexts.get? context <;> rfl
    · rw [if_neg hc, if_neg hc]
      rfl
  | state => exact hinside rfl
  | entity => exact hinside rfl
  | _ => rfl

theorem name_registered (context : UInt16) : ((n.registered r).contexts.get? context).map (·.name) =
    (r.contextName? context).or ((n.contexts.get? context).map (·.name)) := by
  rw [get?_contexts_registered, Registration.name_entry]

theorem state_registered (context state : UInt16) :
    ((n.registered r).contexts.get? context).bind (·.states.get? state) =
      ((n.contexts.get? context).bind fun _ => r.stateName? context state).or
        ((n.contexts.get? context).bind (·.states.get? state)) := by
  rw [get?_contexts_registered, Registration.state_entry]

theorem entity_registered (context entity : UInt16) :
    ((n.registered r).contexts.get? context).bind (·.entities.get? entity) =
      ((n.contexts.get? context).bind fun _ => r.entityName? context entity).or
        ((n.contexts.get? context).bind (·.entities.get? entity)) := by
  rw [get?_contexts_registered, Registration.entity_entry]

end Tables

end Names

/-! ## All calls -/

open Registration (last successes contextName? stateName? entityName? commonStateName? commonEntityName? switch?)

namespace Names

section Calls

variable {α : Type} {given? : Registration → Option α}

/-- What each call puts in front of what was answered before is answered behind all calls from the last of them. -/
theorem ofCalls_eq_last {f : Names → Option α} (hstep : ∀ n r, f (n.registered r) = (given? r).or (f n))
    (calls : List Registration) : f (ofCalls calls) = (last given? calls).or (f {}) := by
  induction calls using List.reverseRecOn with
  | nil => rfl
  | append_singleton calls r ih => rw [ofCalls_concat, hstep, ih, Registration.last_concat, Option.or_assoc]

theorem enabled_ofCalls (calls : List Registration) : (ofCalls calls).enabled = (last switch? calls).getD true := by
  have h := ofCalls_eq_last (f := fun n => some n.enabled) enabled_registered calls
  rw [Option.or_some] at h
  exact Option.some.inj h

theorem name_ofCalls (calls : List Registration) (context : UInt16) :
    ((ofCalls calls).contexts.get? context).map (·.name) = last (contextName? context) calls := by
  rw [ofCalls_eq_last (f := fun n => (n.contexts.get? context).map (·.name)) fun n r => n.name_registered r context]
  exact Option.or_none

theorem commonState_ofCalls (calls : List Registration) (state : UInt16) :
    (ofCalls calls).commonStates.get? state = last (commonStateName? state) calls := by
  rw [ofCalls_eq_last (f := fun n => n.commonStates.get? state) fun n r => n.commonStates_registered r state]
  exact Option.or_none

theorem commonEntity_ofCalls (calls : List Registration) (entity : UInt16) :
    (ofCalls calls).commonEntities.get? entity = last (commonEntityName? entity) calls := by
  rw [ofCalls_eq_last (f := fun n => n.commonEntities.get? entity) fun n r => n.commonEntities_registered r entity]
  exact Option.or_none

theorem entry_ofCalls_eq_none_iff {calls : List Registration} {context : UInt16} :
    (ofCalls calls).contexts.get? context = none ↔ last (contextName? context) calls = none := by
  rw [← name_ofCalls, Option.map_eq_none_iff]

/-- What a call gives inside a context counts if the call is allowed. -/
theorem bind_entry_ofCalls {calls : List Registration} {context : UInt16} {r : Registration} {given : Option α}
    (houtside : r.inside? ≠ some context → given = none) :
    ((ofCalls calls).contexts.get? context).bind (fun _ => given) = if r.allowed calls then given else none := by
  by_cases hr : r.inside? = some context
  · cases hallowed : r.allowed calls with
    | false =>
      obtain ⟨c, hc, hlast⟩ := Registration.allowed_eq_false_iff.1 hallowed
      obtain rfl := Option.some.inj (hr.symm.trans hc)
      rw [entry_ofCalls_eq_none_iff.2 hlast]
      rfl
    | true =>
      cases hentry : (ofCalls calls).contexts.get? context with
      | none =>
        have hrefused := Registration.allowed_eq_false_iff.2 ⟨context, hr, entry_ofCalls_eq_none_iff.1 hentry⟩
        rw [hallowed] at hrefused
        cases hrefused
      | some entry => rfl
  · rw [houtside hr, ite_self]
    cases (ofCalls calls).contexts.get? context <;> rfl

/-- The same as `ofCalls_eq_last` for what is kept inside a context: of the calls only those that succeed count. -/
theorem ofCalls_eq_last_success {f : Names → Option α} (context : UInt16) (hnil : f {} = none)
    (houtside : ∀ r, r.inside? ≠ some context → given? r = none)
    (hstep : ∀ (n : Names) r, f (n.registered r) = ((n.contexts.get? context).bind fun _ => given? r).or (f n))
    (calls : List Registration) : f (ofCalls calls) = last given? (successes [] calls) := by
  induction calls using List.reverseRecOn with
  | nil => exact hnil
  | append_singleton calls r ih =>
    rw [ofCalls_concat, hstep, ih, bind_entry_ofCalls (houtside r), Registration.last_successes_concat]

theorem state_ofCalls (calls : List Registration) (context state : UInt16) :
    ((ofCalls calls).contexts.get? context).bind (·.states.get? state) =
      last (stateName? context state) (successes [] calls) :=
  ofCalls_eq_last_success (f := fun n => (n.contexts.get? context).bind (·.states.get? state)) context rfl
    (fun _ h => Registration.stateName?_of_ne h state) (fun n r => n.state_registered r context state) calls

theorem entity_ofCalls (calls : List Registration) (context entity : UInt16) :
    ((ofCalls calls).contexts.get? context).bind (·.entities.get? entity) =
      last (entityName? context entity) (successes [] calls) :=
  ofCalls_eq_last_success (f := fun n => (n.contexts.get? context).bind (·.entities.get? entity)) context rfl
    (fun _ h => Registration.entityName?_of_ne h entity) (fun n r => n.entity_registered r context entity) calls

end Calls

end Names

/-! ## Answers -/

/-- The text is the id in four digits of base 16, in lower case. -/
structure InDigits (text : String) (id : UInt16) : Prop where
  length : text.toList.length = 4
  digits : ∀ c ∈ text.toList, c ∈ Digits.all
  value : Digits.value 16 text.toList = id.toNat

theorem inDigits_hexId (id : UInt16) : InDigits (hexId id) id where
  length := Digits.length_hex (by decide) id.toNat_lt
  digits := Digits.mem_hex 4 id.toNat
  value := Digits.value_hex 4 id.toNat

namespace Names

/-- The names answer as the calls say.  The last call that gives a name wins; a name for all contexts wins over one inside
a context, for which a call counts only if it succeeded. -/
structure Answers (n : Names) (calls : List Registration) : Prop where
  context : ∀ context, n.context? context = last (contextName? context) calls
  state : ∀ context state, n.state? context state =
    (last (commonStateName? state) calls).or (last (stateName? context state) (successes [] calls))
  entity : ∀ context entity, n.entity? context entity =
    (last (commonEntityName? entity) calls).or (last (entityName? context entity) (successes [] calls))

/-- No id has a name, and each is shown by its four digits. -/
structure Silent (n : Names) : Prop where
  context : ∀ context, n.context? context = none ∧ InDigits (n.showContext context) context
  state : ∀ context state, n.state? context state = none ∧ InDigits (n.showState context state) state
  entity : ∀ context entity, n.entity? context entity = none ∧ InDigits (n.showEntity context entity) entity

theorem answers_enable (calls : List Registration) : ((ofCalls calls).enable true).Answers calls where
  context context := name_ofCalls calls context
  state context state := by
    rw [← commonState_ofCalls, ← state_ofCalls]
    rfl
  entity context entity := by
    rw [← commonEntity_ofCalls, ← entity_ofCalls]
    rfl

theorem silent_of_disabled {n : Names} (h : n.enabled = false) : n.Silent where
  context context := by
    rw [showContext_of_disabled h]
    exact ⟨context?_of_disabled h context, inDigits_hexId context⟩
  state context state := by
    rw [showState_of_disabled h]
    exact ⟨state?_of_disabled h context state, inDigits_hexId state⟩
  entity context entity := by
    rw [showEntity_of_disabled h]
    exact ⟨entity?_of_disabled h context entity, inDigits_hexId entity⟩

/-- A context that is registered, perhaps once more, keeps the states inside it. -/
theorem state?_registered_context (n : Names) (context : UInt16) (name : String) :
    (n.registered (.context context name)).state? = n.state? := by
  funext id state
  unfold state?
  rw [n.state_registered]
  cases n.contexts.get? id <;> rfl

theorem entity?_registered_context (n : Names) (context : UInt16) (name : String) :
    (n.registered (.context context name)).entity? = n.entity? := by
  funext id entity
  unfold entity?
  rw [n.entity_registered]
  cases n.contexts.get? id <;> rfl

end Names

/-- Names answer from the calls that were made.  A call fails exactly if it gives a name inside a context that no call
before it registered; then it leaves the names as they were, and might as well not have been made.  With resolution on,
an answer is the last name given for all contexts, else the last given inside the context by a call that succeeded,
whatever contexts were renamed in between; with resolution off there are no names, and switching it on brings all answers
back. -/
theorem answers_from_calls (calls : List Registration) :
    (∀ r e n', Names.register r (Names.ofCalls calls) = .error e n' ↔ (∃ context, r.inside? = some context ∧
      e = .unregisteredContext context ∧ ∀ name, .context context name ∉ calls) ∧ n' = Names.ofCalls calls) ∧
    (∀ r e n' later, Names.register r (Names.ofCalls calls) = .error e n' →
      Names.ofCalls (calls ++ r :: later) = Names.ofCalls (calls ++ later)) ∧
    (last switch? calls ≠ some false → (Names.ofCalls calls).Answers calls) ∧
    (last switch? calls = some false → (Names.ofCalls calls).Silent) ∧
    (Names.ofCalls (calls ++ [.enable true])).Answers calls ∧
    ∀ context name, (Names.ofCalls (calls ++ [.context context name])).state? = (Names.ofCalls calls).state? ∧
      (Names.ofCalls (calls ++ [.context context name])).entity? = (Names.ofCalls calls).entity? := by
  refine ⟨fun r e n' => ?_, fun r e n' later h => ?_, fun h => ?_, fun h => ?_, ?_, fun context name => ?_⟩
  · rw [Names.register_eq_error_iff]
    simp only [Names.entry_ofCalls_eq_none_iff, Registration.last_contextName?_eq_none_iff]
    simp only [and_comm]
  · have hsame : (Names.ofCalls calls).registered r = Names.ofCalls calls :=
      (Names.registered_of_error h).trans (Names.register_eq_error_iff.1 h).2
    unfold Names.ofCalls at hsame ⊢
    rw [List.foldl_append, List.foldl_cons, hsame, List.foldl_append]
  · have henabled : (Names.ofCalls calls).enabled = true := by
      rw [Names.enabled_ofCalls]
      cases hlast : last switch? calls with
      | none => rfl
      | some enabled =>
        cases enabled with
        | false => exact absurd hlast h
        | true => rfl
    have hanswers := Names.answers_enable calls
    rwa [Names.enable_eq_self henabled] at hanswers
  · refine Names.silent_of_disabled ?_
    rw [Names.enabled_ofCalls, h]
    rfl
  · rw [Names.ofCalls_concat]
    exact Names.answers_enable calls
  · rw [Names.ofCalls_concat]
    exact ⟨Names.state?_registered_context _ context name, Names.entity?_registered_context _ context name⟩

/-- A context is renamed, one of its states has a name for all contexts too, and the first call fails. -/
def renamed : List Registration :=
  [.state 5 1 "EARLY", .context 5 "RADIO", .commonState 7 "CREATE", .state 5 1 "ON", .enable false, .state 5 7 "OFF",
    .context 5 "RF", .enable true]

theorem answers_from_calls_renamed : (Names.ofCalls renamed).context? 5 = some "RF" ∧
    (Names.ofCalls renamed).state? 5 1 = some "ON" ∧ (Names.ofCalls renamed).state? 5 7 = some "CREATE" ∧
    Names.register (.entity 6 0 "CC2420") (Names.ofCalls renamed) =
      .error (.unregisteredContext 6) (Names.ofCalls renamed) ∧
    Names.ofCalls (renamed ++ [.entity 6 0 "CC2420", .context 6 "CPU"]) =
      Names.ofCalls (renamed ++ [.context 6 "CPU"]) ∧
    (Names.ofCalls (renamed ++ [.enable false])).Silent := by
  obtain ⟨hfails, hlater, hanswers, -⟩ := answers_from_calls renamed
  obtain ⟨-, -, -, hsilent, -⟩ := answers_from_calls (renamed ++ [.enable false])
  have hfail : Names.register (.entity 6 0 "CC2420") (Names.ofCalls renamed) =
      .error (.unregisteredContext 6) (Names.ofCalls renamed) :=
    (hfails _ _ _).2 ⟨⟨6, rfl, rfl, fun name => by simp [renamed]⟩, rfl⟩
  have hon := hanswers (by decide)
  exact ⟨hon.context 5, hon.state 5 1, hon.state 5 7, hfail, hlater _ _ _ _ hfail, hsilent (by decide)⟩

end NodeTrace
