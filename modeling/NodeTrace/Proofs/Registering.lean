import NodeTrace.Proofs.Registrations

/-!
# Registering by many calls

Calls that are made one after the other, up to one that fails (`Names.registerAll`), all succeed if each context inside
which they give names is registered in front of them (`Names.exists_registerAll_append`).  Behind calls that all succeed
each table answers with what the last of them gives, else as before (`Names.eq_last_of_registerAll`), so calls of which
the last give alike leave names that answer alike, whatever was registered before (`Names.answerAlike_of_registerAll`).
-/

namespace NodeTrace

open Registration (last contextName? stateName? entityName? commonStateName? commonEntityName? switch?)

/-! ## Calls that give alike -/

namespace Registration

/-- The last calls that give something give alike. -/
structure GiveAlike (calls calls' : List Registration) : Prop where
  switch : last switch? calls' = last switch? calls
  context : ∀ context, last (contextName? context) calls' = last (contextName? context) calls
  state : ∀ context state, last (stateName? context state) calls' = last (stateName? context state) calls
  entity : ∀ context entity, last (entityName? context entity) calls' = last (entityName? context entity) calls
  commonState : ∀ state, last (commonStateName? state) calls' = last (commonStateName? state) calls
  commonEntity : ∀ entity, last (commonEntityName? entity) calls' = last (commonEntityName? entity) calls

section Alike

variable {α : Type} {given? : Registration → Option α} {calls calls' : List Registration}

theorem last_append (calls calls' : List Registration) :
    last given? (calls ++ calls') = (last given? calls').or (last given? calls) := by
  unfold last
  rw [List.filterMap_append, List.getLast?_append]

/-- Calls that are made twice give what they give. -/
theorem giveAlike_twice (calls : List Registration) : GiveAlike calls (calls ++ calls) := by
  have htwice {α : Type} (given? : Registration → Option α) : last given? (calls ++ calls) = last given? calls := by
    rw [last_append, Option.or_self]
  exact ⟨htwice _, fun _ => htwice _, fun _ _ => htwice _, fun _ _ => htwice _, fun _ => htwice _, fun _ => htwice _⟩

/-- What only calls in one place give is given by the last of these. -/
theorem last_filter {place : Option UInt16} (h : ∀ r, r.inside? ≠ place → given? r = none) :
    last given? (calls.filter (·.inside? = place)) = last given? calls := by
  have hgiven : (fun r : Registration => if decide (r.inside? = place) = true then given? r else none) = given? := by
    funext r
    by_cases hr : r.inside? = place
    · rw [if_pos (decide_eq_true hr)]
    · rw [if_neg (by simpa using hr), h r hr]
  unfold last
  rw [List.filterMap_filter, hgiven]

/-- Of calls that are made in one place those in any place are all or none. -/
theorem filter_place {place : Option UInt16} (calls : List Registration) (h : ∀ r ∈ calls, r.inside? = place)
    (place' : Option UInt16) : calls.filter (·.inside? = place') = if place' = place then calls else [] := by
  split
  · rename_i heq
    exact List.filter_eq_self.2 fun r hr => decide_eq_true ((h r hr).trans heq.symm)
  · rename_i hne
    exact List.filter_eq_nil_iff.2 fun r hr hin => hne ((of_decide_eq_true hin).symm.trans (h r hr))

/-- Calls give alike if those inside each context, and those inside none, are the same in the same order. -/
theorem giveAlike_of_filter
    (h : ∀ place : Option UInt16, calls'.filter (·.inside? = place) = calls.filter (·.inside? = place)) :
    GiveAlike calls calls' := by
  have hlast {α : Type} {given? : Registration → Option α} {place : Option UInt16}
      (hplace : ∀ r, r.inside? ≠ place → given? r = none) : last given? calls' = last given? calls := by
    rw [← last_filter hplace, h place, last_filter hplace]
  have hnone {α : Type} {given? : Registration → Option α} (hgiven : ∀ r c, r.inside? = some c → given? r = none) :
      last given? calls' = last given? calls :=
    hlast fun r (hr : r.inside? ≠ none) => by
      obtain ⟨c, hc⟩ := Option.ne_none_iff_exists'.1 hr
      exact hgiven r c hc
  refine ⟨hnone ?_, fun context => hnone fun r c hc => contextName?_of_inside hc context,
    fun context state => hlast fun r hr => stateName?_of_ne hr state,
    fun context entity => hlast fun r hr => entityName?_of_ne hr entity, fun state => hnone ?_, fun entity => hnone ?_⟩
  all_goals
    intro r c hc
    cases r with
    | state => rfl
    | entity => rfl
    | _ => cases hc

end Alike

end Registration

namespace Names

/-- Both answer alike for every id, also if resolution is switched on or off. -/
structure AnswerAlike (n n' : Names) : Prop where
  enabled : n'.enabled = n.enabled
  context : ∀ enabled, (n'.enable enabled).context? = (n.enable enabled).context?
  state : ∀ enabled, (n'.enable enabled).state? = (n.enable enabled).state?
  entity : ∀ enabled, (n'.enable enabled).entity? = (n.enable enabled).entity?

/-! ## Calls that succeed -/

/-- Make calls one after the other, up to one that fails. -/
def registerAll (calls : List Registration) : Registering Unit := calls.forM register

section Succeed

variable {n n' n₁ : Names} {act next : Registering Unit} {calls calls' : List Registration} {r : Registration}

/-- An action goes on from the names that the one before it left. -/
theorem bind_of_ok (h : act n = .ok () n₁) : (do act; next) n = next n₁ := by
  show EStateM.bind act (fun _ => next) n = next n₁
  unfold EStateM.bind
  rw [h]

theorem bind_eq_ok_iff : (do act; next) n = .ok () n' ↔ ∃ n₁, act n = .ok () n₁ ∧ next n₁ = .ok () n' := by
  cases h : act n with
  | ok u n₁ =>
    rw [bind_of_ok h]
    simp
  | error e n₁ =>
    have hfails : (do act; next) n = .error e n₁ := by
      show EStateM.bind act (fun _ => next) n = _
      unfold EStateM.bind
      rw [h]
    rw [hfails]
    simp

theorem registerAll_cons : registerAll (r :: calls) = (do register r; registerAll calls) := rfl

theorem registerAll_append : registerAll (calls ++ calls') = (do registerAll calls; registerAll calls') := by
  unfold registerAll
  simp only [List.forM_eq_forM]
  exact List.forM_append

/-- A context that has an entry keeps one behind any call. -/
theorem isSome_contexts_registered {context : UInt16} (h : (n.contexts.get? context).isSome) (r : Registration) :
    ((n.registered r).contexts.get? context).isSome := by
  obtain ⟨entry, hentry⟩ := Option.isSome_iff_exists.1 h
  rw [get?_contexts_registered, hentry]
  unfold Registration.entry
  split
  · rfl
  · cases r.contextName? context <;> rfl

/-- Calls all succeed if the contexts inside which they give names have entries. -/
theorem exists_registerAll
    (h : ∀ r ∈ calls, ∀ context, r.inside? = some context → (n.contexts.get? context).isSome) :
    ∃ n', registerAll calls n = .ok () n' := by
  induction calls generalizing n with
  | nil => exact ⟨n, rfl⟩
  | cons r rest ih =>
    obtain ⟨hr, hrest⟩ := List.forall_mem_cons.1 h
    cases hregister : register r n with
    | error e n₁ =>
      obtain ⟨⟨context, hinside, hnone, -⟩, -⟩ := register_eq_error_iff.1 hregister
      have hsome := hr context hinside
      rw [hnone] at hsome
      cases hsome
    | ok _ n₁ =>
      obtain rfl := registered_of_ok hregister
      obtain ⟨n', hn'⟩ := ih fun r' hr' context hinside => isSome_contexts_registered (hrest r' hr' context hinside) r
      exact ⟨n', (registerAll_cons ▸ bind_of_ok hregister).trans hn'⟩

/-- What each call that succeeds puts in front of what was answered before is answered behind all of them from the last of
them. -/
theorem eq_last_of_registerAll {α : Type} {f : Names → Option α} {given? : Registration → Option α}
    (hstep : ∀ n n' r, register r n = .ok () n' → f n' = (given? r).or (f n))
    (h : registerAll calls n = .ok () n') : f n' = (last given? calls).or (f n) := by
  induction calls using List.reverseRecOn generalizing n' with
  | nil =>
    cases h
    rfl
  | append_singleton calls r ih =>
    rw [registerAll_append, bind_eq_ok_iff] at h
    obtain ⟨n₁, hcalls, hr⟩ := h
    rw [registerAll_cons, bind_eq_ok_iff] at hr
    obtain ⟨n₂, hr, hnil⟩ := hr
    cases hnil
    rw [hstep _ _ r hr, ih hcalls, Registration.last_concat, Option.or_assoc]

/-- What a call that succeeds gives inside a context counts. -/
theorem bind_given_of_register {α : Type} (h : register r n = .ok () n') {context : UInt16} {given : Option α}
    (houtside : r.inside? ≠ some context → given = none) :
    ((n.contexts.get? context).bind fun _ => given) = given := by
  cases hentry : n.contexts.get? context with
  | some entry => rfl
  | none =>
    refine (houtside fun hinside => ?_).symm
    rw [register_of_none hinside hentry] at h
    cases h

end Succeed

/-! ## Names behind calls that succeed -/

section Behind

variable {n n' : Names} {calls : List Registration} (h : registerAll calls n = .ok () n')
include h

theorem eq_last_of_registered {α : Type} {f : Names → Option α} {given? : Registration → Option α}
    (hstep : ∀ n r, f (n.registered r) = (given? r).or (f n)) : f n' = (last given? calls).or (f n) :=
  eq_last_of_registerAll (fun _ _ r hr => registered_of_ok hr ▸ hstep _ r) h

theorem enabled_of_registerAll : n'.enabled = (last switch? calls).getD n.enabled := by
  have hlast := eq_last_of_registered h (f := fun n => some n.enabled) enabled_registered
  rw [Option.or_some] at hlast
  exact Option.some.inj hlast

theorem name_of_registerAll (context : UInt16) : (n'.contexts.get? context).map (·.name) =
    (last (contextName? context) calls).or ((n.contexts.get? context).map (·.name)) :=
  eq_last_of_registered h (f := fun n => (n.contexts.get? context).map (·.name)) fun n r => n.name_registered r context

theorem commonState_of_registerAll (state : UInt16) :
    n'.commonStates.get? state = (last (commonStateName? state) calls).or (n.commonStates.get? state) :=
  eq_last_of_registered h (f := fun n => n.commonStates.get? state) fun n r => n.commonStates_registered r state

theorem commonEntity_of_registerAll (entity : UInt16) :
    n'.commonEntities.get? entity = (last (commonEntityName? entity) calls).or (n.commonEntities.get? entity) :=
  eq_last_of_registered h (f := fun n => n.commonEntities.get? entity) fun n r => n.commonEntities_registered r entity

theorem state_of_registerAll (context state : UInt16) : (n'.contexts.get? context).bind (·.states.get? state) =
    (last (stateName? context state) calls).or ((n.contexts.get? context).bind (·.states.get? state)) := by
  refine eq_last_of_registerAll (f := fun n => (n.contexts.get? context).bind (·.states.get? state))
    (fun n n' r hr => ?_) h
  rw [← registered_of_ok hr, state_registered,
    bind_given_of_register hr fun hr => Registration.stateName?_of_ne hr state]

theorem entity_of_registerAll (context entity : UInt16) : (n'.contexts.get? context).bind (·.entities.get? entity) =
    (last (entityName? context entity) calls).or ((n.contexts.get? context).bind (·.entities.get? entity)) := by
  refine eq_last_of_registerAll (f := fun n => (n.contexts.get? context).bind (·.entities.get? entity))
    (fun n n' r hr => ?_) h
  rw [← registered_of_ok hr, entity_registered,
    bind_given_of_register hr fun hr => Registration.entityName?_of_ne hr entity]

/-- Calls that give alike leave names that answer alike. -/
theorem answerAlike_of_registerAll {n'' : Names} {calls' : List Registration} (h' : registerAll calls' n = .ok () n'')
    (halike : Registration.GiveAlike calls calls') : n'.AnswerAlike n'' := by
  refine ⟨?_, fun enabled => ?_, fun enabled => ?_, fun enabled => ?_⟩
  · rw [enabled_of_registerAll h', enabled_of_registerAll h, halike.switch]
  · funext context
    show (if enabled then (n''.contexts.get? context).map (·.name) else none) =
      if enabled then (n'.contexts.get? context).map (·.name) else none
    rw [name_of_registerAll h', name_of_registerAll h, halike.context]
  · funext context state
    show (if enabled then (n''.commonStates.get? state).or ((n''.contexts.get? context).bind (·.states.get? state))
      else none) = if enabled then
        (n'.commonStates.get? state).or ((n'.contexts.get? context).bind (·.states.get? state)) else none
    rw [commonState_of_registerAll h', commonState_of_registerAll h, state_of_registerAll h', state_of_registerAll h,
      halike.commonState, halike.state]
  · funext context entity
    show (if enabled then (n''.commonEntities.get? entity).or ((n''.contexts.get? context).bind (·.entities.get? entity))
      else none) = if enabled then
        (n'.commonEntities.get? entity).or ((n'.contexts.get? context).bind (·.entities.get? entity)) else none
    rw [commonEntity_of_registerAll h', commonEntity_of_registerAll h, entity_of_registerAll h',
      entity_of_registerAll h, halike.commonEntity, halike.entity]

end Behind

/-- Calls all succeed if they give names only inside contexts that are registered in front of all of them. -/
theorem exists_registerAll_append {opening calls : List Registration} (hopening : ∀ r ∈ opening, r.inside? = none)
    (hcalls : ∀ r ∈ calls, r.allowed opening) (n : Names) : ∃ n', registerAll (opening ++ calls) n = .ok () n' := by
  obtain ⟨n₁, hn₁⟩ := exists_registerAll (n := n) fun r hr _ hinside => nomatch (hopening r hr).symm.trans hinside
  have hentries : ∀ r ∈ calls, ∀ context, r.inside? = some context → (n₁.contexts.get? context).isSome := by
    intro r hr context hinside
    by_contra hnone
    have hlast := name_of_registerAll hn₁ context
    rw [Option.not_isSome_iff_eq_none.1 hnone] at hlast
    have hrefused := Registration.allowed_eq_false_iff.2 ⟨context, hinside, (Option.or_eq_none_iff.1 hlast.symm).1⟩
    rw [hcalls r hr] at hrefused
    cases hrefused
  obtain ⟨n', hn'⟩ := exists_registerAll hentries
  exact ⟨n', (registerAll_append ▸ bind_of_ok hn₁).trans hn'⟩

/-- Calls that succeed and are made once more change no answer. -/
theorem answerAlike_of_twice {n n' n'' : Names} {calls : List Registration} (h : registerAll calls n = .ok () n')
    (h' : registerAll calls n' = .ok () n'') : n'.AnswerAlike n'' :=
  answerAlike_of_registerAll h ((registerAll_append ▸ bind_of_ok h).trans h') (Registration.giveAlike_twice calls)

end Names

end NodeTrace
