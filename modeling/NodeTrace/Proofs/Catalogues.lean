import Mathlib.Data.List.Basic
import NodeTrace.Proofs.Delivery
import NodeTrace.Proofs.Registering
import NodeTrace.Proofs.Telling
import NodeTrace.Run

/-!
# What a catalogue leaves behind

A catalogue is registered by calls, each context in front of the names inside it, so none of the calls fails
(`Names.exists_apply`).  The last of them that gives a name wins, so the last entry of a catalogue wins over earlier ones
and over what was registered before, and a catalogue that is registered twice leaves what it left at first
(`catalogue_applied`).  The built-in names are registered in an order of their own and are those of a catalogue still
(`BuiltIn.register_answerAlike`), so a job fails before it opens its trace only for want of the catalogue of its names
file (`Job.names_eq_error_iff`).
-/

namespace NodeTrace

/-! ## The last entry -/

/-- The name in the last entry of an id. -/
def Naming.last? (id : UInt16) (namings : List Naming) : Option String :=
  (namings.filter (·.id = id)).getLast?.map (·.name)

namespace Catalogue

/-- The name in the last entry of a context. -/
def contextName? (c : Catalogue) (context : UInt16) : Option String :=
  (c.contexts.filter (·.id = context)).getLast?.map (·.name)

/-- The name in the last entry of a state inside any entry of a context. -/
def stateName? (c : Catalogue) (context state : UInt16) : Option String :=
  Naming.last? state ((c.contexts.filter (·.id = context)).flatMap (·.states))

/-- The name in the last entry of an entity inside any entry of a context. -/
def entityName? (c : Catalogue) (context entity : UInt16) : Option String :=
  Naming.last? entity ((c.contexts.filter (·.id = context)).flatMap (·.entities))

end Catalogue

/-! ## The calls of a catalogue -/

/-- The calls that give names inside a context. -/
def callsInside (context : UInt16) (states entities : List Naming) : List Registration :=
  (states.map fun s => Registration.state context s.id s.name) ++ entities.map fun e => .entity context e.id e.name

/-- The calls that register a context and the names inside it. -/
def NamedContext.calls (c : NamedContext) : List Registration :=
  .context c.id c.name :: callsInside c.id c.states c.entities

/-- The calls that register a catalogue. -/
def Catalogue.calls (c : Catalogue) : List Registration :=
  c.contexts.flatMap NamedContext.calls ++
    ((c.commonStates.map fun s => Registration.commonState s.id s.name) ++
      c.commonEntities.map fun e => .commonEntity e.id e.name)

open Registration (last contextName? stateName? entityName? commonStateName? commonEntityName? switch?)

theorem inside?_of_mem_callsInside {context : UInt16} {states entities : List Naming} :
    ∀ r ∈ callsInside context states entities, r.inside? = some context :=
  List.forall_mem_append.2 ⟨List.forall_mem_map.2 fun _ _ => rfl, List.forall_mem_map.2 fun _ _ => rfl⟩

namespace Names

theorem applyContext_eq (c : NamedContext) : applyContext c = registerAll c.calls := by
  unfold applyContext registerAll NamedContext.calls callsInside
  simp only [List.forM_eq_forM, List.forM_cons, List.forM_append, List.forM_map]
  rfl

/-- A catalogue is registered call by call. -/
theorem apply_eq (c : Catalogue) : apply c = registerAll c.calls := by
  have hcontexts (contexts : List NamedContext) :
      contexts.forM applyContext = registerAll (contexts.flatMap NamedContext.calls) := by
    induction contexts with
    | nil => rfl
    | cons c rest ih =>
      rw [List.flatMap_cons, registerAll_append, ← applyContext_eq, ← ih]
      rfl
  unfold apply Catalogue.calls
  rw [hcontexts, registerAll_append]
  unfold registerAll
  simp only [List.forM_eq_forM, List.forM_append, List.forM_map]
  rfl

/-- The names inside a context can be registered, as the context is registered in front of them. -/
theorem exists_registerAll_context (n : Names) (c : NamedContext) : ∃ n', registerAll c.calls n = .ok () n' := by
  have hopening : ∀ r ∈ [Registration.context c.id c.name], r.inside? = none := by simp [Registration.inside?]
  have hallowed : ∀ r ∈ callsInside c.id c.states c.entities, r.allowed [.context c.id c.name] := by
    intro r hr
    unfold Registration.allowed
    rw [inside?_of_mem_callsInside r hr]
    simp [Registration.contextName?]
  exact exists_registerAll_append hopening hallowed n

/-- A catalogue can be registered, whatever was registered before. -/
theorem exists_apply (n : Names) (c : Catalogue) : ∃ n', apply c n = .ok () n' := by
  have hcontexts (contexts : List NamedContext) (n : Names) :
      ∃ n', registerAll (contexts.flatMap NamedContext.calls) n = .ok () n' := by
    induction contexts generalizing n with
    | nil => exact ⟨n, rfl⟩
    | cons c rest ih =>
      obtain ⟨n₁, hn₁⟩ := exists_registerAll_context n c
      obtain ⟨n', hn'⟩ := ih n₁
      exact ⟨n', by rw [List.flatMap_cons, registerAll_append, bind_of_ok hn₁, hn']⟩
  have houtside : ∀ r ∈ (c.commonStates.map fun s => Registration.commonState s.id s.name) ++
      (c.commonEntities.map fun e => .commonEntity e.id e.name), r.inside? = none :=
    List.forall_mem_append.2 ⟨List.forall_mem_map.2 fun _ _ => rfl, List.forall_mem_map.2 fun _ _ => rfl⟩
  obtain ⟨n₁, hn₁⟩ := hcontexts c.contexts n
  obtain ⟨n', hn'⟩ := exists_registerAll (n := n₁) fun r hr _ hinside => nomatch (houtside r hr).symm.trans hinside
  refine ⟨n', ?_⟩
  rw [apply_eq]
  unfold Catalogue.calls
  rw [registerAll_append, bind_of_ok hn₁, hn']

end Names

/-! ## What the calls of a catalogue give last -/

theorem Naming.last?_eq (id : UInt16) (namings : List Naming) :
    (namings.filterMap fun s => if s.id = id then some s.name else none).getLast? = last? id namings := by
  have hfilter : namings.filterMap (fun s => if s.id = id then some s.name else none) =
      (namings.filter (·.id = id)).map (·.name) := by
    rw [← List.filterMap_eq_map, List.filterMap_filter]
    simp
  rw [hfilter, List.getLast?_map]
  rfl

theorem flatMap_ite {α β : Type} (p : α → Prop) [DecidablePred p] (f : α → List β) (entries : List α) :
    (entries.flatMap fun a => if p a then f a else []) = (entries.filter p).flatMap f := by
  induction entries with
  | nil => rfl
  | cons a rest ih =>
    rw [List.flatMap_cons, ih]
    by_cases h : p a
    · rw [if_pos h, List.filter_cons_of_pos (by simpa using h), List.flatMap_cons]
    · rw [if_neg h, List.filter_cons_of_neg (by simpa using h), List.nil_append]

theorem flatMap_nothing {α β : Type} (entries : List α) : (entries.flatMap fun _ => ([] : List β)) = [] :=
  List.flatMap_eq_nil_iff.2 fun _ _ => rfl

/-- The last entry inside a context, among entries inside all of them. -/
theorem Naming.last?_inside (names : NamedContext → List Naming) (contexts : List NamedContext) (context id : UInt16) :
    (contexts.flatMap fun k =>
        (names k).filterMap fun s => if k.id = context ∧ s.id = id then some s.name else none).getLast? =
      last? id ((contexts.filter (·.id = context)).flatMap names) := by
  have hpart (k : NamedContext) :
      (names k).filterMap (fun s => if k.id = context ∧ s.id = id then some s.name else none) =
        if k.id = context then (names k).filterMap (fun s => if s.id = id then some s.name else none) else [] := by
    by_cases h : k.id = context
    · simp only [h, true_and, if_true]
    · simp only [h, false_and, if_false, List.filterMap_none]
  simp only [hpart]
  rw [flatMap_ite, ← List.filterMap_flatMap, last?_eq]

namespace Catalogue

/-- What calls give, part by part of the catalogue. -/
theorem filterMap_calls {α : Type} (given? : Registration → Option α) (c : Catalogue) : c.calls.filterMap given? =
    (c.contexts.flatMap fun k => (given? (.context k.id k.name)).toList ++
      ((k.states.filterMap fun s => given? (.state k.id s.id s.name)) ++
        k.entities.filterMap fun e => given? (.entity k.id e.id e.name))) ++
    ((c.commonStates.filterMap fun s => given? (.commonState s.id s.name)) ++
      c.commonEntities.filterMap fun e => given? (.commonEntity e.id e.name)) := by
  have hcontext (k : NamedContext) : k.calls.filterMap given? = (given? (.context k.id k.name)).toList ++
      ((k.states.filterMap fun s => given? (.state k.id s.id s.name)) ++
        k.entities.filterMap fun e => given? (.entity k.id e.id e.name)) := by
    unfold NamedContext.calls callsInside
    rw [List.filterMap_cons, List.filterMap_append, List.filterMap_map, List.filterMap_map]
    cases given? (.context k.id k.name) <;> rfl
  unfold calls
  rw [List.filterMap_append, List.filterMap_append, List.filterMap_map, List.filterMap_map, List.filterMap_flatMap]
  simp only [hcontext]
  rfl

theorem last_contextName? (c : Catalogue) (context : UInt16) :
    last (Registration.contextName? context) c.calls = c.contextName? context := by
  have hpart (k : NamedContext) : (if k.id = context then some k.name else none).toList =
      if k.id = context then [k.name] else [] := by
    by_cases h : k.id = context
    · rw [if_pos h, if_pos h]; rfl
    · rw [if_neg h, if_neg h]; rfl
  unfold last
  rw [filterMap_calls]
  simp only [Registration.contextName?, hpart, List.filterMap_none, List.append_nil]
  rw [flatMap_ite, ← List.map_eq_flatMap, List.getLast?_map]
  rfl

theorem last_stateName? (c : Catalogue) (context state : UInt16) :
    last (Registration.stateName? context state) c.calls = c.stateName? context state := by
  unfold last
  rw [filterMap_calls]
  simp only [Registration.stateName?, List.filterMap_none, List.append_nil, Option.toList_none, List.nil_append]
  exact Naming.last?_inside (·.states) c.contexts context state

theorem last_entityName? (c : Catalogue) (context entity : UInt16) :
    last (Registration.entityName? context entity) c.calls = c.entityName? context entity := by
  unfold last
  rw [filterMap_calls]
  simp only [Registration.entityName?, List.filterMap_none, List.append_nil, Option.toList_none, List.nil_append]
  exact Naming.last?_inside (·.entities) c.contexts context entity

theorem last_commonStateName? (c : Catalogue) (state : UInt16) :
    last (Registration.commonStateName? state) c.calls = Naming.last? state c.commonStates := by
  unfold last
  rw [filterMap_calls]
  simp only [Registration.commonStateName?, List.filterMap_none, List.append_nil, Option.toList_none,
    flatMap_nothing, List.nil_append]
  exact Naming.last?_eq state c.commonStates

theorem last_commonEntityName? (c : Catalogue) (entity : UInt16) :
    last (Registration.commonEntityName? entity) c.calls = Naming.last? entity c.commonEntities := by
  unfold last
  rw [filterMap_calls]
  simp only [Registration.commonEntityName?, List.filterMap_none, List.append_nil, Option.toList_none,
    flatMap_nothing, List.nil_append]
  exact Naming.last?_eq entity c.commonEntities

theorem last_switch? (c : Catalogue) : last switch? c.calls = none := by
  unfold last
  rw [filterMap_calls]
  simp only [switch?, List.filterMap_none, List.append_nil, Option.toList_none, flatMap_nothing, List.getLast?_nil]

end Catalogue

/-! ## Names behind a catalogue -/

namespace Names

/-- These names answer with the last entries of the catalogue, and from the names before it where it has none. -/
structure AnswersFrom (n' : Names) (c : Catalogue) (n : Names) : Prop where
  context : ∀ context, n'.context? context = (c.contextName? context).or (n.context? context)
  state : ∀ context state, n'.state? context state = (Naming.last? state c.commonStates).or
    ((n.commonStates.get? state).or ((c.stateName? context state).or (n.state? context state)))
  entity : ∀ context entity, n'.entity? context entity = (Naming.last? entity c.commonEntities).or
    ((n.commonEntities.get? entity).or ((c.entityName? context entity).or (n.entity? context entity)))

section Applied

variable {n n' : Names} {c : Catalogue} (h : apply c n = .ok () n')
include h

theorem enabled_of_apply : n'.enabled = n.enabled := by
  rw [enabled_of_registerAll (apply_eq c ▸ h), c.last_switch?]
  rfl

/-- Names that were on answer with the catalogue, common names in front of those inside a context. -/
theorem answersFrom_of_apply (hn : n.enabled = true) : n'.AnswersFrom c n := by
  have hn' : n'.enabled = true := (enabled_of_apply h).trans hn
  -- a common name from before the catalogue also is the answer from before it
  have hcommon (last? before? inside? insideBefore? : Option String) : (last?.or before?).or (inside?.or insideBefore?) =
      last?.or (before?.or (inside?.or (before?.or insideBefore?))) := by
    rw [Option.or_assoc]
    cases before? <;> rfl
  rw [apply_eq] at h
  constructor
  · intro context
    unfold context?
    rw [if_pos hn, if_pos hn', name_of_registerAll h, c.last_contextName?]
  · intro context state
    unfold state?
    rw [if_pos hn, if_pos hn', commonState_of_registerAll h, state_of_registerAll h, c.last_commonStateName?,
      c.last_stateName?, hcommon]
  · intro context entity
    unfold entity?
    rw [if_pos hn, if_pos hn', commonEntity_of_registerAll h, entity_of_registerAll h, c.last_commonEntityName?,
      c.last_entityName?, hcommon]

end Applied

end Names

/-! ## The built-in names -/

namespace BuiltIn

/-- The built-in names, context by context. -/
def catalogue : Catalogue where
  contexts := [
    { id := control, name := "CONTROL", states := numbered (oscillatorStates ++ ["CHECK"]),
      entities := controlEntities },
    { id := 1, name := "SCHED" },
    { id := 2, name := "NETIN" },
    { id := 3, name := "NETOUT" },
    { id := 4, name := "CPU" },
    { id := radio, name := "RADIO", states := numbered radioStates, entities := [⟨0, "CC2420"⟩] },
    { id := powerCycle, name := "POWERCYCLE", states := numbered powerCycleStates, entities := [⟨0, "CONTIKIMAC"⟩] }]
  commonStates := commonStates

/-- The calls that register the contexts and the states of all contexts. -/
def opening : List Registration :=
  (contexts.map fun c => Registration.context c.id c.name) ++ commonStates.map fun s => .commonState s.id s.name

/-- The calls that give names inside the contexts of the radio, of its power cycle and of control. -/
def inRadio : List Registration := callsInside radio (numbered radioStates) [⟨0, "CC2420"⟩]
def inPowerCycle : List Registration := callsInside powerCycle (numbered powerCycleStates) [⟨0, "CONTIKIMAC"⟩]
def inControl : List Registration := callsInside control (numbered (oscillatorStates ++ ["CHECK"])) controlEntities

/-- The built-in names are registered call by call. -/
theorem register_eq : register = Names.registerAll (opening ++ (inRadio ++ inPowerCycle ++ inControl)) := by
  have hcheck : numbered (oscillatorStates ++ ["CHECK"]) = numbered oscillatorStates ++ [⟨checkState, "CHECK"⟩] := rfl
  unfold register registerIndexed Names.registerAll opening inRadio inPowerCycle inControl callsInside
  rw [hcheck]
  simp only [List.forM_eq_forM, List.forM_append, List.forM_map, List.forM_cons, List.forM_nil, List.map_append,
    List.map_cons, List.map_nil, bind_assoc]
  rfl

/-- The built-in names can be registered, whatever was registered before: all contexts come first. -/
theorem exists_register (n : Names) : ∃ n', register n = .ok () n' := by
  have hallowed {context : UInt16} (hcontext : (opening.any fun p => (p.contextName? context).isSome) = true)
      (states entities : List Naming) : ∀ r ∈ callsInside context states entities, r.allowed opening := by
    intro r hr
    unfold Registration.allowed
    rw [inside?_of_mem_callsInside r hr]
    exact hcontext
  rw [register_eq]
  refine Names.exists_registerAll_append (by decide) (List.forall_mem_append.2 ⟨List.forall_mem_append.2 ⟨?_, ?_⟩, ?_⟩) n
  · exact hallowed (by decide) _ _
  · exact hallowed (by decide) _ _
  · exact hallowed (by decide) _ _

/-- The calls that register the contexts of a catalogue stand between those inside the contexts. -/
theorem calls_catalogue : catalogue.calls = [.context control "CONTROL"] ++ inControl ++
    [.context 1 "SCHED", .context 2 "NETIN", .context 3 "NETOUT", .context 4 "CPU", .context radio "RADIO"] ++ inRadio ++
    [.context powerCycle "POWERCYCLE"] ++ inPowerCycle ++ commonStates.map fun s => .commonState s.id s.name := by
  simp [Catalogue.calls, catalogue, NamedContext.calls, inControl, inRadio, inPowerCycle, callsInside]

/-- The built-in names are registered in another order than a catalogue is, but in each context in the same. -/
theorem giveAlike_catalogue :
    Registration.GiveAlike (opening ++ (inRadio ++ inPowerCycle ++ inControl)) catalogue.calls := by
  refine Registration.giveAlike_of_filter fun place => ?_
  have hradio := Registration.filter_place inRadio inside?_of_mem_callsInside place
  have hpowerCycle := Registration.filter_place inPowerCycle inside?_of_mem_callsInside place
  have hcontrol := Registration.filter_place inControl inside?_of_mem_callsInside place
  have houtside (calls : List Registration) (h : ∀ r ∈ calls, r.inside? = none) (context : UInt16) :
      calls.filter (·.inside? = some context) = [] := Registration.filter_place calls h (some context)
  rw [calls_catalogue]
  simp only [List.filter_append, hradio, hpowerCycle, hcontrol]
  cases place with
  | none => rfl
  | some context =>
    rw [houtside opening (by decide), houtside [.context control "CONTROL"] (by decide),
      houtside [.context 1 "SCHED", _, _, _, _] (by decide), houtside [.context powerCycle "POWERCYCLE"] (by decide),
      houtside (commonStates.map _) (by decide)]
    simp only [List.nil_append, List.append_nil]
    by_cases h : context = control
    · subst h
      rfl
    · rw [if_neg fun heq => h (Option.some.inj heq), List.nil_append, List.append_nil]

/-- The names that the calls leave answer as those of the catalogue. -/
theorem register_answerAlike (n : Names) : ∃ n', register n = .ok () n' ∧
    ∃ n'', Names.apply catalogue n = .ok () n'' ∧ n'.AnswerAlike n'' := by
  obtain ⟨n', h⟩ := exists_register n
  obtain ⟨n'', h'⟩ := Names.exists_apply n catalogue
  exact ⟨n', h, n'', h', Names.answerAlike_of_registerAll (register_eq ▸ h) (Names.apply_eq catalogue ▸ h')
    giveAlike_catalogue⟩

end BuiltIn

/-! ## Jobs -/

/-- A file that no catalogue can be had from, and how a job fails for it: it cannot be opened, or cannot be read as a
catalogue. -/
inductive Files.Lacks (files : Files) (read : CatalogueReader) (path : String) : RunError → Prop where
  | unopened {fault : Fault} : files path = .error fault → files.Lacks read path (.noNamesFile path fault)
  | unread {source : Source} {problem : Json.Problem} : files path = .ok source → read source = .error problem →
    files.Lacks read path (.badNamesFile path problem)

/-- The names of a job: the built-in ones and, on top of them, those of the names file that it asks for. -/
inductive Job.Has (job : Job) (read : CatalogueReader) (files : Files) : Names → Prop where
  | builtIn {n : Names} : job.namesFile = none → BuiltIn.register {} = .ok () n →
    job.Has read files (n.enable job.resolveNames)
  | file {path : String} {source : Source} {c : Catalogue} {n n' : Names} : job.namesFile = some path →
    files path = .ok source → read source = .ok c → BuiltIn.register {} = .ok () n → Names.apply c n = .ok () n' →
    job.Has read files (n'.enable job.resolveNames)

/-- What is read of a names file depends on the bytes that the file delivers and on how it closes behind them. -/
theorem Catalogue.read_eq {s : Source} (hs : s.Flows) :
    Catalogue.read s = Json.Scan.whole (Json.Scan.record Catalogue.shape) s.ahead s.close.fault? := by
  obtain ⟨hbytes, -, hending⟩ := Source.gather_spec hs (s.unread.length + 1)
  have hle := s.ahead_prefix.length_le
  unfold read
  dsimp only
  rw [hbytes, hending, List.take_of_length_le (by omega), if_neg (by omega)]

theorem mapError_bind_eq_error_iff {ε ε' α β : Type} {x : Except ε α} {f : ε → ε'} {g : α → Except ε' β} {e' : ε'} :
    (x.mapError f >>= g) = .error e' ↔ (∃ e, x = .error e ∧ f e = e') ∨ ∃ a, x = .ok a ∧ g a = .error e' := by
  cases x with
  | error e =>
    show Except.error (f e) = .error e' ↔ _
    simp
  | ok a =>
    show g a = .error e' ↔ _
    simp

theorem mapError_bind_eq_ok_iff {ε ε' α β : Type} {x : Except ε α} {f : ε → ε'} {g : α → Except ε' β} {b : β} :
    (x.mapError f >>= g) = .ok b ↔ ∃ a, x = .ok a ∧ g a = .ok b := by
  cases x with
  | error e =>
    show Except.error (f e) = .ok b ↔ _
    simp
  | ok a =>
    show g a = .ok b ↔ _
    simp

theorem Registering.on_of_ok {act : Registering Unit} {n n' : Names} (h : act n = .ok () n') : act.on n = .ok n' := by
  unfold on
  rw [h]

section AddFile

variable {n n' : Names} {read : CatalogueReader} {files : Files} {path : String} {e : RunError}

/-- Adding a names file fails for want of a catalogue, and for nothing else. -/
theorem Names.addFile_eq_error_iff : n.addFile read files path = .error e ↔ files.Lacks read path e := by
  have happly (c : Catalogue) : ((Names.apply c).on n).mapError (RunError.namesFile path) ≠ .error e := by
    obtain ⟨n', hn'⟩ := n.exists_apply c
    rw [Registering.on_of_ok hn']
    nofun
  unfold addFile
  rw [mapError_bind_eq_error_iff]
  simp only [mapError_bind_eq_error_iff, happly, and_false, exists_false, or_false]
  constructor
  · rintro (⟨fault, hfile, rfl⟩ | ⟨source, hfile, problem, hread, rfl⟩)
    · exact .unopened hfile
    · exact .unread hfile hread
  · rintro (hfile | ⟨hfile, hread⟩)
    · exact .inl ⟨_, hfile, rfl⟩
    · exact .inr ⟨_, hfile, _, hread, rfl⟩

theorem Names.addFile_eq_ok_iff : n.addFile read files path = .ok n' ↔
    ∃ source, files path = .ok source ∧ ∃ c, read source = .ok c ∧ Names.apply c n = .ok () n' := by
  have happly (c : Catalogue) :
      ((Names.apply c).on n).mapError (RunError.namesFile path) = .ok n' ↔ Names.apply c n = .ok () n' := by
    obtain ⟨n₁, hn₁⟩ := n.exists_apply c
    rw [Registering.on_of_ok hn₁, hn₁]
    show Except.ok n₁ = .ok n' ↔ _
    simp
  unfold addFile
  simp only [mapError_bind_eq_ok_iff, happly]

end AddFile

namespace Job

variable {job : Job} {read : CatalogueReader} {files : Files} {n : Names} (hn : BuiltIn.register {} = .ok () n)
include hn

theorem names_of_none (h : job.namesFile = none) : job.names read files = .ok (n.enable job.resolveNames) := by
  unfold names
  rw [Registering.on_of_ok hn, h]
  rfl

/-- The built-in names are there before a names file is opened. -/
theorem names_of_some {path : String} (h : job.namesFile = some path) :
    job.names read files = (n.addFile read files path).map (·.enable job.resolveNames) := by
  unfold names
  rw [Registering.on_of_ok hn, h]
  show (n.addFile read files path >>= fun names => Except.ok (names.enable job.resolveNames)) = _
  cases n.addFile read files path <;> rfl

/-- A job has names unless it asks for a names file that no catalogue can be had from. -/
theorem names_eq_error_iff {e : RunError} :
    job.names read files = .error e ↔ ∃ path, job.namesFile = some path ∧ files.Lacks read path e := by
  cases h : job.namesFile with
  | none =>
    rw [names_of_none hn h]
    simp
  | some path =>
    rw [names_of_some hn h]
    simp only [Option.some.injEq, exists_eq_left', ← Names.addFile_eq_error_iff (n := n)]
    cases n.addFile read files path <;> simp [Except.map]

theorem names_eq_ok_iff {names : Names} : job.names read files = .ok names ↔ job.Has read files names := by
  constructor
  · intro hnames
    cases h : job.namesFile with
    | none =>
      rw [names_of_none hn h] at hnames
      cases hnames
      exact .builtIn h hn
    | some path =>
      rw [names_of_some hn h] at hnames
      cases hadd : n.addFile read files path with
      | error e =>
        rw [hadd] at hnames
        cases hnames
      | ok n' =>
        rw [hadd] at hnames
        cases hnames
        obtain ⟨source, hopen, c, hread, happly⟩ := Names.addFile_eq_ok_iff.1 hadd
        exact .file h hopen hread hn happly
  · rintro (⟨h, hn'⟩ | ⟨h, hopen, hread, hn', happly⟩)
    · rw [names_of_none hn' h]
    · rw [names_of_some hn' h, Names.addFile_eq_ok_iff.2 ⟨_, hopen, _, hread, happly⟩]
      rfl

end Job

/-- A catalogue can be registered on top of any names, with resolution on or off as before, and doing it once more changes
no answer.  With resolution on, each context is then called by the name in its last entry; a state, or an entity, by the
last name for all contexts, be it from the catalogue or from before it, else by the last name in any entry of its context;
and what the catalogue does not name, as before.  The built-in names can be registered on top of any names as well, and
are those of a catalogue.  So whatever reads catalogues, a job has the names of its names file on top of the built-in
ones, unless the file cannot be opened or cannot be read as a catalogue. -/
theorem catalogue_applied (read : CatalogueReader) :
    (∀ (n : Names) (c : Catalogue), ∃ n', Names.apply c n = .ok () n' ∧ n'.enabled = n.enabled ∧
      (n.enabled = true → n'.AnswersFrom c n) ∧ ∃ n'', Names.apply c n' = .ok () n'' ∧ n'.AnswerAlike n'') ∧
    (∀ n : Names, ∃ n', BuiltIn.register n = .ok () n' ∧
      ∃ n'', Names.apply BuiltIn.catalogue n = .ok () n'' ∧ n'.AnswerAlike n'') ∧
    ∀ (job : Job) (files : Files), (∀ names, job.names read files = .ok names ↔ job.Has read files names) ∧
      ∀ e, job.names read files = .error e ↔ ∃ path, job.namesFile = some path ∧ files.Lacks read path e := by
  obtain ⟨builtIn, hbuiltIn⟩ := BuiltIn.exists_register {}
  refine ⟨fun n c => ?_, BuiltIn.register_answerAlike,
    fun job files => ⟨fun names => Job.names_eq_ok_iff hbuiltIn, fun e => Job.names_eq_error_iff hbuiltIn⟩⟩
  obtain ⟨n', h⟩ := n.exists_apply c
  obtain ⟨n'', h'⟩ := n'.exists_apply c
  exact ⟨n', h, Names.enabled_of_apply h, Names.answersFrom_of_apply h, n'', h',
    Names.answerAlike_of_twice (Names.apply_eq c ▸ h) (Names.apply_eq c ▸ h')⟩

/-- A catalogue that renames a built-in context twice, repeats a state and names another that has a name for all
contexts. -/
def repetitive : Catalogue where
  contexts := [{ id := 5, name := "RF", states := [⟨0, "IDLE"⟩, ⟨0, "UP"⟩] }, { id := 16, name := "APP" },
    { id := 5, name := "RF2", states := [⟨1, "DOWN"⟩, ⟨0xfffd, "MADE"⟩] }]
  commonStates := [⟨3, "HALT"⟩, ⟨3, "RESET"⟩]

/-- Names files on a bad medium: one is whole, one breaks off behind its first byte, of two the second byte cannot be
read, and the first byte of one of them is wrong as well. -/
def shelf : Files
  | "whole" => .ok (.ofBytes [0x7b, 0x7d])
  | "short" => .ok (.ofBytes [0x7b])
  | "torn" => .ok { unread := [0x7b], failure := some (1, .other "bad sector") }
  | "wrong" => .ok { unread := [0x78], failure := some (1, .other "bad sector") }
  | _ => .error .notFound

/-- A job that takes names from the shelf. -/
def shelfJob (path : String) : Job := { analysis := { mode := .report }, namesFile := some path, traceFile := "trace" }

theorem catalogue_applied_repetitive : BuiltIn.names.enabled = true ∧
    (∃ n', Names.apply repetitive BuiltIn.names = .ok () n' ∧
      n'.context? 5 = some "RF2" ∧ n'.context? 7 = none ∧ n'.state? 5 0 = some "UP" ∧ n'.state? 5 1 = some "DOWN" ∧
      n'.state? 5 2 = some "CCA" ∧ n'.state? 5 0xfffd = some "CREATE" ∧ n'.state? 9 3 = some "RESET" ∧
      n'.entity? 5 0 = some "CC2420" ∧ ∃ n'', Names.apply repetitive n' = .ok () n'' ∧ n'.AnswerAlike n'') ∧
    (∃ names, (shelfJob "whole").names Catalogue.read shelf = .ok names) ∧
    (shelfJob "none").names Catalogue.read shelf = .error (.noNamesFile "none" .notFound) ∧
    (shelfJob "short").names Catalogue.read shelf = .error (.badNamesFile "short" .unfinished) ∧
    (shelfJob "torn").names Catalogue.read shelf = .error (.badNamesFile "torn" (.unread (.other "bad sector"))) ∧
    (shelfJob "wrong").names Catalogue.read shelf = .error (.badNamesFile "wrong" .malformed) := by
  obtain ⟨happly, -, hjob⟩ := catalogue_applied Catalogue.read
  have hon : BuiltIn.names.enabled = true := by decide +kernel
  obtain ⟨n', hn', -, hanswers, n'', hagain, halike⟩ := happly BuiltIn.names repetitive
  have hfrom := hanswers hon
  obtain ⟨n₁, hn₁, -⟩ := happly BuiltIn.names {}
  have hwhole : shelf "whole" = .ok (.ofBytes [0x7b, 0x7d]) := rfl
  refine ⟨hon, ⟨n', hn', (hfrom.context 5).trans ?_, (hfrom.context 7).trans ?_, (hfrom.state 5 0).trans ?_,
    (hfrom.state 5 1).trans ?_, (hfrom.state 5 2).trans ?_, (hfrom.state 5 0xfffd).trans ?_, (hfrom.state 9 3).trans ?_,
    (hfrom.entity 5 0).trans ?_, n'', hagain, halike⟩,
    ⟨_, ((hjob _ shelf).1 _).2 (.file rfl hwhole ?_ BuiltIn.register_empty hn₁)⟩,
    ((hjob _ shelf).2 _).2 ⟨"none", rfl, .unopened rfl⟩,
    ((hjob _ shelf).2 _).2 ⟨"short", rfl, .unread rfl ?_⟩, ((hjob _ shelf).2 _).2 ⟨"torn", rfl, .unread rfl ?_⟩,
    ((hjob _ shelf).2 _).2 ⟨"wrong", rfl, .unread rfl ?_⟩⟩
  iterate 8 · decide +kernel
  all_goals
    rw [Catalogue.read_eq (by unfold Source.Flows; decide)]
    decide +kernel

end NodeTrace
