import Mathlib.Data.List.Nodup
import NodeTrace.Names.BuiltIn
import NodeTrace.Proofs.Labels

/-!
# Names that tell ids apart

An id is shown by its name or else by its digits, so two ids may be shown alike: by one name, or because one has the
digits of the other for its name.  `Names.Tells` rules this out, among contexts and among the states of each context.
The built-in names tell ids apart (`BuiltIn.tells`): no two of one kind are the same, and each has a letter that is no
digit.
-/

namespace NodeTrace

/-- The text can stand between double quotes in a line. -/
def Clean (text : String) : Prop := '"' ∉ text.toList ∧ '\n' ∉ text.toList

theorem Plain.clean {text : String} (h : Plain text) : Clean text :=
  ⟨fun hmem => (h _ hmem).1 rfl, fun hmem => (h _ hmem).2.2 rfl⟩

/-- Different contexts, and different states of one context, are shown by different text between double quotes. -/
structure Names.Tells (names : Names) : Prop where
  contexts : Function.Injective names.showContext
  states : ∀ context, Function.Injective (names.showState context)
  clean_context : ∀ context, Clean (names.showContext context)
  clean_state : ∀ context state, Clean (names.showState context state)

/-! ## Bindings -/

/-- An id as it is shown with these bindings. -/
def shown (bindings : List (UInt16 × String)) (id : UInt16) : String := (bindings.lookup id).getD (hexId id)

/-- The name has a letter that is no digit. -/
def Lettered (name : String) : Prop := ∃ c ∈ name.toList, c ∉ Digits.all

instance (name : String) : Decidable (Lettered name) := List.decidableBEx _ name.toList

/-- No two ids are bound to one name, and no name is the digits of an id. -/
def Telling (bindings : List (UInt16 × String)) : Prop :=
  (bindings.map Prod.snd).Nodup ∧ ∀ b ∈ bindings, Plain b.2 ∧ Lettered b.2

instance (bindings : List (UInt16 × String)) : Decidable (Telling bindings) :=
  inferInstanceAs (Decidable (_ ∧ ∀ b ∈ bindings, _))

section Bindings

variable {bindings : List (UInt16 × String)} {id id' : UInt16}

theorem mem_of_lookup {α : Type} {bindings : List (UInt16 × α)} {x : α} (h : bindings.lookup id = some x) :
    (id, x) ∈ bindings := by
  obtain ⟨before, behind, rfl, -⟩ := List.lookup_eq_some_iff.1 h
  exact List.mem_append_right _ List.mem_cons_self

theorem lookup_map_snd {α β : Type} (f : α → β) (bindings : List (UInt16 × α)) (id : UInt16) :
    (bindings.map fun b => (b.1, f b.2)).lookup id = (bindings.lookup id).map f := by
  induction bindings with
  | nil => rfl
  | cons b rest ih =>
    rw [List.map_cons, List.lookup_cons, List.lookup_cons, ih]
    cases id == b.1 <;> rfl

theorem shown_of_none (h : bindings.lookup id = none) : shown bindings id = hexId id := by
  unfold shown
  rw [h]
  rfl

theorem shown_of_some {name : String} (h : bindings.lookup id = some name) : shown bindings id = name := by
  unfold shown
  rw [h]
  rfl

/-- A name that has a letter which is no digit is not an id in digits. -/
theorem Lettered.ne_hexId {name : String} (h : Lettered name) (id : UInt16) : name ≠ hexId id := by
  rintro rfl
  obtain ⟨c, hc, hnot⟩ := h
  exact hnot (Digits.mem_hex 4 id.toNat c hc)

theorem Telling.injective (h : Telling bindings) : Function.Injective (shown bindings) := by
  intro id id' heq
  cases hid : bindings.lookup id with
  | none =>
    rw [shown_of_none hid] at heq
    cases hid' : bindings.lookup id' with
    | none =>
      rw [shown_of_none hid'] at heq
      exact hexId_injective heq
    | some name' =>
      rw [shown_of_some hid'] at heq
      exact absurd heq.symm ((h.2 _ (mem_of_lookup hid')).2.ne_hexId id)
  | some name =>
    rw [shown_of_some hid] at heq
    cases hid' : bindings.lookup id' with
    | none =>
      rw [shown_of_none hid'] at heq
      exact absurd heq ((h.2 _ (mem_of_lookup hid)).2.ne_hexId id')
    | some name' =>
      rw [shown_of_some hid'] at heq
      subst heq
      have hsame := List.inj_on_of_nodup_map h.1 (mem_of_lookup hid) (mem_of_lookup hid') rfl
      exact (Prod.mk.inj hsame).1

theorem Telling.plain (h : Telling bindings) (id : UInt16) : Plain (shown bindings id) := by
  cases hid : bindings.lookup id with
  | none =>
    rw [shown_of_none hid]
    exact (numeral_hexId id).plain
  | some name =>
    rw [shown_of_some hid]
    exact (h.2 _ (mem_of_lookup hid)).1

end Bindings

namespace Names

variable (names : Names) (context : UInt16)

/-- The names of contexts. -/
def contextBindings : List (UInt16 × String) := names.contexts.bindings.map fun b => (b.1, b.2.name)

/-- The names of states in a context, those for all contexts first. -/
def stateBindings : List (UInt16 × String) :=
  names.commonStates.bindings ++ ((names.contexts.get? context).map (·.states.bindings)).getD []

theorem showContext_eq (h : names.enabled = true) :
    names.showContext context = shown names.contextBindings context := by
  unfold showContext context? shown contextBindings
  rw [if_pos h, lookup_map_snd]
  rfl

theorem showState_eq (h : names.enabled = true) (state : UInt16) :
    names.showState context state = shown (names.stateBindings context) state := by
  unfold showState state? shown stateBindings
  rw [if_pos h, List.lookup_append]
  cases names.contexts.get? context <;> rfl

/-- While resolution is disabled all ids are shown by their digits. -/
theorem tells_disabled : (names.enable false).Tells where
  contexts := hexId_injective
  states _ := hexId_injective
  clean_context context := (numeral_hexId context).plain.clean
  clean_state _ state := (numeral_hexId state).plain.clean

variable {names}

/-- Names tell ids apart if those of the contexts do, and in each context those of its states. -/
theorem tells_enabled (hcontexts : Telling names.contextBindings)
    (hstates : ∀ context, Telling (names.stateBindings context)) : (names.enable true).Tells where
  contexts := by
    have hshow : (names.enable true).showContext = shown names.contextBindings :=
      funext fun context => showContext_eq (names.enable true) context rfl
    rw [hshow]
    exact hcontexts.injective
  states context := by
    have hshow : (names.enable true).showState context = shown (names.stateBindings context) :=
      funext fun state => showState_eq (names.enable true) context rfl state
    rw [hshow]
    exact (hstates context).injective
  clean_context context := by
    rw [showContext_eq (names.enable true) context rfl]
    exact (hcontexts.plain context).clean
  clean_state context state := by
    rw [showState_eq (names.enable true) context rfl]
    exact ((hstates context).plain state).clean

/-- Only the contexts that are registered have names of their own for states. -/
theorem telling_stateBindings (hcommon : Telling names.commonStates.bindings)
    (hregistered : ∀ b ∈ names.contexts.bindings, Telling (names.commonStates.bindings ++ b.2.states.bindings))
    (context : UInt16) : Telling (names.stateBindings context) := by
  unfold stateBindings
  cases hget : names.contexts.get? context with
  | none =>
    show Telling (names.commonStates.bindings ++ [])
    rwa [List.append_nil]
  | some entry => exact hregistered _ (mem_of_lookup hget)

end Names

/-! ## The built-in names -/

namespace BuiltIn

/-- The built-in names and no others. -/
def names : Names :=
  match register {} with
  | .ok _ names => names
  | .error _ names => names

theorem register_empty : register {} = .ok () names := by
  have hok : (match register {} with | .ok _ _ => true | .error _ _ => false) = true := by decide +kernel
  unfold names
  cases h : register {} with
  | ok _ names => rfl
  | error e names =>
    rw [h] at hok
    cases hok

/-- Resolved or not, ids are told apart. -/
theorem tells (enabled : Bool) : (names.enable enabled).Tells := by
  cases enabled with
  | false => exact names.tells_disabled
  | true =>
    refine Names.tells_enabled (by decide +kernel) (Names.telling_stateBindings (by decide +kernel) ?_)
    decide +kernel

theorem enable_names : names.enable true = names := Names.enable_eq_self (by decide +kernel)

/-- How the radio and its first two states are shown. -/
theorem show_radio : names.showContext radio = "RADIO" ∧ names.showState radio 0 = "ON" ∧
    names.showState radio 1 = "OFF" := by
  decide +kernel

end BuiltIn

end NodeTrace
