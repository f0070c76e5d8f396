import NodeTrace.Automaton.Basic
import NodeTrace.Proofs.Tables

/-!
# What automata show of the frames

An automaton keeps no history, but what it keeps is a function of the visits of its context: the states and the
transitions are those of the visits, in the order in which they first came, and a transition has the statistics of all
steps from its source to its destination (`Automaton.ofVisits`).  One more visit takes `ofVisits` of some visits to
`ofVisits` of one more (`observe_ofVisits`), because the scope that a state remembers is the scope of its last visit.
So observing frames never fails, and its outcome is `Automata.observed` (`ofFrames_eq`).
-/

namespace NodeTrace

/-! ## Visits and steps -/

/-- A state is entered in a scope. -/
structure Visit where
  scope : Scope
  state : UInt16
  deriving DecidableEq, Repr

/-- The context that a frame is about, if it reports a state change. -/
def Frame.context? (f : Frame) : Option UInt16 :=
  match f.event with
  | .monitorState change => some change.context
  | _ => none

/-- The visit of a context that a frame reports. -/
def Frame.visit? (context : UInt16) (f : Frame) : Option Visit :=
  match f.event with
  | .monitorState change => if change.context = context then some ⟨f.scope, change.state⟩ else none
  | _ => none

/-- The contexts of the state changes, in their order. -/
def contexts (frames : List Frame) : List UInt16 := frames.filterMap Frame.context?

/-- The visits of a context, in their order. -/
def visits (context : UInt16) (frames : List Frame) : List Visit := frames.filterMap (Frame.visit? context)

/-- Each visit but the last with the one that comes next. -/
def steps (vs : List Visit) : List (Visit × Visit) := vs.zip vs.tail

/-- The steps from one state to another. -/
def traversals (source destination : UInt16) (vs : List Visit) : List (Visit × Visit) :=
  (steps vs).filter fun t => t.1.state = source ∧ t.2.state = destination

/-- The states that come next after a state, in their order. -/
def successors (source : UInt16) (vs : List Visit) : List UInt16 :=
  ((steps vs).filter (·.1.state = source)).map (·.2.state)

/-! ## Automata of visits -/

/-- The statistics of steps. -/
def Statistics.ofSteps (ts : List (Visit × Visit)) : Statistics :=
  ts.foldl (fun s t => s.take t.1.scope t.2.scope) {}

/-- A state with the scope of its last visit and the transitions to its successors. -/
def StateNode.ofVisits (vs : List Visit) (state : UInt16) : StateNode where
  state := state
  lastScope := ((vs.filter (·.state = state)).getLast?.map (·.scope)).getD {}
  transitions := (successors state vs).eraseDups.map fun destination =>
    ⟨destination, .ofSteps (traversals state destination vs)⟩

/-- The automaton of a context with these visits. -/
def Automaton.ofVisits (context : UInt16) (vs : List Visit) : Automaton where
  context := context
  lastState := vs.getLast?.map (·.state)
  states := (vs.map (·.state)).eraseDups.map (StateNode.ofVisits vs)

/-- The automata of all contexts in frames. -/
def Automata.observed (frames : List Frame) : Automata where
  automata := (contexts frames).eraseDups.map fun context => .ofVisits context (visits context frames)

section Steps

theorem filter_concat {α : Type} (p : α → Prop) [DecidablePred p] (xs : List α) (x : α) :
    (xs ++ [x]).filter (fun y => p y) = xs.filter (fun y => p y) ++ if p x then [x] else [] := by
  rw [List.filter_append, List.filter_cons, List.filter_nil]
  simp only [decide_eq_true_eq]

variable {vs : List Visit} {u v : Visit}

theorem steps_concat (h : vs.getLast? = some u) (v : Visit) : steps (vs ++ [v]) = steps vs ++ [(u, v)] := by
  induction vs with
  | nil => cases h
  | cons w vs ih =>
    cases vs with
    | nil =>
      cases h
      rfl
    | cons w' vs =>
      rw [List.getLast?_cons_cons] at h
      show (w, w') :: steps (w' :: vs ++ [v]) = (w, w') :: (steps (w' :: vs) ++ [(u, v)])
      rw [ih h]

theorem mem_of_mem_steps {t : Visit × Visit} (h : t ∈ steps vs) : t.1 ∈ vs ∧ t.2 ∈ vs := by
  obtain ⟨h₁, h₂⟩ := List.of_mem_zip (show (t.1, t.2) ∈ vs.zip vs.tail from h)
  exact ⟨h₁, List.mem_of_mem_tail h₂⟩

theorem traversals_concat (h : vs.getLast? = some u) (v : Visit) (source destination : UInt16) :
    traversals source destination (vs ++ [v]) = traversals source destination vs ++
      if u.state = source ∧ v.state = destination then [(u, v)] else [] := by
  unfold traversals
  rw [steps_concat h, filter_concat]

theorem successors_concat (h : vs.getLast? = some u) (v : Visit) (source : UInt16) :
    successors source (vs ++ [v]) = successors source vs ++ if u.state = source then [v.state] else [] := by
  unfold successors
  rw [steps_concat h, filter_concat, List.map_append]
  by_cases hs : u.state = source
  · rw [if_pos hs, if_pos hs]
    rfl
  · rw [if_neg hs, if_neg hs]
    rfl

theorem mem_successors {source destination : UInt16} :
    destination ∈ successors source vs ↔ traversals source destination vs ≠ [] := by
  unfold successors traversals
  constructor
  · intro h
    obtain ⟨t, ht, rfl⟩ := List.mem_map.1 h
    obtain ⟨ht, hs⟩ := List.mem_filter.1 ht
    exact List.ne_nil_of_mem (List.mem_filter.2 ⟨ht, decide_eq_true ⟨of_decide_eq_true hs, rfl⟩⟩)
  · intro h
    obtain ⟨t, ht⟩ := List.exists_mem_of_ne_nil _ h
    obtain ⟨ht, hs⟩ := List.mem_filter.1 ht
    obtain ⟨hs, hd⟩ := of_decide_eq_true hs
    exact List.mem_map.2 ⟨t, List.mem_filter.2 ⟨ht, decide_eq_true hs⟩, hd⟩

/-- A state without a visit has no successor. -/
theorem successors_of_not_mem {state : UInt16} (h : state ∉ vs.map (·.state)) : successors state vs = [] := by
  unfold successors
  rw [List.map_eq_nil_iff, List.filter_eq_nil_iff]
  intro t ht hs
  exact h (List.mem_map.2 ⟨t.1, (mem_of_mem_steps ht).1, of_decide_eq_true hs⟩)

theorem ofSteps_concat (ts : List (Visit × Visit)) (t : Visit × Visit) :
    Statistics.ofSteps (ts ++ [t]) = (Statistics.ofSteps ts).take t.1.scope t.2.scope := by
  simp [Statistics.ofSteps, List.foldl_append]

end Steps

/-! ## One more visit -/

namespace StateNode

variable {vs : List Visit} {u v : Visit} {state : UInt16}

/-- A state without a visit is as a state is before it is entered. -/
theorem ofVisits_of_not_mem (h : state ∉ vs.map (·.state)) : StateNode.ofVisits vs state = { state } := by
  have hnone : vs.filter (·.state = state) = [] := by
    rw [List.filter_eq_nil_iff]
    intro v hv hs
    exact h (List.mem_map.2 ⟨v, hv, of_decide_eq_true hs⟩)
  unfold ofVisits
  rw [hnone, successors_of_not_mem h]
  rfl

theorem lastScope_concat (v : Visit) (state : UInt16) : (StateNode.ofVisits (vs ++ [v]) state).lastScope =
    if v.state = state then v.scope else (StateNode.ofVisits vs state).lastScope := by
  unfold ofVisits
  dsimp only
  rw [filter_concat]
  by_cases hs : v.state = state
  · rw [if_pos hs, if_pos hs, List.getLast?_concat]
    rfl
  · rw [if_neg hs, if_neg hs, List.append_nil]

/-- The state of the last visit remembers the scope of that visit. -/
theorem lastScope_last (h : vs.getLast? = some u) : (StateNode.ofVisits vs u.state).lastScope = u.scope := by
  obtain ⟨ws, rfl⟩ := List.getLast?_eq_some_iff.1 h
  rw [lastScope_concat, if_pos rfl]

/-- With one more visit, the state of the visit before it is left, and every other state keeps its transitions. -/
theorem transitions_concat (h : vs.getLast? = some u) (v : Visit) (state : UInt16) :
    (StateNode.ofVisits (vs ++ [v]) state).transitions =
      if u.state = state then ((StateNode.ofVisits vs state).leave v.state v.scope).transitions
      else (StateNode.ofVisits vs state).transitions := by
  by_cases hs : u.state = state
  · subst hs
    rw [if_pos rfl]
    unfold leave
    rw [lastScope_last h]
    unfold ofVisits
    dsimp only
    rw [Keyed.upsert_table (fun _ => rfl), successors_concat h, if_pos rfl]
    · refine List.map_congr_left fun destination _ => ?_
      rw [traversals_concat h]
      by_cases hd : destination = v.state
      · subst hd
        rw [Function.update_self, if_pos ⟨rfl, rfl⟩, ofSteps_concat]
      · rw [Function.update_of_ne hd, if_neg (fun ht => hd ht.2.symm), List.append_nil]
    · intro hnot
      have hnone : traversals u.state v.state vs = [] := by
        by_contra hne
        exact hnot (mem_successors.2 hne)
      rw [hnone]
      rfl
  · rw [if_neg hs]
    unfold ofVisits
    dsimp only
    rw [successors_concat h, if_neg hs, List.append_nil]
    refine List.map_congr_left fun destination _ => ?_
    rw [traversals_concat h, if_neg (fun ht => hs ht.1), List.append_nil]

/-- Entering a state makes the scope of the visit the one that is remembered. -/
theorem enter_eq_ofVisits {f : UInt16 → StateNode} {v : Visit} (hstate : ∀ k, (f k).state = k)
    (hscope : ∀ k, (f k).lastScope = (StateNode.ofVisits vs k).lastScope)
    (htransitions : ∀ k, (f k).transitions = (StateNode.ofVisits (vs ++ [v]) k).transitions) :
    Function.update f v.state ((f v.state).enter v.scope) = StateNode.ofVisits (vs ++ [v]) := by
  funext k
  have hlast : (StateNode.ofVisits (vs ++ [v]) k).lastScope =
      if v.state = k then v.scope else (StateNode.ofVisits vs k).lastScope := lastScope_concat v k
  have heq {n n' : StateNode} (h₁ : n.state = n'.state) (h₂ : n.lastScope = n'.lastScope)
      (h₃ : n.transitions = n'.transitions) : n = n' := by
    obtain ⟨_, _, _⟩ := n
    cases h₁; cases h₂; cases h₃
    rfl
  by_cases hk : k = v.state
  · subst hk
    rw [if_pos rfl] at hlast
    rw [Function.update_self]
    exact heq (hstate v.state) hlast.symm (htransitions v.state)
  · rw [if_neg (Ne.symm hk)] at hlast
    rw [Function.update_of_ne hk]
    exact heq (hstate k) ((hscope k).trans hlast.symm) (htransitions k)

/-- Leaving the state of the visit before and entering that of the visit amounts to one more visit.  The two states may
be the same: the scope of the visit before is used before it is replaced. -/
theorem leave_enter_eq_ofVisits (h : vs.getLast? = some u) (v : Visit) {f : UInt16 → StateNode}
    (hf : f = Function.update (StateNode.ofVisits vs) u.state
      ((StateNode.ofVisits vs u.state).leave v.state v.scope)) :
    (∀ k, (f k).state = k) ∧
      Function.update f v.state ((f v.state).enter v.scope) = StateNode.ofVisits (vs ++ [v]) := by
  have hleave (k : UInt16) : f k =
      if u.state = k then (StateNode.ofVisits vs k).leave v.state v.scope else StateNode.ofVisits vs k := by
    rw [hf]
    by_cases hk : u.state = k
    · subst hk
      rw [Function.update_self, if_pos rfl]
    · rw [Function.update_of_ne (Ne.symm hk), if_neg hk]
  have hstate (k : UInt16) : (f k).state = k := by
    rw [hleave]
    split <;> rfl
  have hscope (k : UInt16) : (f k).lastScope = (StateNode.ofVisits vs k).lastScope := by
    rw [hleave]
    split <;> rfl
  have htransitions (k : UInt16) : (f k).transitions = (StateNode.ofVisits (vs ++ [v]) k).transitions := by
    rw [hleave, transitions_concat h]
    split <;> rfl
  exact ⟨hstate, enter_eq_ofVisits hstate hscope htransitions⟩

end StateNode

namespace Automaton

variable {context : UInt16} {vs : List Visit}

/-- A state of a table is changed in its place. -/
theorem changeState_table (a : Automaton) {ks : List UInt16} {f : UInt16 → StateNode} {state : UInt16}
    {change : StateNode → StateNode} (hf : ∀ k, (f k).state = k) (hk : state ∈ ks) :
    a.changeState state change (ks.eraseDups.map f) =
      .ok (ks.eraseDups.map (Function.update f state (change (f state)))) := by
  unfold changeState
  rw [Keyed.change?_table hf hk]

/-- A visit makes its state known. -/
theorem known_table (v : Visit) :
    Keyed.upsert StateNode.state v.state { state := v.state } id (ofVisits context vs).states =
      ((vs ++ [v]).map (·.state)).eraseDups.map (StateNode.ofVisits vs) := by
  unfold ofVisits
  dsimp only
  rw [Keyed.upsert_table (fun _ => rfl), List.map_append, List.map_singleton]
  · rw [id_eq, Function.update_eq_self]
  · intro hnot
    rw [StateNode.ofVisits_of_not_mem hnot]

/-- The two changes of an observation, one after the other. -/
theorem observe_eq_ok {a : Automaton} {scope : Scope} {state : UInt16} {known left entered : List StateNode}
    (hknown : Keyed.upsert StateNode.state state { state } id a.states = known)
    (hleft : a.lastState.elim (.ok known) (a.changeState · (·.leave state scope) known) = .ok left)
    (hentered : a.changeState state (·.enter scope) left = .ok entered) :
    a.observe scope state = .ok { a with lastState := some state, states := entered } := by
  unfold observe
  rw [hknown]
  cases hl : a.lastState with
  | none =>
    rw [hl] at hleft
    cases hleft
    show Except.bind (a.changeState state (·.enter scope) known) _ = _
    rw [hentered]
    rfl
  | some previous =>
    rw [hl] at hleft
    change a.changeState previous (·.leave state scope) known = _ at hleft
    show Except.bind (a.changeState previous (·.leave state scope) known) _ = _
    rw [hleft]
    show Except.bind (a.changeState state (·.enter scope) left) _ = _
    rw [hentered]
    rfl

/-- Observing one more visit is having made one more visit; the states that have to exist do. -/
theorem observe_ofVisits (context : UInt16) (vs : List Visit) (v : Visit) :
    (ofVisits context vs).observe v.scope v.state = .ok (ofVisits context (vs ++ [v])) := by
  have hmem : v.state ∈ (vs ++ [v]).map (·.state) := List.mem_map_of_mem List.mem_concat_self
  have hlast : (vs ++ [v]).getLast?.map (·.state) = some v.state := by
    rw [List.getLast?_concat]
    rfl
  have hdone : ofVisits context (vs ++ [v]) = { ofVisits context vs with
      lastState := some v.state
      states := ((vs ++ [v]).map (·.state)).eraseDups.map (StateNode.ofVisits (vs ++ [v])) } := by
    rw [← hlast]
    rfl
  rw [hdone]
  cases hu : vs.getLast? with
  | none =>
    obtain rfl := List.getLast?_eq_none_iff.1 hu
    refine observe_eq_ok (known_table v) rfl ?_
    rw [changeState_table _ (fun _ => rfl) hmem, StateNode.enter_eq_ofVisits (fun _ => rfl) (fun _ => rfl)]
    exact fun _ => rfl
  | some u =>
    have humem : u.state ∈ (vs ++ [v]).map (·.state) :=
      List.mem_map_of_mem (List.mem_append_left _ (List.mem_of_getLast? hu))
    obtain ⟨f, hf⟩ : ∃ f, f = Function.update (StateNode.ofVisits vs) u.state
      ((StateNode.ofVisits vs u.state).leave v.state v.scope) := ⟨_, rfl⟩
    obtain ⟨hstate, henter⟩ := StateNode.leave_enter_eq_ofVisits hu v hf
    have hleft : (ofVisits context vs).changeState u.state (·.leave v.state v.scope)
        (((vs ++ [v]).map (·.state)).eraseDups.map (StateNode.ofVisits vs)) =
        .ok (((vs ++ [v]).map (·.state)).eraseDups.map f) := by
      rw [changeState_table _ (fun _ => rfl) humem, hf]
    have hentered : (ofVisits context vs).changeState v.state (·.enter v.scope)
        (((vs ++ [v]).map (·.state)).eraseDups.map f) =
        .ok (((vs ++ [v]).map (·.state)).eraseDups.map (StateNode.ofVisits (vs ++ [v]))) := by
      rw [changeState_table _ hstate hmem, henter]
    refine observe_eq_ok (known_table v) ?_ hentered
    show Option.elim (vs.getLast?.map (·.state)) _ _ = _
    rw [hu]
    exact hleft

end Automaton

/-! ## All contexts -/

theorem contexts_concat (frames : List Frame) (f : Frame) :
    contexts (frames ++ [f]) = contexts frames ++ f.context?.toList := by
  unfold contexts
  rw [List.filterMap_append, List.filterMap_cons, List.filterMap_nil]
  cases f.context? <;> rfl

theorem visits_concat (context : UInt16) (frames : List Frame) (f : Frame) :
    visits context (frames ++ [f]) = visits context frames ++ (f.visit? context).toList := by
  unfold visits
  rw [List.filterMap_append, List.filterMap_cons, List.filterMap_nil]
  cases f.visit? context <;> rfl

/-- A context has as many visits as state changes. -/
theorem length_visits (context : UInt16) (frames : List Frame) :
    (visits context frames).length = (contexts frames).count context := by
  unfold visits contexts
  rw [List.length_filterMap_eq_countP, List.count_filterMap]
  refine List.countP_congr fun f _ => ?_
  unfold Frame.visit? Frame.context?
  cases f.event with
  | monitorState change => by_cases h : change.context = context <;> simp [h]
  | _ => simp

/-- A context without a state change has no visits. -/
theorem visits_of_not_mem {context : UInt16} {frames : List Frame} (h : context ∉ contexts frames) :
    visits context frames = [] := by
  unfold visits
  rw [List.filterMap_eq_nil_iff]
  intro f hf
  have hne : f.context? ≠ some context := fun hc => h (List.mem_filterMap.2 ⟨f, hf, hc⟩)
  unfold Frame.context? at hne
  unfold Frame.visit?
  cases he : f.event with
  | monitorState change =>
    rw [he] at hne
    exact if_neg fun hc => hne (congrArg some hc)
  | _ => rfl

namespace Automata

theorem automaton?_observed (frames : List Frame) (context : UInt16) : (observed frames).automaton? context =
    if context ∈ contexts frames then some (.ofVisits context (visits context frames)) else none :=
  Keyed.find?_table fun _ => rfl

/-- The automaton of a context, which has no visits yet if the context is new. -/
theorem automaton?_getD (frames : List Frame) (context : UInt16) :
    ((observed frames).automaton? context).getD { context } = .ofVisits context (visits context frames) := by
  rw [automaton?_observed]
  by_cases h : context ∈ contexts frames
  · rw [if_pos h]
    rfl
  · rw [if_neg h, visits_of_not_mem h]
    rfl

/-- Taking note of one more frame is having observed one more frame. -/
theorem add_observed (frames : List Frame) (f : Frame) :
    (observed frames).add f = .ok (observed (frames ++ [f])) := by
  unfold add
  have hcontexts := contexts_concat frames f
  have hvisits (context : UInt16) := visits_concat context frames f
  unfold Frame.context? at hcontexts
  unfold Frame.visit? at hvisits
  cases he : f.event with
  | monitorState change =>
    rw [he] at hcontexts
    simp only [he] at hvisits
    have hnext := Automaton.observe_ofVisits change.context (visits change.context frames) ⟨f.scope, change.state⟩
    unfold observe
    dsimp only
    rw [automaton?_getD]
    show Except.bind ((Automaton.ofVisits _ _).observe f.scope change.state) _ = _
    rw [hnext]
    show Except.ok (Automata.mk _) = Except.ok (Automata.mk _)
    rw [hcontexts]
    congr 2
    show Keyed.upsert Automaton.context change.context _ _ ((contexts frames).eraseDups.map fun context =>
      Automaton.ofVisits context (visits context frames)) = _
    have hkey (context : UInt16) :
        (Automaton.ofVisits context (visits context frames)).context = context := rfl
    rw [Keyed.upsert_table hkey]
    · refine List.map_congr_left fun context _ => ?_
      by_cases hc : context = change.context
      · subst hc
        rw [Function.update_self, hvisits, if_pos rfl]
        rfl
      · rw [Function.update_of_ne hc, hvisits, if_neg (Ne.symm hc), Option.toList_none, List.append_nil]
    · exact fun _ => rfl
  | _ =>
    rw [he, Option.toList_none, List.append_nil] at hcontexts
    simp only [he, Option.toList_none, List.append_nil] at hvisits
    unfold observed
    rw [hcontexts]
    simp only [hvisits]

/-- Observing frames never fails, and shows what the visits of each context show. -/
theorem ofFrames_eq (frames : List Frame) : ofFrames frames = .ok (observed frames) := by
  induction frames using List.reverseRecOn with
  | nil => rfl
  | append_singleton frames f ih =>
    unfold ofFrames at ih ⊢
    rw [List.foldlM_append, ih]
    show Except.bind ((observed frames).add f) pure = _
    rw [add_observed]
    rfl

end Automata

end NodeTrace
