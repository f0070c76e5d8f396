import NodeTrace.Proofs.Observation
import NodeTrace.Tally

/-!
# What a tally says of the frames

The counter of a kind is the number of frames of that kind modulo 2 ^ 64 (`Tally.get_events`), and the counters add up to
the number of all frames.  A set of ids has exactly the ids that the frames have in its place
(`Tally.contains_ofFrames`): those of the contexts and of the states come from the state changes.
-/

namespace NodeTrace

/-- The state that a frame says was entered, in whatever context. -/
def Frame.state? (f : Frame) : Option UInt16 :=
  match f.event with
  | .monitorState change => some change.state
  | _ => none

/-- The entity that a frame says entered a state. -/
def Frame.entity? (f : Frame) : Option UInt16 :=
  match f.event with
  | .monitorState change => some change.entity
  | _ => none

/-- The node on which a frame was recorded, if its scope tells. -/
def Frame.node? (f : Frame) : Option UInt16 := f.scope.node?.map Prod.fst

/-- The states that were entered, in their order. -/
def enteredStates (frames : List Frame) : List UInt16 := frames.filterMap Frame.state?

/-! ## Counters -/

theorem EventCounts.total_add (c : EventCounts) (kind : EventKind) : (c.add kind).total = c.total + 1 := by
  unfold total EventKind.all
  simp only [List.foldl_cons, List.foldl_nil, get_add]
  cases kind <;> simp only [reduceCtorEq, if_true, if_false, UInt64.add_zero] <;> ac_rfl

namespace Tally

theorem events_add (t : Tally) (f : Frame) : (t.add f).events = t.events.add f.event.kind := by
  unfold add see
  cases f.event <;> rfl

theorem scopes_add (t : Tally) (f : Frame) : (t.add f).scopes = t.scopes.add f.scope.kinds := by
  unfold add see
  cases f.event <;> rfl

/-- Handling one more frame is the tally of one more frame. -/
theorem handle_ofFrames (frames : List Frame) (f : Frame) :
    handler.handle f (ofFrames frames) = .ok () (ofFrames (frames ++ [f])) := by
  rw [handle_eq, ofFrames_concat]

/-- A counter that goes up with each frame of some sort is their number. -/
theorem count_ofFrames (count : Tally → UInt64) {p : Frame → Bool} (hnil : count {} = 0)
    (hadd : ∀ t f, count (t.add f) = count t + if p f then 1 else 0) (frames : List Frame) :
    count (ofFrames frames) = UInt64.ofNat (frames.countP p) := by
  induction frames using List.reverseRecOn with
  | nil => exact hnil
  | append_singleton frames f ih =>
    rw [ofFrames_concat, hadd, ih, List.countP_append, List.countP_singleton, UInt64.ofNat_add]
    congr 1
    cases p f <;> rfl

/-- The counter of a kind. -/
theorem get_events (frames : List Frame) (kind : EventKind) :
    (ofFrames frames).events.get kind = UInt64.ofNat (frames.countP (·.event.kind = kind)) := by
  refine count_ofFrames (·.events.get kind) (by cases kind <;> rfl) (fun t f => ?_) frames
  rw [events_add, EventCounts.get_add]
  simp only [decide_eq_true_eq, @eq_comm _ kind]

/-- The counters of all kinds add up to the number of frames. -/
theorem total_events (frames : List Frame) : (ofFrames frames).events.total = UInt64.ofNat frames.length := by
  have hcount := count_ofFrames (·.events.total) (p := fun _ => true) rfl (fun t f => ?_) frames
  · rwa [List.countP_true] at hcount
  · rw [events_add, EventCounts.total_add]
    rfl

end Tally

theorem isSome_context? (f : Frame) : f.context?.isSome = decide (f.event.kind = .monitorState) := by
  unfold Frame.context?
  cases f.event <;> rfl

theorem length_contexts (frames : List Frame) :
    (contexts frames).length = frames.countP (·.event.kind = .monitorState) := by
  unfold contexts
  rw [List.length_filterMap_eq_countP]
  simp only [isSome_context?]

theorem Tally.monitorState_events (frames : List Frame) :
    (ofFrames frames).events.monitorState = UInt64.ofNat (NodeTrace.contexts frames).length := by
  rw [length_contexts]
  exact get_events frames .monitorState

/-! ## Sets of ids -/

namespace Tally

/-- A set to which each frame adds the id that it has in some place, if it has one there. -/
theorem contains_ofFrames (ids : Tally → IdSet) {id? : Frame → Option UInt16} (hnil : ids {} = {})
    (hadd : ∀ t f, ids (t.add f) = (id? f).elim (ids t) (ids t).insert) (frames : List Frame) (id : UInt16) :
    (ids (ofFrames frames)).contains id = true ↔ id ∈ frames.filterMap id? := by
  induction frames using List.reverseRecOn with
  | nil =>
    rw [ofFrames_nil, hnil]
    simp [IdSet.contains]
  | append_singleton frames f ih =>
    rw [ofFrames_concat, hadd, List.filterMap_append, List.mem_append, ← ih]
    cases h : id? f with
    | none => simp [h]
    | some id' => simp [h, IdSet.contains_insert]

theorem nodes_add (t : Tally) (f : Frame) : (t.add f).nodes = f.node?.elim t.nodes t.nodes.insert := by
  unfold add record see Frame.node?
  cases f.scope.node? <;> cases f.event <;> rfl

theorem contexts_add (t : Tally) (f : Frame) :
    (t.add f).contexts = f.context?.elim t.contexts t.contexts.insert := by
  unfold add record see Frame.context?
  cases f.event <;> rfl

theorem entities_add (t : Tally) (f : Frame) :
    (t.add f).entities = f.entity?.elim t.entities t.entities.insert := by
  unfold add record see Frame.entity?
  cases f.event <;> rfl

theorem states_add (t : Tally) (f : Frame) : (t.add f).states = f.state?.elim t.states t.states.insert := by
  unfold add record see Frame.state?
  cases f.event <;> rfl

theorem contains_contexts (frames : List Frame) (context : UInt16) :
    (ofFrames frames).contexts.contains context = true ↔ context ∈ NodeTrace.contexts frames :=
  contains_ofFrames Tally.contexts rfl contexts_add frames context

theorem contains_states (frames : List Frame) (state : UInt16) :
    (ofFrames frames).states.contains state = true ↔ state ∈ enteredStates frames :=
  contains_ofFrames Tally.states rfl states_add frames state

end Tally

/-- A state was entered if it was entered in some context. -/
theorem mem_enteredStates {frames : List Frame} {state : UInt16} : state ∈ enteredStates frames ↔
    ∃ context ∈ contexts frames, state ∈ (visits context frames).map (·.state) := by
  unfold enteredStates contexts visits
  simp only [List.mem_filterMap, List.mem_map]
  constructor
  · rintro ⟨f, hf, hstate⟩
    unfold Frame.state? at hstate
    cases he : f.event with
    | monitorState change =>
      rw [he] at hstate
      cases hstate
      refine ⟨change.context, ⟨f, hf, ?_⟩, ⟨f.scope, change.state⟩, ⟨f, hf, ?_⟩, rfl⟩
      · unfold Frame.context?
        rw [he]
      · unfold Frame.visit?
        rw [he]
        exact if_pos rfl
    | _ =>
      rw [he] at hstate
      cases hstate
  · rintro ⟨context, -, v, ⟨f, hf, hv⟩, rfl⟩
    refine ⟨f, hf, ?_⟩
    unfold Frame.visit? at hv
    unfold Frame.state?
    cases he : f.event with
    | monitorState change =>
      simp only [he] at hv
      obtain ⟨-, hv⟩ := Option.ite_none_right_eq_some.1 hv
      cases hv
      rfl
    | _ =>
      simp only [he] at hv
      cases hv

end NodeTrace
