import Mathlib.Algebra.BigOperators.Group.List.Lemmas
import Mathlib.Algebra.GroupWithZero.Nat
import Mathlib.Data.List.Perm.Basic
import NodeTrace.Proofs.Dispatch
import NodeTrace.Proofs.Output
import NodeTrace.Proofs.Tallies

/-!
# Tallies do not depend on the order of the frames

A tally is exact: each counter is the number of the frames that it is about, and each set has the ids that occur in its
place (`Tally.Exact`).  Taking note of two frames comes to the same in either order (`Tally.add_right_comm`), since
counters add up and ids are only ever inserted.  So the same frames in another order give the same tally, and the same
report (`tally_exact`).
-/

namespace NodeTrace

/-- What a tally says of frames of which there are fewer than 2 ^ 64. -/
structure Tally.Exact (t : Tally) (frames : List Frame) : Prop where
  events : ∀ kind, (t.events.get kind).toNat = frames.countP (·.event.kind = kind)
  total : t.events.total.toNat = frames.length
  /-- The counters of the kinds add up. -/
  events_sum : (EventKind.all.map fun kind => (t.events.get kind).toNat).sum = frames.length
  unknown : t.scopes.unknown.toNat = frames.countP (·.scope.kinds.unknown)
  simulation : t.scopes.simulation.toNat = frames.countP (·.scope.kinds.simulation)
  node : t.scopes.node.toNat = frames.countP (·.scope.kinds.node)
  /-- Nodes are taken from the scopes of frames of every kind. -/
  nodes : ∀ id, t.nodes.contains id = true ↔ ∃ f ∈ frames, f.scope.kinds.node = true ∧ f.scope.nodeId = id
  contexts : ∀ id, t.contexts.contains id = true ↔
    ∃ f ∈ frames, ∃ change, f.event = .monitorState change ∧ change.context = id
  entities : ∀ id, t.entities.contains id = true ↔
    ∃ f ∈ frames, ∃ change, f.event = .monitorState change ∧ change.entity = id
  states : ∀ id, t.states.contains id = true ↔
    ∃ f ∈ frames, ∃ change, f.event = .monitorState change ∧ change.state = id

/-! ## Exactness -/

/-- Every frame is of one kind. -/
theorem sum_countP_kind (frames : List Frame) :
    (EventKind.all.map fun kind => frames.countP (·.event.kind = kind)).sum = frames.length := by
  induction frames with
  | nil => rfl
  | cons f fs ih =>
    rw [List.length_cons, ← ih]
    unfold EventKind.all
    simp only [List.map_cons, List.map_nil, List.sum_cons, List.sum_nil, List.countP_cons, decide_eq_true_eq]
    cases f.event.kind <;> simp only [reduceCtorEq, if_true, if_false] <;> omega

theorem Frame.node?_eq_some {f : Frame} {id : UInt16} :
    f.node? = some id ↔ f.scope.kinds.node = true ∧ f.scope.nodeId = id := by
  unfold node? Scope.node?
  by_cases h : f.scope.kinds.node = true <;> simp [h]

/-- Only a state change has a context, an entity and a state. -/
theorem Frame.change_eq_some {f : Frame} (field : StateChange → UInt16) {id : UInt16} :
    (match f.event with
      | .monitorState change => some (field change)
      | _ => none) = some id ↔ ∃ change, f.event = .monitorState change ∧ field change = id := by
  cases f.event <;> simp

namespace Tally

/-- A counter that has not run over is the number of the frames that it is about. -/
theorem toNat_count {frames : List Frame} (hlen : frames.length < UInt64.size) {n : UInt64} {p : Frame → Bool}
    (h : n = UInt64.ofNat (frames.countP p)) : n.toNat = frames.countP p := by
  have hle : frames.countP p ≤ frames.length := List.countP_le_length
  rw [h, UInt64.toNat_ofNat_of_lt' (by omega)]

/-- A counter of scopes is the number of the frames whose scope has the mark that is counted. -/
theorem count_scopes (count : ScopeCounts → UInt64) {mark : ScopeKinds → Bool} (hnil : count {} = 0)
    (hadd : ∀ c kinds, count (c.add kinds) = count c + if mark kinds then 1 else 0) (frames : List Frame) :
    count (ofFrames frames).scopes = UInt64.ofNat (frames.countP fun f => mark f.scope.kinds) := by
  refine count_ofFrames (count ·.scopes) hnil (fun t f => ?_) frames
  rw [scopes_add, hadd]

theorem exact_ofFrames {frames : List Frame} (hlen : frames.length < UInt64.size) : (ofFrames frames).Exact frames where
  events kind := toNat_count hlen (get_events frames kind)
  total := by
    rw [total_events, UInt64.toNat_ofNat_of_lt' hlen]
  events_sum := by
    rw [← sum_countP_kind frames]
    exact congrArg List.sum (List.map_congr_left fun kind _ => toNat_count hlen (get_events frames kind))
  unknown := toNat_count hlen (count_scopes ScopeCounts.unknown rfl (fun _ _ => rfl) frames)
  simulation := toNat_count hlen (count_scopes ScopeCounts.simulation rfl (fun _ _ => rfl) frames)
  node := toNat_count hlen (count_scopes ScopeCounts.node rfl (fun _ _ => rfl) frames)
  nodes id := by
    rw [contains_ofFrames Tally.nodes rfl nodes_add, List.mem_filterMap]
    simp only [Frame.node?_eq_some]
  contexts id := by
    rw [contains_ofFrames Tally.contexts rfl contexts_add, List.mem_filterMap]
    exact exists_congr fun _ => and_congr_right' (Frame.change_eq_some (·.context))
  entities id := by
    rw [contains_ofFrames Tally.entities rfl entities_add, List.mem_filterMap]
    exact exists_congr fun _ => and_congr_right' (Frame.change_eq_some (·.entity))
  states id := by
    rw [contains_ofFrames Tally.states rfl states_add, List.mem_filterMap]
    exact exists_congr fun _ => and_congr_right' (Frame.change_eq_some (·.state))

end Tally

/-! ## Two frames in either order -/

namespace IdSet

theorem insert_right_comm (s : IdSet) (id id' : UInt16) :
    (s.insert id).insert id' = (s.insert id').insert id := by
  simp only [insert_eq, Nat.or_assoc, Nat.or_comm (1 <<< id.toNat)]

/-- The same of ids that may be missing. -/
theorem elim_insert_right_comm (s : IdSet) (id? id?' : Option UInt16) :
    id?'.elim (id?.elim s s.insert) (id?.elim s s.insert).insert =
      id?.elim (id?'.elim s s.insert) (id?'.elim s s.insert).insert := by
  cases id? with
  | none => rfl
  | some id =>
    cases id?' with
    | none => rfl
    | some id' => exact s.insert_right_comm id id'

end IdSet

theorem EventCounts.add_right_comm (c : EventCounts) (kind kind' : EventKind) :
    (c.add kind).add kind' = (c.add kind').add kind := by
  cases kind <;> cases kind' <;> rfl

theorem ScopeCounts.add_right_comm (c : ScopeCounts) (kinds kinds' : ScopeKinds) :
    (c.add kinds).add kinds' = (c.add kinds').add kinds := by
  have hswap (n k l : UInt64) : n + k + l = n + l + k := by ac_rfl
  unfold add
  dsimp only
  rw [hswap c.unknown, hswap c.simulation, hswap c.node]

attribute [ext] Tally

namespace Tally

theorem add_right_comm (t : Tally) (f g : Frame) : (t.add f).add g = (t.add g).add f := by
  apply Tally.ext
  · simp only [events_add, EventCounts.add_right_comm]
  · simp only [scopes_add, ScopeCounts.add_right_comm]
  · simp only [nodes_add]
    exact t.nodes.elim_insert_right_comm f.node? g.node?
  · simp only [contexts_add]
    exact t.contexts.elim_insert_right_comm f.context? g.context?
  · simp only [entities_add]
    exact t.entities.elim_insert_right_comm f.entity? g.entity?
  · simp only [states_add]
    exact t.states.elim_insert_right_comm f.state? g.state?

theorem ofFrames_perm {frames frames' : List Frame} (h : frames'.Perm frames) : ofFrames frames' = ofFrames frames :=
  h.foldl_eq' (fun f _ g _ t => add_right_comm t f g) {}

end Tally

/-- Fewer than 2 ^ 64 frames of any kinds, handled one by one, are counted exactly, and the ids that the tally has are
those that occur in the frames.  The same frames in another order are handled alike and leave the same tally, so
whatever is reported of it, in either form, is the same to the byte. -/
theorem tally_exact {frames : List Frame} (hlen : frames.length < UInt64.size) : ∃ t : Tally,
    Tally.handler.handleAll .endOfStream 0 frames {} = (.ok frames.length, t) ∧ t.Exact frames ∧
    ∀ frames', frames'.Perm frames → ∃ t',
      Tally.handler.handleAll .endOfStream 0 frames' {} = (.ok frames.length, t') ∧ t' = t ∧
      ∀ human, Sink.bytesOf (t'.lines human) = Sink.bytesOf (t.lines human) := by
  have hhandle (frames : List Frame) : Tally.handler.handleAll .endOfStream 0 frames {} =
      (.ok frames.length, .ofFrames frames) := Handler.handleAll_endOfStream Tally.handle_ofFrames frames
  refine ⟨.ofFrames frames, hhandle frames, Tally.exact_ofFrames hlen, fun frames' hperm => ?_⟩
  have hsame := Tally.ofFrames_perm hperm
  refine ⟨.ofFrames frames', ?_, hsame, fun human => by rw [hsame]⟩
  rw [hhandle, hperm.length_eq]

/-- A node that only a node event names, and a scope that keeps a node without saying so. -/
def mixedFrames : List Frame :=
  [⟨{ kinds := { unknown := true, node := true }, nodeId := 7 }, .monitorState ⟨1, 2, 3⟩⟩,
    ⟨{ kinds := { node := true }, nodeId := 9 }, .nodeCreate⟩,
    ⟨{ kinds := { simulation := true }, nodeId := 4 }, .monitorData ⟨5, 6, []⟩⟩]

theorem tally_exact_mixed : mixedFrames.length < UInt64.size ∧ mixedFrames.reverse.Perm mixedFrames ∧
    ∃ t : Tally, Tally.handler.handleAll .endOfStream 0 mixedFrames {} = (.ok 3, t) ∧
      Tally.handler.handleAll .endOfStream 0 mixedFrames.reverse {} = (.ok 3, t) ∧
      (t.events.get .monitorState).toNat = 1 ∧ t.scopes.node.toNat = 2 ∧ t.nodes.contains 9 = true ∧
      t.nodes.contains 4 ≠ true ∧ t.contexts.contains 5 ≠ true := by
  have hlen : mixedFrames.length < UInt64.size := by decide
  have hperm : mixedFrames.reverse.Perm mixedFrames := mixedFrames.reverse_perm
  obtain ⟨t, hhandle, hexact, horder⟩ := tally_exact hlen
  obtain ⟨_, hreverse, rfl, -⟩ := horder _ hperm
  refine ⟨hlen, hperm, _, hhandle, hreverse, hexact.events .monitorState, hexact.node, (hexact.nodes 9).2 (by decide),
    fun h => ?_, fun h => ?_⟩
  · exact absurd ((hexact.nodes 4).1 h) (by decide)
  · obtain ⟨f, hf, change, he, hc⟩ := (hexact.contexts 5).1 h
    simp only [mixedFrames, List.mem_cons, List.not_mem_nil, or_false] at hf
    rcases hf with rfl | rfl | rfl
    · cases he
      exact absurd hc (by decide)
    · cases he
    · cases he

end NodeTrace
