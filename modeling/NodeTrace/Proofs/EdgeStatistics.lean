import Mathlib.Algebra.GroupWithZero.Nat
import NodeTrace.Proofs.Observation

/-!
# What the statistics of a transition say

The statistics of a transition count the steps from its source to its destination and aggregate the times that passed
on them (`Statistics.ofSteps_eq`).  An aggregate exists once there is a sample; of whole numbers it has the sum modulo
2 ^ 64, the least and the greatest (`Aggregate.Sums`), of doubles what comes of taking them in their order
(`Aggregate.Folds`).
-/

namespace NodeTrace

namespace Aggregate

/-! ## Aggregates of samples -/

/-- Sum, least and greatest of whole numbers. -/
structure Sums (a : Aggregate UInt64) (xs : List UInt64) : Prop where
  sum : a.sum.toNat = (xs.map UInt64.toNat).sum % UInt64.size
  min_mem : a.min ∈ xs
  min_le : ∀ x ∈ xs, a.min ≤ x
  max_mem : a.max ∈ xs
  le_max : ∀ x ∈ xs, x ≤ a.max

/-- Sum, least and greatest of doubles, taken from the first to the last. -/
structure Folds (a : Aggregate Binary64) (xs : List Binary64) : Prop where
  folded : ∃ x rest, xs = x :: rest ∧ a.sum = rest.foldl (· + ·) x ∧
    a.min = rest.foldl (fun m y => if y.lt m then y else m) x ∧
    a.max = rest.foldl (fun m y => if m.lt y then y else m) x

/-- There is an aggregate if there are samples; it counts them and says `P` of them. -/
structure Reports {α : Type} (P : Aggregate α → List α → Prop) (a : Option (Aggregate α)) (xs : List α) :
    Prop where
  none_iff : a = none ↔ xs = []
  samples : ∀ g, a = some g → g.samples.toNat = xs.length ∧ 0 < g.samples.toNat
  values : ∀ g, a = some g → P g xs

section Samples

variable {α : Type} [Sample α]

theorem ofList_eq_none_iff {xs : List α} : ofList xs = none ↔ xs = [] := by
  induction xs using List.reverseRecOn with
  | nil => exact ⟨fun _ => rfl, fun _ => rfl⟩
  | append_singleton xs x ih =>
    rw [ofList_concat]
    exact ⟨nofun, fun h => absurd h (List.append_ne_nil_of_right_ne_nil xs (List.cons_ne_nil x []))⟩

/-- What holds of one sample and is kept by each more holds of all. -/
theorem ofList_induction {P : Aggregate α → List α → Prop} (hsingle : ∀ x, P (single x) [x])
    (hadd : ∀ g xs x, P g xs → P (g.add x) (xs ++ [x])) {g : Aggregate α} {xs : List α}
    (h : ofList xs = some g) : P g xs := by
  induction xs using List.reverseRecOn generalizing g with
  | nil => cases h
  | append_singleton xs x ih =>
    rw [ofList_concat] at h
    cases hxs : ofList xs with
    | none =>
      rw [hxs] at h
      cases h
      rw [ofList_eq_none_iff.1 hxs]
      exact hsingle x
    | some g' =>
      rw [hxs] at h
      cases h
      exact hadd g' xs x (ih hxs)

theorem ofList_samples {g : Aggregate α} {xs : List α} (h : ofList xs = some g) :
    g.samples = UInt64.ofNat xs.length := by
  refine ofList_induction (P := fun g xs => g.samples = UInt64.ofNat xs.length) (fun _ => rfl) ?_ h
  intro g xs x hg
  show g.samples + 1 = _
  rw [hg, List.length_append, List.length_singleton, UInt64.ofNat_add]
  rfl

theorem reports_ofList {P : Aggregate α → List α → Prop} (hsingle : ∀ x, P (single x) [x])
    (hadd : ∀ g xs x, P g xs → P (g.add x) (xs ++ [x])) {xs : List α} (hlen : xs.length < UInt64.size) :
    Reports P (ofList xs) xs where
  none_iff := ofList_eq_none_iff
  samples g h := by
    have hne : xs ≠ [] := fun hnil => by rw [hnil] at h; cases h
    rw [ofList_samples h, UInt64.toNat_ofNat_of_lt' hlen]
    exact ⟨rfl, List.length_pos_iff.2 hne⟩
  values g h := ofList_induction hsingle hadd h

end Samples

theorem sums_single (x : UInt64) : (single x).Sums [x] where
  sum := by
    show x.toNat = _
    rw [List.map_singleton, List.sum_singleton]
    exact (Nat.mod_eq_of_lt x.toNat_lt).symm
  min_mem := List.mem_singleton_self x
  min_le y hy := by
    rw [List.mem_singleton.1 hy]
    exact UInt64.le_refl x
  max_mem := List.mem_singleton_self x
  le_max y hy := by
    rw [List.mem_singleton.1 hy]
    exact UInt64.le_refl x

theorem sums_add {a : Aggregate UInt64} {xs : List UInt64} (h : a.Sums xs) (x : UInt64) :
    (a.add x).Sums (xs ++ [x]) where
  sum := by
    show (a.sum + x).toNat = _
    rw [UInt64.toNat_add, h.sum, List.map_append, List.sum_append, List.map_singleton, List.sum_singleton]
    exact Nat.mod_add_mod _ _ _
  min_mem := by
    show (if decide (x < a.min) = true then x else a.min) ∈ _
    split
    · exact List.mem_concat_self
    · exact List.mem_append_left _ h.min_mem
  min_le y hy := by
    show (if decide (x < a.min) = true then x else a.min) ≤ y
    simp only [decide_eq_true_eq]
    by_cases hx : x < a.min
    · rw [if_pos hx]
      rcases List.mem_append.1 hy with hy | hy
      · exact UInt64.le_trans (UInt64.le_of_lt hx) (h.min_le y hy)
      · rw [List.mem_singleton.1 hy]
        exact UInt64.le_refl x
    · rw [if_neg hx]
      rcases List.mem_append.1 hy with hy | hy
      · exact h.min_le y hy
      · rw [List.mem_singleton.1 hy]
        exact UInt64.not_lt.1 hx
  max_mem := by
    show (if decide (a.max < x) = true then x else a.max) ∈ _
    split
    · exact List.mem_concat_self
    · exact List.mem_append_left _ h.max_mem
  le_max y hy := by
    show y ≤ if decide (a.max < x) = true then x else a.max
    simp only [decide_eq_true_eq]
    by_cases hx : a.max < x
    · rw [if_pos hx]
      rcases List.mem_append.1 hy with hy | hy
      · exact UInt64.le_trans (h.le_max y hy) (UInt64.le_of_lt hx)
      · rw [List.mem_singleton.1 hy]
        exact UInt64.le_refl x
    · rw [if_neg hx]
      rcases List.mem_append.1 hy with hy | hy
      · exact h.le_max y hy
      · rw [List.mem_singleton.1 hy]
        exact UInt64.not_lt.1 hx

theorem folds_single (x : Binary64) : (single x).Folds [x] := ⟨x, [], rfl, rfl, rfl, rfl⟩

theorem folds_add {a : Aggregate Binary64} {xs : List Binary64} (h : a.Folds xs) (x : Binary64) :
    (a.add x).Folds (xs ++ [x]) := by
  obtain ⟨y, rest, rfl, hsum, hmin, hmax⟩ := h.folded
  refine ⟨y, rest ++ [x], rfl, ?_, ?_, ?_⟩
  · rw [List.foldl_append, ← hsum]
    rfl
  · rw [List.foldl_append, ← hmin]
    rfl
  · rw [List.foldl_append, ← hmax]
    rfl

end Aggregate

/-! ## Times that pass on steps -/

/-- The simulated times that passed on the steps between two scopes that have one. -/
def simulationTimes (ts : List (Visit × Visit)) : List UInt64 :=
  (ts.filter fun t => t.1.scope.kinds.simulation ∧ t.2.scope.kinds.simulation).map fun t =>
    t.2.scope.simMicros - t.1.scope.simMicros

/-- The steps between two scopes on the same node. -/
def onOneNode (ts : List (Visit × Visit)) : List (Visit × Visit) :=
  ts.filter fun t => t.1.scope.kinds.node ∧ t.2.scope.kinds.node ∧ t.1.scope.nodeId = t.2.scope.nodeId

/-- The cycles that passed on the steps on one node. -/
def cycleTimes (ts : List (Visit × Visit)) : List UInt64 :=
  (onOneNode ts).map fun t => t.2.scope.nodeTime.cycles - t.1.scope.nodeTime.cycles

/-- The milliseconds that passed on the steps on one node. -/
def millisTimes (ts : List (Visit × Visit)) : List Binary64 :=
  (onOneNode ts).map fun t => t.2.scope.nodeTime.millis - t.1.scope.nodeTime.millis

namespace Statistics

theorem record?_ofList {α : Type} [Sample α] (xs : List α) (x : Option α) :
    record? (Aggregate.ofList xs) x = Aggregate.ofList (xs ++ x.toList) := by
  cases x with
  | none => rw [Option.toList_none, List.append_nil]; rfl
  | some x => rw [Option.toList_some, Aggregate.ofList_concat]; rfl

theorem simulationTimes_concat (ts : List (Visit × Visit)) (t : Visit × Visit) :
    simulationTimes (ts ++ [t]) = simulationTimes ts ++ (simulationDelta t.1.scope t.2.scope).toList := by
  unfold simulationTimes simulationDelta Scope.simulation?
  rw [filter_concat, List.map_append]
  by_cases h₁ : t.1.scope.kinds.simulation = true <;> by_cases h₂ : t.2.scope.kinds.simulation = true <;>
    simp [h₁, h₂]

theorem onOneNode_concat (ts : List (Visit × Visit)) (t : Visit × Visit) :
    onOneNode (ts ++ [t]) = onOneNode ts ++
      if t.1.scope.kinds.node ∧ t.2.scope.kinds.node ∧ t.1.scope.nodeId = t.2.scope.nodeId then [t] else [] :=
  filter_concat _ ts t

/-- The clocks are compared if both scopes are on the same node. -/
theorem nodeClocks_eq (source destination : Scope) : nodeClocks source destination =
    if source.kinds.node ∧ destination.kinds.node ∧ source.nodeId = destination.nodeId then
      some (source.nodeTime, destination.nodeTime) else none := by
  unfold nodeClocks Scope.node?
  by_cases h₁ : source.kinds.node = true <;> by_cases h₂ : destination.kinds.node = true <;>
    simp [h₁, h₂]

theorem cycleTimes_concat (ts : List (Visit × Visit)) (t : Visit × Visit) :
    cycleTimes (ts ++ [t]) = cycleTimes ts ++ (cyclesDelta t.1.scope t.2.scope).toList := by
  unfold cycleTimes cyclesDelta
  rw [onOneNode_concat, nodeClocks_eq, List.map_append]
  split <;> rfl

theorem millisTimes_concat (ts : List (Visit × Visit)) (t : Visit × Visit) :
    millisTimes (ts ++ [t]) = millisTimes ts ++ (millisDelta t.1.scope t.2.scope).toList := by
  unfold millisTimes millisDelta
  rw [onOneNode_concat, nodeClocks_eq, List.map_append]
  split <;> rfl

/-- The statistics of steps count them and aggregate the times that passed on them. -/
theorem ofSteps_eq (ts : List (Visit × Visit)) : Statistics.ofSteps ts =
    { count := UInt64.ofNat ts.length
      simMicros := Aggregate.ofList (simulationTimes ts)
      nodeMillis := Aggregate.ofList (millisTimes ts)
      cycles := Aggregate.ofList (cycleTimes ts) } := by
  induction ts using List.reverseRecOn with
  | nil => rfl
  | append_singleton ts t ih =>
    rw [ofSteps_concat, ih, simulationTimes_concat, millisTimes_concat, cycleTimes_concat]
    unfold take
    rw [record?_ofList, record?_ofList, record?_ofList, List.length_append, List.length_singleton,
      UInt64.ofNat_add]
    rfl

end Statistics

/-! ## The statistics of an edge -/

namespace Automaton

theorem state?_ofVisits (context : UInt16) (vs : List Visit) (state : UInt16) :
    (ofVisits context vs).state? state =
      if state ∈ vs.map (·.state) then some (StateNode.ofVisits vs state) else none :=
  Keyed.find?_table fun _ => rfl

theorem transition?_ofVisits (vs : List Visit) (source destination : UInt16) :
    (StateNode.ofVisits vs source).transition? destination =
      if destination ∈ successors source vs then
        some ⟨destination, .ofSteps (traversals source destination vs)⟩ else none :=
  Keyed.find?_table fun _ => rfl

/-- There is an edge if there are steps, and it has their statistics. -/
theorem edge?_ofVisits (context : UInt16) (vs : List Visit) (source destination : UInt16) :
    (ofVisits context vs).edge? source destination =
      if traversals source destination vs = [] then none
      else some (.ofSteps (traversals source destination vs)) := by
  unfold edge?
  rw [state?_ofVisits]
  by_cases hs : source ∈ vs.map (·.state)
  · rw [if_pos hs, Option.bind_some, transition?_ofVisits]
    by_cases hd : traversals source destination vs = []
    · rw [if_pos hd, if_neg (fun h => mem_successors.1 h hd)]
      rfl
    · rw [if_neg hd, if_pos (mem_successors.2 hd)]
      rfl
  · have hnone : traversals source destination vs = [] := by
      by_contra hne
      have hmem := mem_successors.2 hne
      rw [successors_of_not_mem hs] at hmem
      cases hmem
    rw [if_neg hs, if_pos hnone]
    rfl

end Automaton

theorem Automata.edge?_observed (frames : List Frame) (context source destination : UInt16) :
    ((observed frames).automaton? context).bind (·.edge? source destination) =
      if traversals source destination (visits context frames) = [] then none
      else some (.ofSteps (traversals source destination (visits context frames))) := by
  rw [automaton?_observed]
  by_cases hc : context ∈ contexts frames
  · rw [if_pos hc]
    exact Automaton.edge?_ofVisits context (visits context frames) source destination
  · rw [if_neg hc, visits_of_not_mem hc]
    rfl

theorem length_visits_le (context : UInt16) (frames : List Frame) :
    (visits context frames).length ≤ (contexts frames).length := by
  rw [length_visits]
  exact List.count_le_length

theorem length_traversals_le (source destination : UInt16) (vs : List Visit) :
    (traversals source destination vs).length ≤ vs.length := by
  have hle : (traversals source destination vs).length ≤ (steps vs).length := List.length_filter_le _ _
  have hzip : (steps vs).length = min vs.length vs.tail.length := List.length_zip
  omega

/-- Observing fewer than 2 ^ 64 state changes never fails.  There is an edge from one state of a context to another
exactly if some visit of the one is followed by a visit of the other, and its statistics count these steps and
aggregate the times that passed on them: simulated time if both scopes have it, the clocks of a node if both scopes
are on this node. -/
theorem edge_statistics {frames : List Frame} (hframes : (contexts frames).length < UInt64.size) :
    ∃ m, Automata.ofFrames frames = .ok m ∧ ∀ context source destination : UInt16,
      (((m.automaton? context).bind (·.edge? source destination)).isSome ↔
        traversals source destination (visits context frames) ≠ []) ∧
      ∀ edge, (m.automaton? context).bind (·.edge? source destination) = some edge →
        edge.count.toNat = (traversals source destination (visits context frames)).length ∧
        Aggregate.Reports Aggregate.Sums edge.simMicros
          (simulationTimes (traversals source destination (visits context frames))) ∧
        Aggregate.Reports Aggregate.Sums edge.cycles
          (cycleTimes (traversals source destination (visits context frames))) ∧
        Aggregate.Reports Aggregate.Folds edge.nodeMillis
          (millisTimes (traversals source destination (visits context frames))) := by
  refine ⟨_, Automata.ofFrames_eq frames, fun context source destination => ?_⟩
  have hlen := length_traversals_le source destination (visits context frames)
  have hvisits := length_visits_le context frames
  rw [Automata.edge?_observed]
  obtain ⟨ts, hts⟩ : ∃ ts, ts = traversals source destination (visits context frames) := ⟨_, rfl⟩
  rw [← hts] at hlen ⊢
  constructor
  · by_cases h : ts = []
    · rw [if_pos h]
      exact ⟨nofun, fun hne => absurd h hne⟩
    · rw [if_neg h]
      exact ⟨fun _ => h, fun _ => rfl⟩
  · intro edge hedge
    by_cases h : ts = []
    · rw [if_pos h] at hedge
      cases hedge
    · rw [if_neg h] at hedge
      cases hedge
      have hsim : (simulationTimes ts).length ≤ ts.length := by
        rw [simulationTimes, List.length_map]
        exact List.length_filter_le _ _
      have hnode : (onOneNode ts).length ≤ ts.length := List.length_filter_le _ _
      rw [Statistics.ofSteps_eq]
      refine ⟨UInt64.toNat_ofNat_of_lt' (by omega), ?_, ?_, ?_⟩
      · exact Aggregate.reports_ofList Aggregate.sums_single (fun _ _ x h => Aggregate.sums_add h x) (by omega)
      · refine Aggregate.reports_ofList Aggregate.sums_single (fun _ _ x h => Aggregate.sums_add h x) ?_
        rw [cycleTimes, List.length_map]
        omega
      · refine Aggregate.reports_ofList Aggregate.folds_single (fun _ _ x h => Aggregate.folds_add h x) ?_
        rw [millisTimes, List.length_map]
        omega

/-- A state that is entered three times, with another context in between; the clock runs backwards at the end. -/
def loopFrames : List Frame :=
  [⟨{ kinds := { simulation := true }, simMicros := 10 }, .monitorState ⟨1, 0, 5⟩⟩,
    ⟨{ kinds := { simulation := true }, simMicros := 13 }, .monitorState ⟨2, 0, 5⟩⟩,
    ⟨{ kinds := { simulation := true }, simMicros := 30 }, .monitorState ⟨1, 0, 5⟩⟩,
    ⟨{ kinds := { simulation := true }, simMicros := 25 }, .monitorState ⟨1, 0, 5⟩⟩]

theorem edge_statistics_loop : ∃ m edge sim, Automata.ofFrames loopFrames = .ok m ∧
    (m.automaton? 1).bind (·.edge? 5 5) = some edge ∧ edge.count.toNat = 2 ∧ edge.simMicros = some sim ∧
    sim.samples.toNat = 2 ∧ sim.sum.toNat = 15 ∧ sim.min = 20 ∧ sim.max = 25 - 30 ∧ edge.cycles = none := by
  obtain ⟨m, hm, hedges⟩ := edge_statistics (show (contexts loopFrames).length < UInt64.size by decide)
  obtain ⟨hexists, hreports⟩ := hedges 1 5 5
  obtain ⟨edge, hedge⟩ := Option.isSome_iff_exists.1 (hexists.2 (by decide))
  obtain ⟨hcount, hsim, hcycles, -⟩ := hreports edge hedge
  have htimes : simulationTimes (traversals 5 5 (visits 1 loopFrames)) = [20, 25 - 30] := by decide
  rw [htimes] at hsim
  cases hs : edge.simMicros with
  | none => exact absurd (hsim.none_iff.1 hs) (List.cons_ne_nil _ _)
  | some sim =>
    have hsums := hsim.values sim hs
    have hmin := hsums.min_le 20 List.mem_cons_self
    have hmax := hsums.le_max (25 - 30) (List.mem_cons_of_mem _ List.mem_cons_self)
    refine ⟨m, edge, sim, hm, hedge, hcount, hs, (hsim.samples sim hs).1, hsums.sum, ?_, ?_,
      hcycles.none_iff.2 (by decide)⟩
    · rcases List.mem_cons.1 hsums.min_mem with h | h
      · exact h
      · rw [List.mem_singleton.1 h] at hmin
        exact absurd hmin (by decide)
    · rcases List.mem_cons.1 hsums.max_mem with h | h
      · rw [h] at hmax
        exact absurd hmax (by decide)
      · exact List.mem_singleton.1 h

end NodeTrace
