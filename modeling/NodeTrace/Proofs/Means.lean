import Mathlib.Algebra.Order.BigOperators.Group.List
import Mathlib.Algebra.Order.Ring.Nat
import NodeTrace.Automaton.Metric
import NodeTrace.Proofs.EdgeStatistics

/-!
# Least, mean and greatest

The samples of an aggregate lie between its least and its greatest, so their sum lies between the multiples of these
(`Aggregate.between`).  But the aggregate keeps the sum modulo 2 ^ 64.  Once that runs over, the mean may be less than
the least sample, though never more than the greatest.  It does not run over while a clock goes forward, since the time
that passes on some steps of a context is at most what passes on all of them (`total_simulationTimes_le`).
-/

namespace NodeTrace

/-- The sum of whole numbers, however large. -/
def total (xs : List UInt64) : Nat := (xs.map UInt64.toNat).sum

theorem total_singleton (x : UInt64) : total [x] = x.toNat := rfl

theorem total_append (xs ys : List UInt64) : total (xs ++ ys) = total xs + total ys := by
  unfold total
  rw [List.map_append, List.sum_append]

theorem total_le_of_sublist {xs ys : List UInt64} (h : xs.Sublist ys) : total xs ≤ total ys :=
  (h.map UInt64.toNat).sum_le_sum fun _ _ => Nat.zero_le _

/-! ## Aggregates -/

namespace Aggregate

/-- What the least, the sum and the greatest of an aggregate say of each other and of the samples. -/
structure Averages (g : Aggregate UInt64) (xs : List UInt64) : Prop where
  samples : g.samples.toNat = xs.length % UInt64.size
  sum : g.sum.toNat = total xs % UInt64.size
  between : xs.length * g.min.toNat ≤ total xs ∧ total xs ≤ xs.length * g.max.toNat
  /-- The mean is at most the greatest, unless the number of samples has run over. -/
  sum_le : xs.length < UInt64.size → g.sum.toNat ≤ g.samples.toNat * g.max.toNat
  /-- The mean is at least the least, unless the sum has run over. -/
  le_sum : total xs < UInt64.size → g.samples.toNat * g.min.toNat ≤ g.sum.toNat

theorem between {g : Aggregate UInt64} {xs : List UInt64} (h : g.Sums xs) :
    xs.length * g.min.toNat ≤ total xs ∧ total xs ≤ xs.length * g.max.toNat := by
  have hmin := List.card_nsmul_le_sum (xs.map UInt64.toNat) g.min.toNat fun n hn => by
    obtain ⟨x, hx, rfl⟩ := List.mem_map.1 hn
    exact UInt64.le_iff_toNat_le.1 (h.min_le x hx)
  have hmax := List.sum_le_card_nsmul (xs.map UInt64.toNat) g.max.toNat fun n hn => by
    obtain ⟨x, hx, rfl⟩ := List.mem_map.1 hn
    exact UInt64.le_iff_toNat_le.1 (h.le_max x hx)
  rw [List.length_map, Nat.nsmul_eq_mul] at hmin hmax
  exact ⟨hmin, hmax⟩

theorem averages_ofList {g : Aggregate UInt64} {xs : List UInt64} (h : ofList xs = some g) : g.Averages xs := by
  have hsums := ofList_induction sums_single (fun _ _ x h => sums_add h x) h
  have hsamples : g.samples.toNat = xs.length % UInt64.size := by
    rw [ofList_samples h, UInt64.toNat_ofNat']
  have hsum : g.sum.toNat = total xs % UInt64.size := hsums.sum
  obtain ⟨hmin, hmax⟩ := between hsums
  refine ⟨hsamples, hsum, ⟨hmin, hmax⟩, fun hlen => ?_, fun htotal => ?_⟩
  · calc g.sum.toNat ≤ total xs := by
          rw [hsum]
          exact Nat.mod_le _ _
      _ ≤ xs.length * g.max.toNat := hmax
      _ = g.samples.toNat * g.max.toNat := by rw [hsamples, Nat.mod_eq_of_lt hlen]
  · calc g.samples.toNat * g.min.toNat ≤ xs.length * g.min.toNat := by
          rw [hsamples]
          exact Nat.mul_le_mul_right _ (Nat.mod_le _ _)
      _ ≤ total xs := hmin
      _ = g.sum.toNat := by rw [hsum, Nat.mod_eq_of_lt htotal]

end Aggregate

/-! ## Clocks that go forward -/

/-- The simulated times at which states were entered, as far as the scopes tell. -/
def clock (vs : List Visit) : List UInt64 := vs.filterMap (·.scope.simulation?)

theorem clock_concat (vs : List Visit) (v : Visit) : clock (vs ++ [v]) = clock vs ++ v.scope.simulation?.toList := by
  unfold clock
  rw [List.filterMap_append, List.filterMap_cons, List.filterMap_nil]
  cases v.scope.simulation? <;> rfl

theorem Statistics.simulationDelta_eq_some {source destination : Scope} {delta : UInt64}
    (h : simulationDelta source destination = some delta) : ∃ start stop,
      source.simulation? = some start ∧ destination.simulation? = some stop ∧ delta = stop - start := by
  unfold simulationDelta at h
  cases hstart : source.simulation? with
  | none =>
    rw [hstart] at h
    cases h
  | some start =>
    cases hstop : destination.simulation? with
    | none =>
      rw [hstart, hstop] at h
      cases h
    | some stop =>
      rw [hstart, hstop] at h
      exact ⟨start, stop, rfl, rfl, (Option.some.inj h).symm⟩

/-- No more time passes on all steps than the clock shows in the end. -/
theorem total_simulationTimes_le {vs : List Visit} (h : (clock vs).Pairwise (· ≤ ·)) {b : UInt64}
    (hb : ∀ c ∈ clock vs, c ≤ b) : total (simulationTimes (steps vs)) ≤ b.toNat := by
  induction vs using List.reverseRecOn generalizing b with
  | nil => exact Nat.zero_le _
  | append_singleton vs v ih =>
    rw [clock_concat] at h hb
    obtain ⟨hvs, -, hv⟩ := List.pairwise_append.1 h
    have hbvs : ∀ c ∈ clock vs, c ≤ b := fun c hc => hb c (List.mem_append_left _ hc)
    cases hlast : vs.getLast? with
    | none =>
      obtain rfl := List.getLast?_eq_none_iff.1 hlast
      exact Nat.zero_le _
    | some u =>
      rw [steps_concat hlast, Statistics.simulationTimes_concat, total_append]
      cases hdelta : Statistics.simulationDelta u.scope v.scope with
      | none => exact ih hvs hbvs
      | some delta =>
        obtain ⟨start, stop, hstart, hstop, rfl⟩ := Statistics.simulationDelta_eq_some hdelta
        -- the clock of the last visit is the greatest so far
        have hlatest : ∀ c ∈ clock vs, c ≤ start := by
          obtain ⟨past, rfl⟩ := List.getLast?_eq_some_iff.1 hlast
          rw [clock_concat, hstart] at hvs ⊢
          exact List.forall_mem_append.2 ⟨fun c hc => (List.pairwise_append.1 hvs).2.2 c hc start List.mem_cons_self,
            List.forall_mem_singleton.2 (UInt64.le_refl start)⟩
        have hmem : start ∈ clock vs := List.mem_filterMap.2 ⟨u, List.mem_of_getLast? hlast, hstart⟩
        rw [hstop] at hv hb
        have hstep : start ≤ stop := hv start hmem stop List.mem_cons_self
        have hend := UInt64.le_iff_toNat_le.1 (hb stop (List.mem_append_right _ List.mem_cons_self))
        have hle := UInt64.le_iff_toNat_le.1 hstep
        have hpast := ih hvs hlatest
        rw [Option.toList_some, total_singleton, UInt64.toNat_sub_of_le _ _ hstep]
        omega

/-- The time that passes from one state to another is part of the time that passes. -/
theorem total_simulationTimes_lt {vs : List Visit} (h : (clock vs).Pairwise (· ≤ ·)) (source destination : UInt16) :
    total (simulationTimes (traversals source destination vs)) < UInt64.size := by
  have hsublist : (simulationTimes (traversals source destination vs)).Sublist (simulationTimes (steps vs)) :=
    (List.filter_sublist.filter _).map _
  have hall : total (simulationTimes (steps vs)) ≤ (UInt64.ofNat (UInt64.size - 1)).toNat :=
    total_simulationTimes_le h fun c _ => UInt64.le_iff_toNat_le.2 (Nat.le_pred_of_lt c.toNat_lt)
  exact Nat.lt_of_le_of_lt ((total_le_of_sublist hsublist).trans hall) (UInt64.toNat_lt _)

/-! ## Transitions -/

/-- Simulated time that is 0 and 2 ^ 63 in turn, and a state for each. -/
def swinging : List Frame :=
  [⟨{ kinds := { simulation := true }, simMicros := 0 }, .monitorState ⟨1, 0, 5⟩⟩,
    ⟨{ kinds := { simulation := true }, simMicros := 0x8000000000000000 }, .monitorState ⟨1, 0, 6⟩⟩,
    ⟨{ kinds := { simulation := true }, simMicros := 0 }, .monitorState ⟨1, 0, 5⟩⟩,
    ⟨{ kinds := { simulation := true }, simMicros := 0x8000000000000000 }, .monitorState ⟨1, 0, 6⟩⟩]

/-- Two samples of 2 ^ 63 have the sum 0, so their mean is less than either. -/
theorem mean_below_min : ∃ m edge g, Automata.ofFrames swinging = .ok m ∧
    (m.automaton? 1).bind (·.edge? 5 6) = some edge ∧ edge.simMicros = some g ∧
    ¬g.samples.toNat * g.min.toNat ≤ g.sum.toNat ∧
    Metric.simMicros.label edge = "min=9223372036854775808 avg=0.000 max=9223372036854775808" := by
  refine ⟨_, ⟨2, some ⟨0, 0x8000000000000000, 0x8000000000000000, 2⟩, none, none⟩, _, Automata.ofFrames_eq swinging, ?_, rfl,
    by decide, by decide +kernel⟩
  rw [Automata.edge?_observed]
  decide +kernel

/-- Observing state changes never fails.  The samples of a transition lie between the least and the greatest, and so does
their sum between the multiples of these.  The aggregate has this sum modulo 2 ^ 64: its mean is at most the greatest
sample, and at least the least if the sum of the samples is less than 2 ^ 64.  That of simulated times is as long as the
simulated time of the context never goes back. -/
theorem means_between (frames : List Frame) : ∃ m, Automata.ofFrames frames = .ok m ∧
    ∀ (context source destination : UInt16) (edge : Statistics),
      (m.automaton? context).bind (·.edge? source destination) = some edge →
        (∀ g, edge.simMicros = some g →
          g.Averages (simulationTimes (traversals source destination (visits context frames)))) ∧
        (∀ g, edge.cycles = some g → g.Averages (cycleTimes (traversals source destination (visits context frames)))) ∧
        ((clock (visits context frames)).Pairwise (· ≤ ·) → ∀ g, edge.simMicros = some g →
          g.samples.toNat * g.min.toNat ≤ g.sum.toNat) := by
  refine ⟨_, Automata.ofFrames_eq frames, fun context source destination edge hedge => ?_⟩
  rw [Automata.edge?_observed] at hedge
  obtain ⟨-, hsome⟩ := Option.ite_none_left_eq_some.1 hedge
  obtain rfl := Option.some.inj hsome
  rw [Statistics.ofSteps_eq]
  refine ⟨fun g hg => Aggregate.averages_ofList hg, fun g hg => Aggregate.averages_ofList hg, fun hclock g hg => ?_⟩
  exact (Aggregate.averages_ofList hg).le_sum (total_simulationTimes_lt hclock source destination)

/-- Simulated time that goes forward, with a state change whose scope does not tell it. -/
def forwardFrames : List Frame :=
  [⟨{ kinds := { simulation := true }, simMicros := 10 }, .monitorState ⟨1, 0, 5⟩⟩,
    ⟨{ kinds := { simulation := true }, simMicros := 30 }, .monitorState ⟨1, 0, 6⟩⟩,
    ⟨{}, .monitorState ⟨1, 0, 7⟩⟩,
    ⟨{ kinds := { simulation := true }, simMicros := 31 }, .monitorState ⟨1, 0, 5⟩⟩,
    ⟨{ kinds := { simulation := true }, simMicros := 36 }, .monitorState ⟨1, 0, 6⟩⟩]

theorem means_between_forward : (clock (visits 1 forwardFrames)).Pairwise (· ≤ ·) ∧ ∃ m edge g,
    Automata.ofFrames forwardFrames = .ok m ∧ (m.automaton? 1).bind (·.edge? 5 6) = some edge ∧
    edge.simMicros = some g ∧ g.Averages [20, 5] ∧ g.samples.toNat * g.min.toNat ≤ g.sum.toNat ∧
    g.sum.toNat ≤ g.samples.toNat * g.max.toNat := by
  have hclock : (clock (visits 1 forwardFrames)).Pairwise (· ≤ ·) := by decide
  obtain ⟨m, hm, hedges⟩ := means_between forwardFrames
  have hobserved : m = .observed forwardFrames := Except.ok.inj (hm.symm.trans (Automata.ofFrames_eq forwardFrames))
  have hedge : (m.automaton? 1).bind (·.edge? 5 6) = some ⟨2, some ⟨25, 5, 20, 2⟩, none, none⟩ := by
    rw [hobserved, Automata.edge?_observed]
    decide +kernel
  obtain ⟨hsim, -, hforward⟩ := hedges 1 5 6 _ hedge
  have haverages : (⟨25, 5, 20, 2⟩ : Aggregate UInt64).Averages [20, 5] := hsim _ rfl
  exact ⟨hclock, m, _, _, hm, hedge, rfl, haverages, hforward hclock _ rfl, haverages.sum_le (by decide)⟩

end NodeTrace
