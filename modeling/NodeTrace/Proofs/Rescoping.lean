import NodeTrace.Automaton.Dot
import NodeTrace.Proofs.Observation

/-!
# Automata of visits in other scopes

Of the scopes of its visits, an automaton keeps the times that pass on its steps and, for each state, the scope of the
last visit.  If other scopes in their place let the same times pass, the automaton differs in the scopes that its states
remember and in nothing else (`Automaton.ofVisits_rescope`), and is drawn as before (`Automaton.lines_rescope`).
-/

namespace NodeTrace

/-- The visit in another scope. -/
def Visit.rescope (g : Scope → Scope) (v : Visit) : Visit := ⟨g v.scope, v.state⟩

/-- The state with another scope in which it was entered last. -/
def StateNode.rescope (g : Scope → Scope) (n : StateNode) : StateNode := { n with lastScope := g n.lastScope }

/-- The automaton with other scopes in which its states were entered last. -/
def Automaton.rescope (g : Scope → Scope) (a : Automaton) : Automaton := { a with states := a.states.map (·.rescope g) }

/-- The automata with other scopes in which their states were entered last. -/
def Automata.rescope (g : UInt16 → Scope → Scope) (m : Automata) : Automata where
  automata := m.automata.map fun a => a.rescope (g a.context)

/-- Other scopes let the same times pass; the scope of a state that was never entered stays as it is. -/
structure Scope.KeepsTimes (g : Scope → Scope) : Prop where
  take : ∀ (s : Statistics) (source destination : Scope), s.take (g source) (g destination) = s.take source destination
  initial : g {} = {}

section Visits

variable (g : Scope → Scope) (vs : List Visit) (source destination : UInt16)

theorem steps_rescope : steps (vs.map (Visit.rescope g)) =
    (steps vs).map (Prod.map (Visit.rescope g) (Visit.rescope g)) := by
  unfold steps
  rw [← List.map_tail, List.zip_map]

theorem traversals_rescope : traversals source destination (vs.map (Visit.rescope g)) =
    (traversals source destination vs).map (Prod.map (Visit.rescope g) (Visit.rescope g)) := by
  unfold traversals
  rw [steps_rescope, List.filter_map]
  rfl

theorem successors_rescope : successors source (vs.map (Visit.rescope g)) = successors source vs := by
  unfold successors
  rw [steps_rescope, List.filter_map, List.map_map]
  rfl

end Visits

section KeepsTimes

variable {g : Scope → Scope} (hg : Scope.KeepsTimes g)

include hg

theorem Statistics.ofSteps_rescope (ts : List (Visit × Visit)) :
    ofSteps (ts.map (Prod.map (Visit.rescope g) (Visit.rescope g))) = ofSteps ts := by
  unfold ofSteps
  rw [List.foldl_map]
  congr 1
  funext s t
  exact hg.take s t.1.scope t.2.scope

theorem StateNode.ofVisits_rescope (vs : List Visit) (state : UInt16) :
    ofVisits (vs.map (Visit.rescope g)) state = (ofVisits vs state).rescope g := by
  have hlast : (((vs.map (Visit.rescope g)).filter (·.state = state)).getLast?.map (·.scope)).getD {} =
      g (((vs.filter (·.state = state)).getLast?.map (·.scope)).getD {}) := by
    rw [List.filter_map, List.getLast?_map]
    show (((vs.filter (·.state = state)).getLast?.map (Visit.rescope g)).map (·.scope)).getD {} = _
    cases (vs.filter (·.state = state)).getLast? with
    | none => exact hg.initial.symm
    | some v => rfl
  have htransitions : ((successors state (vs.map (Visit.rescope g))).eraseDups.map fun destination =>
        Transition.mk destination (.ofSteps (traversals state destination (vs.map (Visit.rescope g))))) =
      (successors state vs).eraseDups.map fun destination =>
        Transition.mk destination (.ofSteps (traversals state destination vs)) := by
    simp only [successors_rescope, traversals_rescope, Statistics.ofSteps_rescope hg]
  unfold rescope ofVisits
  rw [hlast, htransitions]

theorem Automaton.ofVisits_rescope (context : UInt16) (vs : List Visit) :
    ofVisits context (vs.map (Visit.rescope g)) = (ofVisits context vs).rescope g := by
  have hstates : (vs.map (Visit.rescope g)).map (·.state) = vs.map (·.state) := by
    rw [List.map_map]
    rfl
  have hlast : (vs.map (Visit.rescope g)).getLast?.map (·.state) = vs.getLast?.map (·.state) := by
    rw [List.getLast?_map, Option.map_map]
    rfl
  unfold rescope ofVisits
  rw [hstates, hlast, List.map_map]
  congr 1
  exact List.map_congr_left fun state _ => StateNode.ofVisits_rescope hg vs state

end KeepsTimes

section Lines

variable (names : Names) (metric : Option Metric)

/-- A graph does not tell in which scopes states were entered last. -/
theorem Automaton.lines_rescope (g : Scope → Scope) (a : Automaton) :
    (a.rescope g).lines names metric = a.lines names metric := by
  unfold lines
  congr 2
  show (a.states.map (·.rescope g)).flatMap _ = _
  rw [List.flatMap_map]
  rfl

theorem Automata.lines_rescope (g : UInt16 → Scope → Scope) (m : Automata) :
    (m.rescope g).lines names metric = m.lines names metric := by
  unfold lines rescope
  rw [List.flatMap_map]
  simp only [Automaton.lines_rescope]

end Lines

/-- Frames with the same contexts whose visits are in other scopes leave automata that remember other scopes. -/
theorem Automata.observed_rescope {g : UInt16 → Scope → Scope} (hg : ∀ context, Scope.KeepsTimes (g context))
    {frames frames' : List Frame} (hcontexts : contexts frames' = contexts frames)
    (hvisits : ∀ context, visits context frames' = (visits context frames).map (Visit.rescope (g context))) :
    observed frames' = (observed frames).rescope g := by
  unfold observed rescope
  rw [hcontexts, List.map_map]
  congr 1
  refine List.map_congr_left fun context _ => ?_
  rw [hvisits]
  exact Automaton.ofVisits_rescope (hg context) context _

end NodeTrace
