import NodeTrace.Automaton.Basic
import NodeTrace.Automaton.Metric
import NodeTrace.Names.Registry

/-!
# Automata as graphs

An automaton as a directed graph in the DOT language: one statement for each state, followed by one for each
transition that leaves it, labelled if a metric is chosen.  Names are written between double quotes as they
are.
-/

namespace NodeTrace

/-- Text between double quotes. -/
def inQuotes (text : String) : String := "\"" ++ text ++ "\""

namespace Automaton

/-- The statement of a transition. -/
def transitionLine (names : Names) (metric : Option Metric) (a : Automaton) (n : StateNode)
    (t : Transition) : String :=
  inQuotes (names.showState a.context n.state) ++ " -> " ++
    inQuotes (names.showState a.context t.destination) ++
    match metric with
    | none => ""
    | some metric => " [ label=" ++ inQuotes (metric.label t.statistics) ++ " ]"

/-- The statements of a state and of the transitions that leave it. -/
def stateLines (names : Names) (metric : Option Metric) (a : Automaton) (n : StateNode) :
    List String :=
  (inQuotes (names.showState a.context n.state) ++ ";") ::
    n.transitions.map (a.transitionLine names metric n)

/-- The graph of an automaton. -/
def lines (names : Names) (metric : Option Metric) (a : Automaton) : List String :=
  ("digraph " ++ inQuotes (names.showContext a.context) ++ " \x7b") ::
    a.states.flatMap (a.stateLines names metric) ++ ["\x7d"]

end Automaton

/-- The graphs of all automata, one after the other. -/
def Automata.lines (names : Names) (metric : Option Metric) (m : Automata) : List String :=
  m.automata.flatMap (·.lines names metric)

end NodeTrace
