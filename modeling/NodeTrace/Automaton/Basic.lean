import NodeTrace.AnalysisError
import NodeTrace.Automaton.Statistics
import NodeTrace.Handler
import NodeTrace.Keyed

/-!
# State automata

Each context of a trace is an automaton that is observed through its state changes.  A state exists once it
was entered, a transition once it was taken; both keep the order in which they first came.  An automaton
remembers the state that was entered last, and each state the scope in which it was entered last, so that
the next change yields a transition from one scope to the next.
-/

namespace NodeTrace

/-- A transition to a state, with what is known of it. -/
structure Transition where
  destination : UInt16
  statistics : Statistics := {}
  deriving DecidableEq, Repr

/-- A state and the transitions that leave it, one for each destination. -/
structure StateNode where
  state : UInt16
  /-- The scope in which the state was entered last. -/
  lastScope : Scope := {}
  transitions : List Transition := []
  deriving DecidableEq, Repr

/-- What was observed of one context. -/
structure Automaton where
  context : UInt16
  /-- The state that was entered last. -/
  lastState : Option UInt16 := none
  states : List StateNode := []
  deriving DecidableEq, Repr

namespace StateNode

/-- The transition to a state. -/
def transition? (n : StateNode) (destination : UInt16) : Option Transition :=
  Keyed.find? Transition.destination destination n.transitions

/-- The state is left for another (or the same) state, which is entered in a scope. -/
def leave (n : StateNode) (destination : UInt16) (scope : Scope) : StateNode :=
  { n with
    transitions := Keyed.upsert Transition.destination destination { destination }
      (fun t => { t with statistics := t.statistics.take n.lastScope scope }) n.transitions }

/-- The state is entered in a scope. -/
def enter (n : StateNode) (scope : Scope) : StateNode := { n with lastScope := scope }

end StateNode

namespace Automaton

/-- A state that was entered. -/
def state? (a : Automaton) (state : UInt16) : Option StateNode :=
  Keyed.find? StateNode.state state a.states

/-- The statistics of the transition between two states. -/
def edge? (a : Automaton) (source destination : UInt16) : Option Statistics :=
  ((a.state? source).bind (·.transition? destination)).map (·.statistics)

/-- How many states were entered. -/
def stateCount (a : Automaton) : Nat := a.states.length

/-- How many transitions were taken. -/
def transitionCount (a : Automaton) : Nat := (a.states.flatMap (·.transitions)).length

/-- Change a state that has to exist. -/
def changeState (a : Automaton) (state : UInt16) (change : StateNode → StateNode)
    (states : List StateNode) : Except AnalysisError (List StateNode) :=
  match Keyed.change? StateNode.state state change states with
  | none => .error (.missingState a.context state)
  | some states => .ok states

/-- A state is entered in a scope; the state that was entered before is left for it. -/
def observe (a : Automaton) (scope : Scope) (state : UInt16) : Except AnalysisError Automaton := do
  let known := Keyed.upsert StateNode.state state { state } id a.states
  let left ← match a.lastState with
    | none => pure known
    | some previous => a.changeState previous (·.leave state scope) known
  let entered ← a.changeState state (·.enter scope) left
  return { a with lastState := some state, states := entered }

end Automaton

/-- The automata of all contexts, in the order in which the contexts were first observed. -/
structure Automata where
  automata : List Automaton := []
  deriving DecidableEq, Repr

namespace Automata

/-- The automaton of a context. -/
def automaton? (m : Automata) (context : UInt16) : Option Automaton :=
  Keyed.find? Automaton.context context m.automata

/-- No context was observed. -/
def isEmpty (m : Automata) : Bool := m.automata.isEmpty

/-- A context changes its state. -/
def observe (m : Automata) (scope : Scope) (change : StateChange) : Except AnalysisError Automata := do
  let known := (m.automaton? change.context).getD { context := change.context }
  let next ← known.observe scope change.state
  return ⟨Keyed.upsert Automaton.context change.context next (fun _ => next) m.automata⟩

/-- Take note of a frame; only state changes count. -/
def add (m : Automata) (frame : Frame) : Except AnalysisError Automata :=
  match frame.event with
  | .monitorState change => m.observe frame.scope change
  | _ => .ok m

/-- The automata of a list of frames. -/
def ofFrames (frames : List Frame) : Except AnalysisError Automata := frames.foldlM add {}

/-- A handler that observes the state changes and passes over all other events. -/
def handler : Handler Automata AnalysisError where
  unknown _ _ _ := pure ()
  monitorCreate _ _ := pure ()
  monitorState scope change := fun m =>
    match m.observe scope change with
    | .ok m' => .ok () m'
    | .error e => .error e m
  monitorData _ _ := pure ()
  nodeCreate _ := pure ()
  nodeDestroy _ := pure ()
  nodePosition _ _ := pure ()
  ofDecodeError := .decode

/-- Every action of the handler takes note of the frame it is for. -/
theorem handle_eq (frame : Frame) (m : Automata) :
    handler.handle frame m = match m.add frame with
      | .ok m' => .ok () m'
      | .error e => .error e m := by
  obtain ⟨scope, event⟩ := frame
  cases event <;> rfl

end Automata

end NodeTrace
