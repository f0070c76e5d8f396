import NodeTrace.Automaton.Dot
import NodeTrace.Listing
import NodeTrace.Tally.Report

/-!
# Analyses

An analysis reads a whole trace and writes a listing, the graphs of the automata, or a report of the tally.
A listing is written event by event, so what precedes a decode error is written; graphs and reports are
written once the trace has ended cleanly, and nothing is written otherwise.  The sink is flushed once, at the
end of an analysis that succeeds.
-/

namespace NodeTrace

/-- What an analysis writes. -/
inductive Mode where
  | listing
  | graph
  | report
  deriving DecidableEq, Repr

namespace Mode

/-- Every mode, in the order in which they are listed. -/
def all : List Mode := [.listing, .graph, .report]

/-- The name by which a mode is chosen. -/
def name : Mode → String
  | .listing => "print"
  | .graph => "graph"
  | .report => "stat"

/-- What a mode writes. -/
def description : Mode → String
  | .listing => "Print each event on the standard output."
  | .graph => "Output dot graph of the components automata."
  | .report => "Display statistics."

/-- The mode of a name. -/
def ofName? (name : String) : Option Mode := all.find? (·.name = name)

theorem mem_all (mode : Mode) : mode ∈ all := by cases mode <;> decide

theorem ofName?_name (mode : Mode) : ofName? mode.name = some mode := by
  cases mode <;> decide

/-- The modes that can be chosen, one to a line. -/
def choices : List String := all.map fun mode => mode.name ++ "\t" ++ mode.description

end Mode

/-- The metrics that can be chosen, one to a line. -/
def Metric.choices : List String := all.map fun metric => metric.name ++ "\t" ++ metric.description

/-- What to write, with which metric, and whether for a human reader. -/
structure Analysis where
  mode : Mode
  metric : Option Metric := none
  human : Bool := false
  deriving DecidableEq, Repr

/-- The result of an analysis: the number of events or why it failed, the sink afterwards, and the records
made. -/
structure Analysed where
  outcome : Except AnalysisError Nat
  sink : Sink
  log : List LogRecord

namespace Analysis

/-- End an analysis: if all events were handled, write the lines that are left and flush. -/
def finish (outcome : Except AnalysisError Nat) (lines : List String) (sink : Sink)
    (d : Decoder) : Analysed :=
  match outcome with
  | .error e => ⟨.error e, sink, d.log.toList⟩
  | .ok count =>
    match (do Sink.putLines lines; Sink.flush : Write Unit) sink with
    | .ok _ sink' => ⟨.ok count, sink', d.log.toList⟩
    | .error fault sink' => ⟨.error (.output fault), sink', d.log.toList⟩

/-- Analyse a trace that was opened. -/
def runOpened (a : Analysis) (limit : Nat) (names : Names) (d : Decoder) (sink : Sink) : Analysed :=
  match a.mode with
  | .listing =>
    let run := d.dispatch limit (Listing.handler names a.human) { sink }
    finish run.outcome [] run.state.sink run.decoder
  | .graph =>
    let run := d.dispatch limit Automata.handler {}
    finish run.outcome (run.state.lines names a.metric) sink run.decoder
  | .report =>
    let run := d.dispatch limit Tally.handler {}
    finish run.outcome (run.state.lines a.human) sink run.decoder

/-- Analyse the trace that a source delivers. -/
def run (a : Analysis) (limit : Nat) (names : Names) (source : Source) (sink : Sink) : Analysed :=
  match Decode.openTrace limit (.ofSource source) with
  | .error e d => ⟨.error (.decode e), sink, d.log.toList⟩
  | .ok header d =>
    a.runOpened limit names
      (d.note .debug ("trace version " ++ Digits.decimal header.major.toNat ++ "." ++
        Digits.decimal header.minor.toNat ++ ", " ++ a.mode.name ++ " mode")) sink

end Analysis

end NodeTrace
