import NodeTrace.Command
import NodeTrace.Directory
import NodeTrace.Names.BuiltIn
import NodeTrace.Names.File

/-!
# Running a job

A job registers the built-in names and then those of its names file, opens its trace file, and analyses it.
The names come first: if they cannot be had, the trace file is not opened.  What makes a catalogue of an opened names
file is up to the caller; the program passes `Catalogue.read`.
-/

namespace NodeTrace

/-- Why a job failed. -/
inductive RunError where
  | builtInNames (error : NameError)
  | noNamesFile (path : String) (fault : Fault)
  | badNamesFile (path : String) (problem : Json.Problem)
  | namesFile (path : String) (error : NameError)
  | noTraceFile (path : String) (fault : Fault)
  | analysis (path : String) (error : AnalysisError)
  deriving DecidableEq, Repr

/-- The fault of the outside world behind an analysis error. -/
def AnalysisError.fault? : AnalysisError → Option Fault
  | .decode (.io fault) => some fault
  | .output fault => some fault
  | _ => none

/-- What a job tried when it failed. -/
def RunError.attempt : RunError → String
  | .builtInNames _ => "cannot register built-in monitor names"
  | .noNamesFile path _ => "cannot open names file " ++ path
  | .badNamesFile path _ => "invalid names file " ++ path
  | .namesFile path _ => "cannot register names from " ++ path
  | .noTraceFile path _ => "cannot open trace " ++ path
  | .analysis path _ => path ++ ": parsing error"

/-- Why a job failed, from the nearest cause to the farthest.  A fault of the outside world is named once more
at the end. -/
def RunError.causes : RunError → List String
  | .builtInNames error | .namesFile _ error => [error.message]
  | .noNamesFile _ fault | .badNamesFile _ (.unread fault) | .noTraceFile _ fault => [fault.message]
  | .badNamesFile .. => []
  | .analysis _ error => error.message :: (error.fault?.map Fault.message).toList

/-- The wording of a run error, from what was tried to why it failed. -/
def RunError.message (error : RunError) : String :=
  ": ".intercalate (error.attempt :: error.causes)

/-- The result of a job: the number of events or why it failed, the sink afterwards, and the records made. -/
structure Ran where
  outcome : Except RunError Nat
  sink : Sink
  log : List LogRecord

/-- What makes a catalogue of an opened file. -/
abbrev CatalogueReader : Type := Source → Except Json.Problem Catalogue

/-- Add the names of a names file. -/
def Names.addFile (names : Names) (read : CatalogueReader) (files : Files) (path : String) :
    Except RunError Names := do
  let source ← (files path).mapError (RunError.noNamesFile path)
  let catalogue ← (read source).mapError (RunError.badNamesFile path)
  ((Names.apply catalogue).on names).mapError (RunError.namesFile path)

namespace Job

/-- The names that a job shows ids by. -/
def names (job : Job) (read : CatalogueReader) (files : Files) : Except RunError Names := do
  let names ← (BuiltIn.register.on {}).mapError RunError.builtInNames
  let names ← match job.namesFile with
    | none => pure names
    | some path => names.addFile read files path
  return names.enable job.resolveNames

/-- The records of an analysis and, if it succeeded, one with the number of events. -/
def report (job : Job) (done : Analysed) : Ran :=
  match done.outcome with
  | .error e => ⟨.error (.analysis job.traceFile e), done.sink, done.log⟩
  | .ok count =>
    let record := ⟨.info, job.traceFile ++ ": " ++ Digits.decimal count ++ " events"⟩
    ⟨.ok count, done.sink, done.log ++ [record]⟩

/-- Run a job. -/
def run (job : Job) (read : CatalogueReader) (files : Files) (sink : Sink) : Ran :=
  let ran : Ran := match job.names read files with
    | .error e => ⟨.error e, sink, []⟩
    | .ok names =>
      match files job.traceFile with
      | .error fault => ⟨.error (.noTraceFile job.traceFile fault), sink, []⟩
      | .ok source => job.report (job.analysis.run job.payloadLimit names source sink)
  { ran with log := BuiltIn.remark :: ran.log }

end Job

end NodeTrace
