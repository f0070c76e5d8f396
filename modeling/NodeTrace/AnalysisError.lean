import NodeTrace.DecodeError

/-!
# Why an analysis fails

An analysis decodes a trace and writes what it finds, so it fails for a decode error or for a fault of the
sink.  `missingState` says that an automaton lacks a state which it is in.
-/

namespace NodeTrace

/-- Why an analysis failed. -/
inductive AnalysisError where
  | decode (error : DecodeError)
  | output (fault : Fault)
  | missingState (context state : UInt16)
  deriving DecidableEq, Repr

/-- The wording of an analysis error. -/
def AnalysisError.message : AnalysisError → String
  | .decode error => error.message
  | .output fault => "failed to write output: " ++ fault.message
  | .missingState context state =>
    "automaton for context " ++ Digits.hex 4 context.toNat ++ " has no state " ++
      Digits.hex 4 state.toNat

end NodeTrace
