/-!
# Log records

What a run has to say besides its result is a list of records, each with a level.  Records are data: the
functions that decode and analyse a trace return them in the order in which they were made, and only the
command line decides which of them are shown.
-/

namespace NodeTrace

/-- How important a record is, from the most to the least. -/
inductive LogLevel where
  | warn
  | info
  | debug
  | trace
  deriving DecidableEq, Repr

/-- The name under which a level is shown. -/
def LogLevel.name : LogLevel → String
  | .warn => "WARN"
  | .info => "INFO"
  | .debug => "DEBUG"
  | .trace => "TRACE"

/-- One message and its level. -/
structure LogRecord where
  level : LogLevel
  text : String
  deriving DecidableEq, Repr

end NodeTrace
