/-!
# Faults of the outside world

Opening a file, reading from a source and writing to a sink can fail for reasons that have nothing to do
with the format of a trace.  `Fault` lists the causes, `Fault.message` words them.
-/

namespace NodeTrace

/-- Why a file could not be opened, read or written. -/
inductive Fault where
  | notFound
  | notADirectory
  | isADirectory
  | nameTooLong
  /-- A sink took no more bytes before everything was written. -/
  | writeZero
  | invalidInput (text : String)
  | other (text : String)
  deriving DecidableEq, Repr

/-- The wording of a fault; the numbers are those the operating system gives these causes. -/
def Fault.message : Fault → String
  | .notFound => "No such file or directory (os error 2)"
  | .notADirectory => "Not a directory (os error 20)"
  | .isADirectory => "Is a directory (os error 21)"
  | .nameTooLong => "File name too long (os error 36)"
  | .writeZero => "failed to write whole buffer"
  | .invalidInput text => text
  | .other text => text

end NodeTrace
