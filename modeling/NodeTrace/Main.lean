import NodeTrace.CommandLine

/-!
# The program

Opens the files that the arguments name, and writes what the run of the command line leaves.
-/

namespace NodeTrace.Program

/-- The cause of an error of the file system. -/
def fault : IO.Error → Fault
  | .noFileOrDirectory .. => .notFound
  | .inappropriateType _ 20 _ => .notADirectory
  | .invalidArgument _ 36 _ => .nameTooLong
  | e => .other (toString e)

/-- Read an opened file to its end; what cannot be read is a directory. -/
def readAll (handle : IO.FS.Handle) : IO Source := do
  match ← EIO.toBaseIO handle.readBinToEnd with
  | .ok bytes => return .ofBytes bytes.toList
  | .error _ => return .ofDirectory

/-- Open and read a file. -/
def load (path : String) : IO (Except Fault Source) := do
  match ← EIO.toBaseIO (IO.FS.Handle.mk path .read) with
  | .ok handle => return .ok (← readAll handle)
  | .error e => return .error (fault e)

/-- The files that options name. -/
def loadAll (options : Option Options) : IO Files := do
  let paths := options.elim [] fun o => o.namesFile.toList ++ o.traceFile.toList
  let loaded ← paths.mapM fun path => return (path, ← load path)
  return fun path => (loaded.lookup path).getD (.error .notFound)

/-- Records are shown from warnings on, or from debugging on if the options ask for it. -/
def isShown (verbose : Bool) : LogLevel → Bool
  | .warn => true
  | .info | .debug => verbose
  | .trace => false

end NodeTrace.Program

open NodeTrace in
def main (arguments : List String) : IO UInt32 := do
  let options := (Options.ofArguments arguments).toOption
  let ended := CommandLine.run Catalogue.read (← Program.loadAll options) arguments
  let errors ← IO.getStderr
  for record in ended.log do
    if Program.isShown ((options.map (·.verbose)).getD false) record.level then
      errors.putStrLn ("[" ++ record.level.name ++ "] " ++ record.text)
  let output ← IO.getStdout
  output.write ⟨ended.output⟩
  output.flush
  errors.putStr ended.complaint
  return ended.code
