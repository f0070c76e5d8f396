import NodeTrace.Format

/-!
# Options

Options are read from the arguments of the command line from left to right.  An option that takes a value
finds it in the same argument, behind its letter or an equals sign, or in the argument that follows, which
may not begin with a dash.  Letters of one argument are read in turn.  Two dashes alone end the options, and
what is no option names the trace file.  Nothing may be given twice.

A value that stands in an argument of its own is put into the options only when the next option, flag or
file name is met, or at the end.  Hence of two faults the earlier one counts, but an argument that cannot be
read at all counts before a fault of the value in front of it.
-/

namespace NodeTrace

/-- What the command line chooses. -/
structure Options where
  output : String := "print"
  metric : Option String := none
  human : Bool := false
  noNames : Bool := false
  namesFile : Option String := none
  payloadLimit : Nat := Format.defaultPayloadLimit
  verbose : Bool := false
  traceFile : Option String := none
  deriving DecidableEq, Repr

/-- Why arguments give no options.  Help and the version are asked for in the place of options. -/
inductive UsageError where
  | unknownArgument
  /-- A value is missing, or a file name is empty. -/
  | noValue
  | badNumber
  | repeated
  /-- A flag was given a value. -/
  | unwantedValue
  | help
  | version
  deriving DecidableEq, Repr

/-- What is either given or not. -/
inductive Flag where
  | human
  | noNames
  | verbose
  deriving DecidableEq, Repr

/-- What has a value. -/
inductive Setting where
  | output
  | metric
  | namesFile
  | payloadLimit
  | traceFile
  deriving DecidableEq, Repr

/-- What the name of an option stands for. -/
inductive Choice where
  | flag (flag : Flag)
  | setting (setting : Setting)
  | help
  | version
  deriving DecidableEq, Repr

namespace Choice

/-- Every choice with its long name and its letter.  The trace file has neither. -/
def table : List (String × Option Char × Choice) := [
  ("output", some 'o', .setting .output),
  ("graph-metric", some 'G', .setting .metric),
  ("human", some 'H', .flag .human),
  ("no-ids", some 'i', .flag .noNames),
  ("names", some 'n', .setting .namesFile),
  ("max-payload", none, .setting .payloadLimit),
  ("verbose", some 'v', .flag .verbose),
  ("help", some 'h', .help),
  ("version", some 'V', .version)]

/-- The choice of a long name. -/
def ofName? (name : String) : Option Choice :=
  (table.find? (·.1 = name)).map (·.2.2)

/-- The choice of a letter. -/
def ofLetter? (letter : Char) : Option Choice :=
  (table.find? (·.2.1 = some letter)).map (·.2.2)

end Choice

/-- The number of decimal digits, which a plus sign may precede.  It has to fit 64 bits. -/
def number? (text : String) : Option Nat :=
  let digits := match text.toList with
    | '+' :: rest => rest
    | all => all
  if digits.isEmpty ∨ !digits.all Char.isDigit then none
  else
    let n := digits.foldl (fun n c => n * 10 + (c.toNat - '0'.toNat)) 0
    if n < UInt64.size then some n else none

namespace Options

/-- Put a flag into options. -/
def raise (o : Options) : Flag → Options
  | .human => { o with human := true }
  | .noNames => { o with noNames := true }
  | .verbose => { o with verbose := true }

/-- A file name, which may not be empty. -/
def fileName (name : String) : Except UsageError String :=
  if name.isEmpty then .error .noValue else .ok name

/-- Put a value into options. -/
def fill (o : Options) (setting : Setting) (value : String) : Except UsageError Options :=
  match setting with
  | .output => return { o with output := value }
  | .metric => return { o with metric := some value }
  | .namesFile => return { o with namesFile := some (← fileName value) }
  | .payloadLimit =>
    match number? value with
    | some n => return { o with payloadLimit := n }
    | none => throw .badNumber
  | .traceFile => return { o with traceFile := some (← fileName value) }

/-- Arguments that were read in part. -/
structure Reading where
  options : Options := {}
  flags : List Flag := []
  settings : List Setting := []
  /-- The setting that was named last, and its value once it was met. -/
  waiting : Option (Setting × Option String) := none
  /-- Two dashes were met, so that only file names follow. -/
  namesOnly : Bool := false
  /-- A trace file was met. -/
  traceMet : Bool := false

namespace Reading

/-- Put a setting and its value into the options. -/
def give (r : Reading) (setting : Setting) (value : String) : Except UsageError Reading := do
  if setting ∈ r.settings then throw .repeated
  return { r with options := ← r.options.fill setting value, settings := setting :: r.settings }

/-- Put the setting that waits into the options. -/
def settle (r : Reading) : Except UsageError Reading :=
  match r.waiting with
  | none => return r
  | some (_, none) => throw .noValue
  | some (setting, some value) => { r with waiting := none }.give setting value

/-- Read a choice that has no value. -/
def plain (r : Reading) (choice : Choice) : Except UsageError Reading := do
  let r ← r.settle
  match choice with
  | .flag flag =>
    if flag ∈ r.flags then throw .repeated
    return { r with options := r.options.raise flag, flags := flag :: r.flags }
  | .setting setting => return { r with waiting := some (setting, none) }
  | .help => throw .help
  | .version => throw .version

/-- Read a setting whose value stands in the same argument. -/
def attached (r : Reading) (setting : Setting) (value : List Char) : Except UsageError Reading := do
  (← r.settle).give setting (String.ofList value)

/-- Read a long name and what follows it. -/
def long (r : Reading) (chars : List Char) : Except UsageError Reading :=
  match Choice.ofName? (String.ofList (chars.takeWhile (· ≠ '='))), chars.dropWhile (· ≠ '=') with
  | none, _ => throw .unknownArgument
  | some choice, [] => r.plain choice
  | some (.setting setting), _ :: value => r.attached setting value
  | some _, _ :: _ => throw .unwantedValue

/-- Read letters in turn. -/
def letters (r : Reading) : List Char → Except UsageError Reading
  | [] => return r
  | c :: rest =>
    match Choice.ofLetter? c, rest with
    | none, _ => throw .unknownArgument
    | some (.setting setting), '=' :: value => r.attached setting value
    | some (.setting setting), b :: value => r.attached setting (b :: value)
    | some choice, _ => do letters (← r.plain choice) rest

/-- Read the name of the trace file. -/
def file (r : Reading) (name : String) : Except UsageError Reading := do
  if r.traceMet then throw .unknownArgument
  return { ← r.settle with waiting := some (.traceFile, some name), traceMet := true }

/-- Read what is no option: the value of the setting that waits for one, or the trace file. -/
def operand (r : Reading) (text : String) : Except UsageError Reading :=
  match r.namesOnly, r.waiting with
  | false, some (setting, none) => return { r with waiting := some (setting, some text) }
  | _, _ => r.file text

/-- Read one argument. -/
def argument (r : Reading) (text : String) : Except UsageError Reading :=
  if r.namesOnly then r.operand text
  else
    match text.toList with
    | ['-', '-'] => return { r with namesOnly := true }
    | '-' :: '-' :: chars => r.long chars
    | '-' :: c :: rest => r.letters (c :: rest)
    | _ => r.operand text

end Reading

/-- The options that arguments give. -/
def ofArguments (arguments : List String) : Except UsageError Options := do
  let r ← arguments.foldlM Reading.argument {}
  return (← r.settle).options

end Options

end NodeTrace
