import NodeTrace.Run

/-!
# The command line

The program reads its arguments, does what they ask for, and ends with an exit code: 0 if it was done, 1 if it
failed, and 2 if the arguments could not be read.  What was written before a failure stays written.
-/

namespace NodeTrace.CommandLine

/-- What the program leaves when it ends. -/
structure Ended where
  code : UInt32 := 0
  output : Array UInt8 := #[]
  /-- The text of the error output, log records apart. -/
  complaint : String := ""
  log : List LogRecord := []

/-- The name and the version of the program. -/
def version : String := "mon-trace 0.1.0"

/-- How the program is called. -/
def usage : String := "Usage: mon-trace [OPTIONS] [TRACE_FILE]"

/-- What the program does and what its options mean. -/
def help : List String := [
  "Decode and analyse binary monitor traces",
  "",
  usage,
  "",
  "Arguments:",
  "  [TRACE_FILE]  The trace file to analyse",
  "",
  "Options:",
  "  -o, --output <OUTPUT>              Output mode (list or ? shows the modes) [default: print]",
  "  -G, --graph-metric <GRAPH_METRIC>  Metric on graph edges (list or ? shows the metrics)",
  "  -H, --human                        Write events or statistics for a human reader",
  "  -i, --no-ids                       Show ids without their names",
  "  -n, --names <NAMES>                JSON file with more names",
  "      --max-payload <MAX_PAYLOAD>    Largest payload in bytes [default: 268435456]",
  "  -v, --verbose                      Show log records",
  "  -h, --help                         Show this text",
  "  -V, --version                      Show the version"]

/-- End after writing lines. -/
def showing (lines : List String) : Ended where
  output := (String.join (lines.map (· ++ "\n"))).toUTF8.data

/-- End with an error. -/
def failing (code : UInt32) (message : String) : Ended where
  code := code
  complaint := "error: " ++ message ++ "\n"

/-- The wording of a usage error. -/
def complaint : UsageError → String
  | .unknownArgument => "unexpected argument found"
  | .noValue => "a value is required"
  | .badNumber => "invalid number"
  | .repeated => "an option cannot be used more than once"
  | .unwantedValue => "unexpected value for an option that takes none"
  | .help | .version => "no options"

/-- End without options. -/
def withoutOptions : UsageError → Ended
  | .help => showing help
  | .version => showing [version]
  | e => failing 2 (complaint e ++ "\n\n" ++ usage)

/-- End with the result of a job. -/
def afterJob (ran : Ran) : Ended :=
  let ended : Ended := match ran.outcome with
    | .ok _ => {}
    | .error e => failing 1 e.message
  { ended with output := ran.sink.written, log := ran.log }

/-- Do what options ask for. -/
def execute (read : CatalogueReader) (files : Files) (options : Options) : Ended :=
  match options.command with
  | .error e => failing 1 e.message
  | .ok .listModes => showing Mode.choices
  | .ok .listMetrics => showing Metric.choices
  | .ok (.run job) => afterJob (job.run read files {})

/-- Do what arguments ask for. -/
def run (read : CatalogueReader) (files : Files) (arguments : List String) : Ended :=
  match Options.ofArguments arguments with
  | .error e => withoutOptions e
  | .ok options => execute read files options

end NodeTrace.CommandLine
