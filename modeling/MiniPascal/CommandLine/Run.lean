import MiniPascal.CommandLine.Options
import MiniPascal.CommandLine.Report
import MiniPascal.Parse.Parser
import MiniPascal.Print.Tree
import MiniPascal.Storage.SourceFile

/-!
# Running the command line

The program parses one source file and, as the options ask, lists its tokens, prints it in normal
form and shows statistics. It needs a **host** that reads and writes files, shows text, keeps a log
and has a clock. `run` is the same program on every host; a `Session` is a host that exists in
memory.

Nothing is written to a file unless the source has been parsed, and the list of tokens is shown
even if it has not.

The program says at each **stage** what it is about to do or has done, and the host logs it among
the messages, as far as it passes a filter. Reporting progress sets one filter; without it, the
environment of the program sets another one, which may ask for much or for nothing.
-/

namespace MiniPascal

/-- A stage of the program that is logged, with the data that its log is about. A stage has no fixed
text: a host may log any number of events of it, in any form. -/
inductive Stage where
  /-- The tokens of a text are scanned, to be listed or to be counted. -/
  | scanning (text : String)
  /-- The text of a source file is parsed, whatever comes of it. -/
  | parsing (path text : String)
  /-- The text has been parsed, and the nodes of its tree have been counted. -/
  | parsed (path : String) (nodes : Nat)
  /-- A program is printed, to the screen or to a file. -/
  | printing (program : Program)
  /-- The printed program has been written to a file. -/
  | saved (path : String)

/-- A line about a stage, for hosts that log each stage in one line. What went wrong at a stage is
not told here but by the message that ends the run. -/
def Stage.line : Stage → String
  | .scanning text => "scanned " ++ toString (scan text).length ++ " tokens\n"
  | .parsing path _ => "parsing " ++ path ++ "\n"
  | .parsed path nodes => "parsed " ++ path ++ ": " ++ toString nodes ++ " nodes\n"
  | .printing program => "printing " ++ program.name.display ++ "\n"
  | .saved path => "wrote " ++ path ++ "\n"

/-- Which events of a stage are logged. The program chooses between two filters by its options and
knows no more about them; `Host.log` gives them their meaning. -/
inductive LogFilter where
  /-- All events that help to see what the program does. -/
  | progress
  /-- The events that the environment asks for, which may be none. -/
  | environment
deriving DecidableEq, Repr

/-- What the program needs from where it runs: files, a place for results and one for messages, a
log and a clock. Every field is an action of the monad `m`, so that the program is the same on the
operating system (`systemHost`) and in memory (`Session.host`). -/
structure Host (m : Type → Type) where
  readFile : String → m (Except StorageError ByteArray)
  writeFile : String → ByteArray → m (Except StorageError Unit)
  /-- Shows a result. -/
  out : String → m Unit
  /-- Shows a message. -/
  err : String → m Unit
  /-- Shows, among the messages, the events of a stage that pass a filter. -/
  log : LogFilter → Stage → m Unit
  /-- The time in nanoseconds. -/
  clock : m Nat

namespace CommandLine

/-- The name of the program and its version, which is all that a question for the version is
answered with. It is a line of its own. -/
def versionText : String := "psic 0.1.0\n"

/-- How the program is used: what it does, and a line for each option. It is also shown behind the
message for a mistake in a command line. -/
def helpText : String :=
  "Usage: psic [OPTIONS] PATH\n\n" ++
  "Parses a source file and prints it in normal form.\n\n" ++
  "      --tokens       List the tokens\n" ++
  "  -p, --print        Print the program\n" ++
  "  -o, --output FILE  Write the printed program to a file\n" ++
  "  -s, --stats        Show statistics\n" ++
  "  -v, --verbose      Report progress\n" ++
  "  -h, --help         Show this text\n" ++
  "  -V, --version      Show the version\n"

/-- The exit code after a mistake in the command line. No file has been looked at then. The message
comes with the text on how to use the program. -/
def usageCode : UInt32 := 2

/-- The exit code after any other failure: of reading, of parsing or of writing. What has failed is
told by the message, and not by the code. -/
def failureCode : UInt32 := 1

variable {m : Type → Type} [Monad m]

/-- Shows why the program failed, on a line that begins with `Error:`, and gives the exit code for
it. Whoever calls it ends the run with that code. -/
def fail (host : Host m) (message : String) : m UInt32 := do
  host.err ("Error: " ++ message ++ "\n")
  return failureCode

/-- The filter of the log on given options: the environment is only asked if the options do not ask
for progress to be reported. It is set once, before anything is done. -/
def logFilter (options : Options) : LogFilter :=
  if options.has .verbose then .progress else .environment

/-- Logs a stage through the filter that the options set. Every stage of the program is logged by
this. -/
def log (host : Host m) (options : Options) (stage : Stage) : m Unit :=
  host.log (logFilter options) stage

/-- Lists the tokens of a text if the options ask for it. The text is also scanned to count its
tokens for the statistics, so in both cases the log says so. -/
def listTokens (host : Host m) (options : Options) (text : String) : m Unit := do
  if options.has .tokens || options.has .stats then
    log host options (.scanning text)
  if options.has .tokens then
    host.out (Report.listing (scan text))

/-- Parses the text of the source file, and gives the program together with the time that this took
by the clock of the host. The clock is read before the text is parsed, and once more if that
succeeds. -/
def parseTimed (host : Host m) (options : Options) (text : String) :
    m (Except Diagnostic (Program × Nat)) := do
  let start ← host.clock
  log host options (.parsing options.path text)
  match parseText options.path text with
  | .error diagnostic => return .error diagnostic
  | .ok program =>
    let stop ← host.clock
    log host options (.parsed options.path program.size)
    return .ok (program, stop - start)

/-- Prints a program to the output file or the screen, as the options ask. An output file stands in
the way of the screen. Only writing the file can fail. -/
def deliver (host : Host m) (options : Options) (program : Program) :
    m (Except StorageError Unit) := do
  if options.has .print || options.output?.isSome then
    log host options (.printing program)
  let text := program.print ++ "\n"
  match options.output? with
  | some path =>
    match ← host.writeFile path text.toUTF8 with
    | .error error => return .error error
    | .ok () =>
      log host options (.saved path)
      return .ok ()
  | none =>
    if options.has .print then
      host.out text
    return .ok ()

/-- Handles the text of the source file: lists its tokens, parses it, prints the program and shows
statistics, each as the options ask. The first step that fails ends the run with a message. -/
def process (host : Host m) (options : Options) (text : String) : m UInt32 := do
  listTokens host options text
  match ← parseTimed host options text with
  | .error diagnostic =>
    host.err (diagnostic.render text)
    return failureCode
  | .ok (program, time) =>
    match ← deliver host options program with
    | .error error => fail host (SourceFileError.storage error).message
    | .ok () =>
      if options.has .stats then
        host.out (Report.Statistics.of text program time).display
      return 0

/-- Does what the options ask, from reading the source file on, and gives the exit code. Nothing is
logged before the file has been read. It is the whole program but for reading the command line. -/
def execute (host : Host m) (options : Options) : m UInt32 := do
  match ← readSource host.readFile options.path with
  | .error error => fail host error.message
  | .ok text => process host options text

/-- Runs the program on a command line that a reader of arguments makes sense of, and gives its exit
code. A question such as one for the version is answered here, and nothing else is done then. -/
def runWith (reader : ArgumentReader) (host : Host m) (args : List String) : m UInt32 := do
  match reader args with
  | .ok options => execute host options
  | .error .help =>
    host.out helpText
    return 0
  | .error .version =>
    host.out versionText
    return 0
  | .error (.usage error) =>
    host.err ("error: " ++ error.message ++ "\n\n" ++ helpText)
    return usageCode

/-- Runs the program on a command line, which is read by `Options.parse`, and gives its exit code.
Hosts run the program by this; `runWith` leaves the reader of arguments open. -/
def run (host : Host m) (args : List String) : m UInt32 :=
  runWith Options.parse host args

end CommandLine

/-- A file system together with what has been shown, results apart from messages: all that a run of
the program can change. It begins with nothing shown. -/
structure Session where
  files : FileSystem
  out : String := ""
  err : String := ""

namespace Session

/-- A host in memory. Its clock stands still, and its environment asks for no log, so that nothing
is logged unless progress is reported, and then each stage in a line. -/
def host : Host (StateM Session) where
  readFile path := do return (← get).files.read path
  writeFile path content := do
    match (← get).files.write path content with
    | .error error => return .error error
    | .ok files =>
      modify fun session => { session with files }
      return .ok ()
  out text := modify fun session => { session with out := session.out ++ text }
  err text := modify fun session => { session with err := session.err ++ text }
  log
    | .progress, stage => modify fun session => { session with err := session.err ++ stage.line }
    | .environment, _ => return ()
  clock := return 0

/-- Runs the program in memory on a command line: the exit code, and the session that begins with
the given files and nothing shown, as the run leaves it. -/
def run (files : FileSystem) (args : List String) : UInt32 × Session :=
  (CommandLine.run host args).run { files }

end Session

end MiniPascal
