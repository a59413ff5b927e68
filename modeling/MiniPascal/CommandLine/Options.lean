/-!
# Command line options

The arguments are read from left to right, and the first one that decides the outcome does so: a
mistake, or a question that has an answer of its own.

* A **long** option begins with two dashes, and a value may follow an equals sign.
* **Short** options share one dash. The one that takes a value takes the rest of the argument, less
  an equals sign, or else the next argument, which must not look like an option.
* After two dashes alone, every argument is a path. One dash alone is a path, too.
* No option may be repeated, no value may be empty, and there is exactly one path.
-/

namespace MiniPascal

/-- An option that is on or off. Each can be given once; the order in which several are given does
not matter. What each of them means for a run is decided in `CommandLine.process`. -/
inductive Flag where
  /-- List the tokens. -/
  | tokens
  /-- Print the program. -/
  | print
  /-- Show statistics. -/
  | stats
  /-- Report progress. -/
  | verbose
deriving DecidableEq, Repr

/-- What an option asks for: a flag to be set, a file to write to, or an answer in place of a run.
It is what a name or a letter on the command line stands for. -/
inductive Switch where
  | flag (flag : Flag)
  /-- A file for the printed program, which is named by the value of the option. -/
  | output
  | help
  | version
deriving DecidableEq, Repr

namespace Switch

/-- The option of a name after two dashes, in full: a name is not completed if it is cut short. -/
def ofName? : String → Option Switch
  | "tokens" => some (.flag .tokens)
  | "print" => some (.flag .print)
  | "stats" => some (.flag .stats)
  | "verbose" => some (.flag .verbose)
  | "output" => some .output
  | "help" => some .help
  | "version" => some .version
  | _ => none

/-- The option of a letter after one dash. The list of tokens has no letter, and the case of letters
matters. Several letters can share one dash (`Draft.addLetters`). -/
def ofLetter? : Char → Option Switch
  | 'p' => some (.flag .print)
  | 's' => some (.flag .stats)
  | 'v' => some (.flag .verbose)
  | 'o' => some .output
  | 'h' => some .help
  | 'V' => some .version
  | _ => none

end Switch

/-- What is wrong with a command line. Only the first mistake is reported, with the argument that it
is about. Nothing is run then, and the exit code says so (`CommandLine.usageCode`). -/
inductive UsageError where
  | unknownOption (option : String)
  | repeatedOption
  | missingValue
  | emptyValue
  | needlessValue (option : String)
  | extraPath (path : String)
  | missingPath
deriving DecidableEq, Repr

/-- The message for a mistake in a command line, which stands on one line before the text on how to
use the program. -/
def UsageError.message : UsageError → String
  | .unknownOption option => "unknown option " ++ option
  | .repeatedOption => "an option is given twice"
  | .missingValue => "the value of an option is missing"
  | .emptyValue => "a value is empty"
  | .needlessValue option => "option " ++ option ++ " takes no value"
  | .extraPath path => "unexpected argument " ++ path
  | .missingPath => "the path of the source file is missing"

/-- Why there is nothing to run: a question that has an answer of its own, or a mistake. Each has an
exit code of its own. -/
inductive EarlyExit where
  | help
  | version
  | usage (error : UsageError)
deriving DecidableEq, Repr

/-- What a command line asks for: one source file, an output file if there is one, and the flags
that are on, in no order that matters. `Options.parse` makes it of the arguments, and
`CommandLine.execute` does it. -/
structure Options where
  path : String
  output? : Option String
  flags : List Flag
deriving DecidableEq, Repr

namespace Options

/-- What has been read of a command line. Everything may still be missing, the path too, which is
asked for only in the end (`finish`). Every reading step is a function from one draft to the
next. -/
structure Draft where
  path? : Option String := none
  output? : Option String := none
  flags : List Flag := []
deriving DecidableEq, Repr

namespace Draft

/-- Reads a flag, and fails if the flag is on already. The latest flag stands first. -/
def addFlag (draft : Draft) (flag : Flag) : Except EarlyExit Draft :=
  if flag ∈ draft.flags then .error (.usage .repeatedOption)
  else .ok { draft with flags := flag :: draft.flags }

/-- Reads the value of the output option, and fails if it is empty or if there is one already. An
empty value is noticed first. -/
def setOutput (draft : Draft) (value : String) : Except EarlyExit Draft :=
  if value = "" then .error (.usage .emptyValue)
  else if draft.output?.isSome then .error (.usage .repeatedOption)
  else .ok { draft with output? := some value }

/-- Reads a path, and fails if there is one already or if it is empty. A second path is noticed
first. -/
def setPath (draft : Draft) (path : String) : Except EarlyExit Draft :=
  if draft.path?.isSome then .error (.usage (.extraPath path))
  else if path = "" then .error (.usage .emptyValue)
  else .ok { draft with path? := some path }

/-- Reads the letters of short options, one by one, and tells whether a value is still to come: that
is so if the letter of the output option is the last. -/
def addLetters (draft : Draft) : List Char → Except EarlyExit (Draft × Bool)
  | [] => .ok (draft, false)
  | letter :: rest =>
    match Switch.ofLetter? letter with
    | some (.flag flag) => do addLetters (← draft.addFlag flag) rest
    | some .output =>
      match rest with
      | [] => .ok (draft, true)
      | '=' :: value => return (← draft.setOutput (String.ofList value), false)
      | value => return (← draft.setOutput (String.ofList value), false)
    | some .help => .error .help
    | some .version => .error .version
    | none => .error (.usage (.unknownOption (String.ofList ['-', letter])))

/-- Reads what follows two dashes, and tells whether a value is still to come. A value may stand
behind an equals sign, but not that of a flag. -/
def addLong (draft : Draft) (text : List Char) : Except EarlyExit (Draft × Bool) :=
  let name := String.ofList (text.takeWhile (· ≠ '='))
  let value? := match text.dropWhile (· ≠ '=') with
    | [] => none
    | _ :: value => some (String.ofList value)
  match Switch.ofName? name, value? with
  | some .output, some value => return (← draft.setOutput value, false)
  | some .output, none => .ok (draft, true)
  | some _, some _ => .error (.usage (.needlessValue name))
  | some (.flag flag), none => return (← draft.addFlag flag, false)
  | some .help, none => .error .help
  | some .version, none => .error .version
  | none, _ => .error (.usage (.unknownOption name))

/-- The options, if the command line ends here. A path must have been read by then; all else may be
missing. This is where a line without a path is found to be a mistake. -/
def finish (draft : Draft) : Except EarlyExit Options :=
  match draft.path? with
  | some path => .ok ⟨path, draft.output?, draft.flags⟩
  | none => .error (.usage .missingPath)

end Draft

/-- Whether an argument looks like an option: it begins with a dash and goes on. Such an argument is
no value and, before two dashes alone, no path. -/
def isDashed : List Char → Bool
  | '-' :: _ :: _ => true
  | _ => false

/-- Reads the arguments after some of them have been read. It may be that the last one was an option
whose value is still to come. The recursion is on the arguments that are left. -/
def parseFrom (draft : Draft) (awaiting : Bool) : List String → Except EarlyExit Options
  | [] => if awaiting then .error (.usage .missingValue) else draft.finish
  | arg :: rest =>
    if awaiting then
      if isDashed arg.toList then .error (.usage .missingValue)
      else do parseFrom (← draft.setOutput arg) false rest
    else
      match arg.toList with
      | ['-', '-'] => do (← rest.foldlM Draft.setPath draft).finish
      | '-' :: '-' :: text => do
        let (draft, awaiting) ← draft.addLong text
        parseFrom draft awaiting rest
      | '-' :: letter :: letters => do
        let (draft, awaiting) ← draft.addLetters (letter :: letters)
        parseFrom draft awaiting rest
      | _ => do parseFrom (← draft.setPath arg) false rest

/-- The options that a command line gives, or why there is nothing to run. It reads from left to
right, and nothing has been read before. -/
def parse (args : List String) : Except EarlyExit Options :=
  parseFrom {} false args

/-- Whether a flag is on, wherever on the command line it was given. -/
def has (options : Options) (flag : Flag) : Bool :=
  flag ∈ options.flags

end Options

/-- A reader of arguments tells what a command line asks for, or why there is nothing to run.
`Options.parse` is one; the program runs with any of them (`CommandLine.runWith`). -/
abbrev ArgumentReader := List String → Except EarlyExit Options

end MiniPascal
