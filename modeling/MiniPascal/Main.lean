import MiniPascal.CommandLine.Run

/-!
# The program

The command line on the host that the operating system provides.
-/

namespace MiniPascal

/-- The failure of storage that the system reports. Those that a file system in memory can have are
recognised, and all others keep the text of the system. -/
def StorageError.ofSystem : IO.Error → StorageError
  | .noFileOrDirectory .. => .notFound
  | .inappropriateType _ code _ =>
    if code = 21 then .isDirectory else .notDirectory
  | error => .system error.toString

/-- An action on files, with its failure as a value, so that the program can go on and say what has
happened. No other exception is caught here. -/
def onFile {α : Type} (action : IO α) : IO (Except StorageError α) := do
  match ← action.toBaseIO with
  | .ok value => return .ok value
  | .error error => return .error (.ofSystem error)

/-- The host that the operating system provides. Its environment asks for no log, and progress is
reported by a line for each stage. -/
def systemHost : Host IO where
  readFile path := onFile (IO.FS.readBinFile path)
  writeFile path content := onFile (IO.FS.writeBinFile path content)
  out text := do (← IO.getStdout).putStr text
  err text := do (← IO.getStderr).putStr text
  log
    | .progress, stage => do (← IO.getStderr).putStr stage.line
    | .environment, _ => return ()
  clock := IO.monoNanosNow

end MiniPascal

/-- Runs the program on the arguments that the system passes, and gives the exit code to the system.
It is `CommandLine.run` on the host of the system. -/
def main (args : List String) : IO UInt32 :=
  MiniPascal.CommandLine.run MiniPascal.systemHost args
