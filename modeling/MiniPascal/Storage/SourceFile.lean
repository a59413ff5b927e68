import MiniPascal.Storage.FileSystem

/-!
# Source files

A **source file** is known by its extension and holds text. The extension is checked first, so a
file of another kind is refused whether it is there or not.
-/

namespace MiniPascal

/-- The extension of source files, without the point. It is compared with the case of its
letters. -/
def sourceExtension : String := "pas"

/-- Why a source file cannot be read: its name is not that of a source file, or storage fails. -/
inductive SourceFileError where
  | wrongExtension
  | storage (error : StorageError)
deriving DecidableEq, Repr

/-- The message for a source file that cannot be read. It tells a wrong name from a failure of
storage. -/
def SourceFileError.message : SourceFileError → String
  | .wrongExtension => "File read error: File must have a ." ++ sourceExtension ++ " extension"
  | .storage error => "I/O error: " ++ error.message

/-- The text of a source file, whose content is read as the first argument says. A wrong extension
is noticed before anything is read, and the content must be UTF-8. -/
def readSource {m : Type → Type} [Monad m]
    (readFile : String → m (Except StorageError ByteArray)) (path : String) :
    m (Except SourceFileError String) := do
  if Path.extension? path ≠ some sourceExtension then
    return .error .wrongExtension
  else
    match ← readFile path with
    | .error error => return .error (.storage error)
    | .ok content =>
      match String.fromUTF8? content with
      | some text => return .ok text
      | none => return .error (.storage .badEncoding)

/-- The text of a source file in a file system: `readSource`, where a file is read as the file
system does it, with no other effects. -/
def FileSystem.readSource (system : FileSystem) (path : String) : Except SourceFileError String :=
  Id.run (MiniPascal.readSource (fun path => pure (system.read path)) path)

end MiniPascal
