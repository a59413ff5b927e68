import MiniPascal.Storage.Path

/-!
# File systems

A **file system** maps locations to files and directories. A location is the list of names that
leads to it from the root. A path is followed one component at a time from the root or from the
working directory, and every component but the last one must lead to a directory.

A file system is furnished by the same steps, so two paths that lead to one place name one file.
-/

namespace MiniPascal

/-- Why a file cannot be read or written. The first ones are noticed by following a path, and the
encoding only after a file has been read. -/
inductive StorageError where
  | notFound
  | notDirectory
  | isDirectory
  | nameTooLong
  | badName
  | badEncoding
  /-- A failure that only the system can name. -/
  | system (text : String)
deriving DecidableEq, Repr

/-- The message for a failure of storage. Where the system has a number for it, the message quotes
that number. -/
def StorageError.message : StorageError → String
  | .notFound => "No such file or directory (os error 2)"
  | .notDirectory => "Not a directory (os error 20)"
  | .isDirectory => "Is a directory (os error 21)"
  | .nameTooLong => "File name too long (os error 36)"
  | .badName => "file name contained an unexpected NUL byte"
  | .badEncoding => "stream did not contain valid UTF-8"
  | .system text => text

/-- What a location holds: a directory, which is empty as far as the entry knows, or a file with its
content. -/
inductive Entry where
  | directory
  | file (content : ByteArray)

/-- The list of names that leads to an entry from the root. The root itself is the empty list; dots
have been resolved. -/
abbrev Location := List String

/-- What a component names in a directory: a dot the directory itself, two dots its parent. The
parent of the root is the root. -/
def Location.step (location : Location) (name : String) : Location :=
  if name = "." then location
  else if name = ".." then location.dropLast
  else location ++ [name]

/-- Files and directories, and the directory from which paths begin. There are no links and no
permissions. -/
structure FileSystem where
  /-- What the locations below the root hold; of two entries for a location the first counts. -/
  entries : List (Location × Entry)
  workingDirectory : Location

namespace FileSystem

/-- The number of bytes that a name may have. It is checked at each component of a path, before the
entry is looked up. -/
def maxNameSize : Nat := 255

/-- The number of bytes that a path must stay below. It is checked once for the whole path, before
its first component. -/
def maxPathSize : Nat := 4096

/-- A file system whose working directory is empty. The slash in the name of that directory is not
part of any component, so a path reaches it only by beginning there. -/
def empty : FileSystem where
  entries := [(["tmp"], .directory), (["tmp", "/"], .directory)]
  workingDirectory := ["tmp", "/"]

/-- What a location holds, if anything. The root is a directory, without an entry of its own. -/
def lookup (system : FileSystem) (location : Location) : Option Entry :=
  if location = [] then some .directory else system.entries.lookup location

/-- Whether a location holds a directory: neither a file nor nothing. Only such a location can be
passed on a path. -/
def isDirectory (system : FileSystem) (location : Location) : Bool :=
  match system.lookup location with
  | some .directory => true
  | _ => false

/-- A file system in which a location holds the given entry. What it held before is hidden, and all
other locations stay as they are. -/
def put (system : FileSystem) (location : Location) (entry : Entry) : FileSystem :=
  { system with entries := (location, entry) :: system.entries }

/-! ### Following paths -/

/-- One step along a path, from a directory to what a component names. It fails if it does not begin
at a directory, if the name is too long, or if there is nothing. -/
def enter (system : FileSystem) (location : Location) (name : String) :
    Except StorageError Location :=
  if !system.isDirectory location then .error .notDirectory
  else if name.utf8ByteSize > maxNameSize then .error .nameTooLong
  else if (system.lookup (location.step name)).isNone then .error .notFound
  else .ok (location.step name)

/-- Follows components from a location, step by step. All of them must exist, and all but the last
must be directories. -/
def follow (system : FileSystem) (location : Location) (names : List String) :
    Except StorageError Location :=
  names.foldlM system.enter location

/-- Where a path begins: at the root, or in the working directory. A path that no system takes
begins nowhere. -/
def startOf (system : FileSystem) (path : String) : Except StorageError Location :=
  if '\x00' ∈ path.toList then .error .badName
  else if path = "" then .error .notFound
  else if path.utf8ByteSize ≥ maxPathSize then .error .nameTooLong
  else .ok (if Path.isAbsolute path then [] else system.workingDirectory)

/-- The location where a path puts a file. Its directory must exist, but the file itself need not. A
path that can only mean a directory puts none. -/
def target (system : FileSystem) (path : String) : Except StorageError Location := do
  let start ← system.startOf path
  match (Path.names path).getLast? with
  | none => .error .isDirectory
  | some "." | some ".." =>
    let _ ← system.follow start (Path.names path)
    .error .isDirectory
  | some name =>
    let parent ← system.follow start (Path.names path).dropLast
    if !system.isDirectory parent then .error .notDirectory
    else if Path.asksDirectory path then .error .isDirectory
    else if name.utf8ByteSize > maxNameSize then .error .nameTooLong
    else .ok (parent ++ [name])

/-! ### Reading and writing -/

/-- The content of the file that a path names. All of the path must exist, and it must not end at a
directory. -/
def read (system : FileSystem) (path : String) : Except StorageError ByteArray := do
  let location ← system.follow (← system.startOf path) (Path.components path)
  match system.lookup location with
  | some (.file content) => .ok content
  | some .directory => .error .isDirectory
  | none => .error .notFound

/-- Puts a file where a path says, in place of a file that may be there. A directory is never
replaced. -/
def write (system : FileSystem) (path : String) (content : ByteArray) :
    Except StorageError FileSystem := do
  let location ← system.target path
  if system.isDirectory location then .error .isDirectory
  else .ok (system.put location (.file content))

/-! ### Furnishing -/

/-- One step along a path, which makes a directory where there is nothing. Any other failure of the
step stays one. -/
def enterOrMake : FileSystem × Location → String → Except StorageError (FileSystem × Location)
  | (system, location), name =>
    match system.enter location name with
    | .ok next => .ok (system, next)
    | .error .notFound => .ok (system.put (location.step name) .directory, location.step name)
    | .error error => .error error

/-- Makes the directories that components lead through, as far as they are missing. What they end at
must be a directory, too. -/
def makeDirectories (system : FileSystem) (start : Location) (names : List String) :
    Except StorageError FileSystem := do
  let (system, last) ← names.foldlM enterOrMake (system, start)
  if system.isDirectory last then .ok system else .error .notDirectory

/-- Makes the directory that a path names, and those on the way to it. An empty path names none, and
then nothing is made. -/
def makeDirectory (system : FileSystem) (path : String) : Except StorageError FileSystem := do
  if path = "" then .ok system
  else system.makeDirectories (← system.startOf path) (Path.names path)

/-- Makes a file where a path says, and the directories on the way to it, which `write` would ask
for. -/
def makeFile (system : FileSystem) (path : String) (content : ByteArray) :
    Except StorageError FileSystem := do
  let system ← system.makeDirectories (← system.startOf path) (Path.names path).dropLast
  system.write path content

end FileSystem

end MiniPascal
