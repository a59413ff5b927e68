/-!
# Paths

A **path** is a text of components with slashes between them. Empty components mean nothing, except
that a path that ends in a slash asks for a directory, just as if a dot followed.
-/

namespace MiniPascal

namespace Path

/-- The components of a path that are not empty. Several slashes next to each other count as one,
and one at the beginning or at the end adds nothing. -/
def names (path : String) : List String :=
  (path.splitOn "/").filter (· ≠ "")

/-- Whether a path asks for a directory by its last character, which is then a slash. -/
def asksDirectory (path : String) : Bool :=
  path.endsWith "/"

/-- The components of a path. A slash at the end counts as a dot behind it, so that what stands
before must be a directory. -/
def components (path : String) : List String :=
  names path ++ if asksDirectory path then ["."] else []

/-- Whether a path begins at the root and not in the working directory, which its first character
tells. -/
def isAbsolute (path : String) : Bool :=
  path.startsWith "/"

/-- The name that a path ends in, if it ends in one: dots at the end are skipped, but a step to the
parent directory names nothing. -/
def name? (path : String) : Option String :=
  match ((names path).filter (· ≠ ".")).getLast? with
  | some ".." | none => none
  | some name => some name

/-- What follows the last point of a name, if anything stands before that point. It may be empty,
which is not the same as none. -/
def extensionOf? (name : List Char) : Option (List Char) :=
  match name.reverse.dropWhile (· ≠ '.') with
  | _ :: _ :: _ => some (name.reverse.takeWhile (· ≠ '.')).reverse
  | _ => none

/-- The extension of the name that a path ends in, without the point. A hidden file, whose name
begins with its only point, has none. -/
def extension? (path : String) : Option String :=
  (name? path).bind fun name => (extensionOf? name.toList).map String.ofList

end Path

end MiniPascal
