/-!
# The declarable types

The language has five types. Each is named by a reserved word, and each has literals of its own.
-/

namespace MiniPascal

/-- A type that a variable, a parameter or a function result may have. Each is named by a reserved
word and has literals of its own. There is no way to declare another one. -/
inductive Ty where
  | integer
  | real
  | boolean
  | string
  | char
deriving DecidableEq, Repr

namespace Ty

/-- All types, in the order in which a message lists them: the one that says what may stand where
the name of a type is missing. -/
def all : List Ty :=
  [.integer, .real, .boolean, .string, .char]

/-- The reserved word that names the type, in lower case. It also names the literals of the type in
messages. Printed programs use it. -/
def spelling : Ty → String
  | .integer => "integer"
  | .real => "real"
  | .boolean => "boolean"
  | .string => "string"
  | .char => "char"

/-- Every type is listed. -/
theorem mem_all (ty : Ty) : ty ∈ all := by
  cases ty <;> decide

end Ty

end MiniPascal
