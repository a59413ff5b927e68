import Std.Data.HashMap
import MiniPascal.Syntax.Expr

/-!
# Type tables

A **type table** records the types that an analysis finds for expressions. It stands beside the tree
and refers to expressions by their ids. An expression is annotated once in a pass; clearing the
table begins a new pass.
-/

namespace MiniPascal

/-- The types recorded in a pass, under the numbers of expressions. The tree itself stays as it
is; an analysis keeps a table beside it. Entries are found by hashing, and their order does not
matter. -/
structure TypeTable where
  types : Std.HashMap ExprId Ty

/-- A second annotation of an expression, which a table refuses, even if the type is the same. -/
structure AlreadyAnnotated where
  id : ExprId
  /-- The type that is recorded. -/
  existing : Ty
deriving DecidableEq, Repr

/-- The message for a second annotation: it names the expression by its number, and the type that
stays recorded. -/
def AlreadyAnnotated.message (e : AlreadyAnnotated) : String :=
  "Expression #" ++ toString e.id.toNat ++ " already annotated with type " ++ e.existing.spelling

namespace TypeTable

/-- A table without entries, such as the one that a pass begins with. -/
def empty : TypeTable := ⟨∅⟩

/-- The type of an expression, if it is annotated. Looking it up leaves the table as it is. -/
def typeOf? (table : TypeTable) (id : ExprId) : Option Ty :=
  table.types[id]?

/-- Records the type of an expression that is not annotated yet. An entry is never overwritten: a
second type is an error, which says what is recorded. -/
def annotate (table : TypeTable) (id : ExprId) (ty : Ty) : Except AlreadyAnnotated TypeTable :=
  match table.typeOf? id with
  | some existing => .error ⟨id, existing⟩
  | none => .ok ⟨table.types.insert id ty⟩

/-- Records the type of an expression of a tree, under its number. The expression must not be
annotated yet. Its inner expressions are not touched. -/
def annotateExpr (table : TypeTable) (expr : Expr) (ty : Ty) : Except AlreadyAnnotated TypeTable :=
  table.annotate expr.id ty

/-- The type of an expression of a tree, if it is annotated. Only the number of the expression is
looked at. It is `typeOf?` at that number. -/
def typeOfExpr? (table : TypeTable) (expr : Expr) : Option Ty :=
  table.typeOf? expr.id

/-- A table without the entries of the pass, whatever they are, so that the next pass can use the
same numbers again. -/
def clear (_table : TypeTable) : TypeTable := empty

/-- The number of annotated expressions. Each counts once, since none is annotated twice. -/
def size (table : TypeTable) : Nat :=
  table.types.size

/-- Whether no expression is annotated: before the first annotation, and after the table has been
cleared. It says the same as a size of zero. -/
def isEmpty (table : TypeTable) : Bool :=
  table.types.isEmpty

/-- What an analysis does to its table. A second annotation ends it, and leaves the table to it as
it was then. The state is the table, so that it is there after a failure as well. -/
abbrev Pass := ExceptT AlreadyAnnotated (StateM TypeTable)

/-- Changes the table of an analysis, unless the change is refused: then the analysis ends, and the
table stays as it is. The error of the refusal is that of the analysis. -/
def Pass.change (f : TypeTable → Except AlreadyAnnotated TypeTable) : Pass Unit := do
  let table ← get
  set (← ofExcept (f table))

end TypeTable

end MiniPascal
