import MiniPascal.Syntax.Stmt

/-!
# Programs and their declarations

A program is a named block. A **block** declares variables, then **routines**, and has a body. A
routine has a block of its own, so declarations nest; it is a function if it has a result type and
a procedure if it has none.
-/

namespace MiniPascal

/-- A name with a type: a variable or a parameter. In the source, names that stand together share
one type; in the tree each has its own. The position of its token is that of the name. -/
structure VarDecl where
  name : Token
  ty : Ty
deriving DecidableEq, Repr

mutual

/-- A procedure or a function: a name, parameters, and a block that may declare routines of its own.
Only a function has a result. Its parameters are no part of the block. -/
structure Routine where
  name : Token
  params : List VarDecl
  /-- The type of the result of a function; a procedure has none. -/
  result : Option Ty
  block : Block
deriving Repr

/-- Declarations and a body: variables, then routines, then statements. The tree does not say how
the variables were grouped in the source. -/
structure Block where
  vars : List VarDecl
  routines : List Routine
  body : List Stmt
deriving Repr

end

/-- A program: a name and one block. Whatever stands behind the period that ends it is no part of
it. Nothing in the block refers to the name. -/
structure Program where
  name : Token
  block : Block
deriving Repr

/-- Whether two declarations are equal but for positions: the same name, in the same letter case,
and the same type. Types are compared for equality, as they are no tokens. -/
def VarDecl.same (a b : VarDecl) : Bool :=
  a.name.same b.name && a.ty = b.ty

/-- Whether two lists of declarations are equal but for positions, one by one. Lists of different
lengths are not. -/
def VarDecl.sameList : List VarDecl → List VarDecl → Bool
  | [], [] => true
  | a :: as, b :: bs => a.same b && sameList as bs
  | _, _ => false

mutual

/-- The number of nodes. The declarations are one node together, and so is the body. An empty block
has three nodes, therefore. Variables are one node each. -/
def Block.size : Block → Nat
  | ⟨vars, routines, body⟩ =>
    1 + (1 + vars.length + Routine.sizeList routines) + (1 + Stmt.sizeList body)

/-- The number of nodes. The parameters are one node together, even if there are none, and the block
counts with all that is inside. -/
def Routine.size : Routine → Nat
  | ⟨_, params, _, block⟩ => 1 + (1 + params.length) + block.size

/-- The number of nodes in a list of routines, without a node for the list itself. -/
def Routine.sizeList : List Routine → Nat
  | [] => 0
  | routine :: rest => routine.size + Routine.sizeList rest

end

/-- The number of nodes of a program: one for itself, and those of its block. Statistics show it. It
does not depend on how the variables were grouped (`Program.size_regroup`). -/
def Program.size (program : Program) : Nat :=
  1 + program.block.size

mutual

/-- Whether two blocks are equal but for the positions of their tokens: variables, routines and
statements are compared in their order. How the variables were grouped in the source is not
known. -/
def Block.same : Block → Block → Bool
  | ⟨vars, routines, body⟩, ⟨vars', routines', body'⟩ =>
    VarDecl.sameList vars vars' && Routine.sameList routines routines' && Stmt.sameList body body'

/-- Whether two routines are equal but for the positions of their tokens: name, parameters, result
and block are compared. A procedure and a function are never the same. -/
def Routine.same : Routine → Routine → Bool
  | ⟨name, params, result, block⟩, ⟨name', params', result', block'⟩ =>
    name.same name' && VarDecl.sameList params params' && result = result' && block.same block'

/-- Whether two lists of routines are equal but for positions, one by one. Lists of different
lengths are not. -/
def Routine.sameList : List Routine → List Routine → Bool
  | [], [] => true
  | a :: as, b :: bs => a.same b && Routine.sameList as bs
  | _, _ => false

end

/-- Whether two programs are equal but for the positions of their tokens: the names and the blocks
are compared. Ids are compared, too. -/
def Program.same (a b : Program) : Bool :=
  a.name.same b.name && a.block.same b.block

end MiniPascal
