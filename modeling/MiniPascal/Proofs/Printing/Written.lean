import MiniPascal.Proofs.Lexing.Writing
import MiniPascal.Syntax.VarGroups

/-!
# The tokens of a printed tree

For every part of a tree: the tokens that printing it puts on the page, in their order. Names,
literals and operators are those of the tree; the others are fixed lexemes, which the tree does not
keep. Here a tree has a definite spelling although layout has no place in it: every binary operation
is in parentheses, every body between `begin` and `end`, a semicolon is after every statement, and
variables are grouped by type.
-/

namespace MiniPascal

open Token

/-- Tokens in parentheses, which have no positions. What is enclosed is taken as it is. -/
def inParens (ts : List Token) : List Token :=
  spelled (.mark .openParen) :: (ts ++ [spelled (.mark .closeParen)])

/-- Lists of tokens with commas between them, as one list. Nothing is put around it. -/
def withCommas (tss : List (List Token)) : List Token :=
  [spelled (.mark .comma)].intercalate tss

theorem withCommas_cons_cons (ts us : List Token) (tss : List (List Token)) :
    withCommas (ts :: us :: tss) = ts ++ spelled (.mark .comma) :: withCommas (us :: tss) := by
  simp [withCommas, List.intercalate]

theorem withCommas_singleton (ts : List Token) : withCommas [ts] = ts := by
  simp [withCommas, List.intercalate]

/-- Tokens between `begin` and `end`, which have no positions. What is enclosed is taken as it
is. -/
def inBlock (ts : List Token) : List Token :=
  spelled (.keyword .begin) :: (ts ++ [spelled (.keyword .end)])

namespace Expr

mutual

/-- The tokens of a printed expression, as they are scanned from its text: each operation with two
operands is in parentheses. -/
def written : Expr → List Token
  | .literal _ value => [value]
  | .name _ token => [token]
  | .unary _ op operand =>
    op :: if op.kind = .operator .not ∧ operand.isUnary then inParens operand.written
      else operand.written
  | .binary _ left op right => inParens (left.written ++ op :: right.written)
  | .call _ callee args => callee :: inParens (withCommas (writtenList args))

/-- The tokens of each of the printed expressions of a list, to which commas and parentheses are
still to be added. -/
def writtenList : List Expr → List (List Token)
  | [] => []
  | expr :: rest => expr.written :: writtenList rest

end

end Expr

namespace Stmt

mutual

/-- The tokens of a printed statement, without the semicolon behind it. Every body stands between
`begin` and `end`. -/
def written : Stmt → List Token
  | .write newline args =>
    spelled (.keyword (if newline then .writeln else .write)) ::
      inParens (withCommas (Expr.writtenList args))
  | .read target => spelled (.keyword .read) :: inParens [target]
  | .assign target value => target :: spelled (.mark .assign) :: value.written
  | .call callee args => callee :: inParens (withCommas (Expr.writtenList args))
  | .ifThen condition body =>
    spelled (.keyword .if) :: (condition.written ++ spelled (.keyword .then) ::
      inBlock (writtenList body))
  | .ifElse condition body otherwise =>
    spelled (.keyword .if) :: (condition.written ++ spelled (.keyword .then) ::
      (inBlock (writtenList body) ++ spelled (.keyword .else) :: inBlock (writtenList otherwise)))
  | .whileDo condition body =>
    spelled (.keyword .while) :: (condition.written ++ spelled (.keyword .do) ::
      inBlock (writtenList body))
  | .repeatUntil body condition =>
    spelled (.keyword .repeat) :: (writtenList body ++ spelled (.keyword .until) ::
      condition.written)
  | .forLoop counter first direction last body =>
    spelled (.keyword .for) :: counter :: spelled (.mark .assign) :: (first.written ++
      spelled (.keyword direction.keyword) :: (last.written ++ spelled (.keyword .do) ::
        inBlock (writtenList body)))
  | .compound body => inBlock (writtenList body)

/-- The tokens of printed statements, with a semicolon after each, the last one too. -/
def writtenList : List Stmt → List Token
  | [] => []
  | stmt :: rest => stmt.written ++ spelled (.mark .semicolon) :: writtenList rest

end

end Stmt

namespace VarDecl

/-- The tokens of a printed declaration: the name, a colon and the name of the type. -/
def written (decl : VarDecl) : List Token :=
  [decl.name, spelled (.mark .colon), spelled (.typeName decl.ty)]

/-- The tokens of the line of the variables of one type: the names with commas between them, the
type and a semicolon. -/
def writtenGroup (vars : List VarDecl) (ty : Ty) : List Token :=
  withCommas ((ofType vars ty).map fun decl => [decl.name]) ++
    [spelled (.mark .colon), spelled (.typeName ty), spelled (.mark .semicolon)]

/-- The tokens of the printed variables of a block, one line for each type. Without variables there
are none. -/
def writtenSection (vars : List VarDecl) : List Token :=
  if vars.isEmpty then []
  else spelled (.keyword .var) :: (types vars).flatMap (writtenGroup vars)

end VarDecl

mutual

/-- The tokens of a printed block: its variables, its routines, and its body between `begin` and
`end`. -/
def Block.written : Block → List Token
  | ⟨vars, routines, body⟩ =>
    VarDecl.writtenSection vars ++ Routine.writtenList routines ++ inBlock (Stmt.writtenList body)

/-- The tokens of a printed routine, with the semicolon behind it. Each parameter has its own
type. -/
def Routine.written : Routine → List Token
  | ⟨name, params, none, block⟩ =>
    spelled (.keyword .procedure) :: name :: (inParens (withCommas (params.map VarDecl.written)) ++
      spelled (.mark .semicolon) :: (block.written ++ [spelled (.mark .semicolon)]))
  | ⟨name, params, some ty, block⟩ =>
    spelled (.keyword .function) :: name :: (inParens (withCommas (params.map VarDecl.written)) ++
      spelled (.mark .colon) :: spelled (.typeName ty) :: spelled (.mark .semicolon) ::
      (block.written ++ [spelled (.mark .semicolon)]))

/-- The tokens of printed routines, one after the other, each with its own semicolon. -/
def Routine.writtenList : List Routine → List Token
  | [] => []
  | routine :: rest => routine.written ++ Routine.writtenList rest

end

/-- The tokens of a printed program, as they are scanned from its text (`Program.scanned_print`).
The indentation is gone. -/
def Program.written (program : Program) : List Token :=
  spelled (.keyword .program) :: program.name :: spelled (.mark .semicolon) ::
    (program.block.written ++ [spelled (.mark .period)])

end MiniPascal
