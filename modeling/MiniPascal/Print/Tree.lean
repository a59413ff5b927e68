import MiniPascal.Print.Layout
import MiniPascal.Syntax.Node
import MiniPascal.Syntax.VarGroups

/-!
# Printing trees

A tree is printed as source text in a normal form.

* Expressions stay on their line. A binary operation is always in parentheses, and the operand of
  `not` is if it begins with a unary operator itself, because `not` binds a primary only.
* Every statement and every declaration begins a line at its **level**, and what is nested stands
  one level deeper. Each statement in a list ends with a semicolon.
* Variables are printed one line for each type.

A printed part depends on its level and on nothing printed before it.
-/

namespace MiniPascal

open Layout

namespace Expr

mutual

/-- An expression as source text. Each operation with two operands is in parentheses, so that the
text does not depend on what binds tighter. -/
def print : Expr → String
  | .literal _ value => value.display
  | .name _ token => token.text
  | .unary _ op operand =>
    if op.kind ≠ .operator .not then op.text ++ operand.print
    else if operand.isUnary then op.text ++ " (" ++ operand.print ++ ")"
    else op.text ++ " " ++ operand.print
  | .binary _ left op right => "(" ++ left.print ++ " " ++ op.text ++ " " ++ right.print ++ ")"
  | .call _ callee args => callee.display ++ " " ++ parenthesized (printList args)

/-- The source texts of a list of expressions, one for each, to which commas and parentheses are
still to be added. The list stays as long as it was. -/
def printList : List Expr → List String
  | [] => []
  | expr :: rest => expr.print :: printList rest

end

/-- The members of a list are printed one by one. -/
theorem printList_eq_map (exprs : List Expr) : printList exprs = exprs.map print := by
  induction exprs with
  | nil => rfl
  | cons expr rest ih => simp [printList, ih]

end Expr

namespace Stmt

mutual

/-- A statement as source text at a level, beginning with a line feed and without a semicolon behind
it. Bodies stand one level deeper. It is the text that an action of a printer gives at this level
(`Stmt.keeps_emit`). -/
def print : Stmt → Nat → String
  | .write newline args, level =>
    let word : Keyword := if newline then .writeln else .write
    line level (word.spelling ++ " " ++ parenthesized (Expr.printList args))
  | .read target, level => line level ("read (" ++ target.display ++ ")")
  | .assign target value, level => line level (target.display ++ " := " ++ value.print)
  | .call callee args, level =>
    line level (callee.display ++ " " ++ parenthesized (Expr.printList args))
  | .ifThen condition body, level =>
    line level ("if " ++ condition.print ++ " then") ++
      enclose (level + 1) (printList body (level + 2))
  | .ifElse condition body otherwise, level =>
    line level ("if " ++ condition.print ++ " then") ++
      enclose (level + 1) (printList body (level + 2)) ++
      line level "else" ++
      enclose (level + 1) (printList otherwise (level + 2))
  | .whileDo condition body, level =>
    line level ("while " ++ condition.print ++ " do") ++
      enclose (level + 1) (printList body (level + 2))
  | .repeatUntil body condition, level =>
    line level "repeat" ++ printList body (level + 1) ++
      line level ("until " ++ condition.print)
  | .forLoop counter first direction last body, level =>
    line level ("for " ++ counter.display ++ " := " ++ first.print ++ " " ++
        direction.keyword.spelling ++ " " ++ last.print ++ " do") ++
      enclose (level + 1) (printList body (level + 2))
  | .compound body, level => enclose level (printList body (level + 1))

/-- A list of statements as source text at a level, each with a semicolon behind it, the last one
too. -/
def printList : List Stmt → Nat → String
  | [], _ => ""
  | stmt :: rest, level => stmt.print level ++ ";" ++ printList rest level

end

end Stmt

namespace VarDecl

/-- A declaration as source text, without the semicolon: one name with its type, as in a parameter
list. Declared variables are not printed by it but in groups. -/
def print (decl : VarDecl) : String :=
  decl.name.display ++ " : " ++ decl.ty.spelling

/-- A parameter list as source text. Each parameter has its own type, even if neighbours share
it. -/
def printParams (params : List VarDecl) : String :=
  parenthesized (params.map print)

/-- The line of the variables of one type, in their order, at a level. -/
def printGroup (vars : List VarDecl) (level : Nat) (ty : Ty) : String :=
  let names := (ofType vars ty).map fun decl => decl.name.text
  line level (commaSeparated names ++ " : " ++ ty.spelling ++ ";")

/-- The variables of a block as source text at a level: a heading, and one level deeper a line for
each type. Without variables it is empty. -/
def printSection (vars : List VarDecl) (level : Nat) : String :=
  if vars.isEmpty then ""
  else line level "var" ++ String.join ((types vars).map (printGroup vars (level + 1)))

end VarDecl

mutual

/-- A block as source text at a level: its variables, its routines, and its body between `begin` and
`end`. Each of the three parts may be empty, but not the two lines around the body. -/
def Block.print : Block → Nat → String
  | ⟨vars, routines, body⟩, level =>
    VarDecl.printSection vars level ++ Routine.printList routines level ++
      enclose level (Stmt.printList body (level + 1))

/-- A routine as source text at a level: its heading on a line, its block one level deeper, and a
semicolon. The heading of a function names the type of its result. -/
def Routine.print : Routine → Nat → String
  | ⟨name, params, result, block⟩, level =>
    let heading := match result with
      | none => "procedure " ++ name.display ++ " " ++ VarDecl.printParams params ++ ";"
      | some ty =>
        "function " ++ name.display ++ " " ++ VarDecl.printParams params ++ " : " ++
          ty.spelling ++ ";"
    line level heading ++ block.print (level + 1) ++ ";"

/-- A list of routines as source text at a level, one after the other. Each brings its own
semicolon. Nothing else is put between two of them. -/
def Routine.printList : List Routine → Nat → String
  | [], _ => ""
  | routine :: rest, level => routine.print level ++ Routine.printList rest level

end

/-- A program as source text, with its block at a level. The first line is not indented, and the
text ends with the period. It is what goes to the screen or to an output file, with one more line
feed. -/
def Program.print (program : Program) (level : Nat := 0) : String :=
  "program " ++ program.name.display ++ ";" ++ program.block.print level ++ "."

/-- Any part of a tree as source text at a level. For a part that stays on one line, the level makes
no difference. It is the function that belongs to the sort of the part. -/
def Node.print : Node → Nat → String
  | .program p, level => p.print level
  | .block b, level => b.print level
  | .declarations vars routines, level =>
    VarDecl.printSection vars level ++ Routine.printList routines level
  | .varDecl v, _ => v.print
  | .routine r, level => r.print level
  | .params ps, _ => VarDecl.printParams ps
  | .stmt s, level => s.print level
  | .expr e, _ => e.print

end MiniPascal
