import MiniPascal.Print.Tree

/-!
# Printers

A **printer** does not pass levels on: it keeps the level of the line that it is in, raises it before
it prints what is nested and lowers it again behind that. Whatever it prints, it works on this one
level, so a raised level that is not lowered again would show in all that is printed later.

A printer here remembers all levels that it has been at. To lower the level of the outermost line
would be a mistake of the printer, and has no outcome.
-/

namespace MiniPascal

/-- The level of a printer, and the levels that it was at before, the latest first. The second is
there to be able to say that no level below the first one was ever visited. -/
structure Printer where
  level : Nat
  past : List Nat
deriving DecidableEq, Repr

/-- A printer that has printed nothing yet: it is at the outermost level, and was at no other one. A
program is printed from here. -/
def Printer.fresh : Printer := ⟨0, []⟩

/-- An action of a printer. It has no result if it goes below the outermost level, which no part of
a tree makes it do (`emit_eq_shift`). -/
abbrev Printing := StateT Printer Option

namespace Printing

/-- A text on a line of its own, at the level of the printer, which stays where it is. It is how
every line of a printed program comes about. -/
def line (text : String) : Printing String := fun printer =>
  some (Layout.line printer.level text, printer)

/-- Goes one level deeper, and remembers the level that it left. The text of what follows does not
change but for its indentation. -/
def raise : Printing Unit := fun printer =>
  some ((), ⟨printer.level + 1, printer.level :: printer.past⟩)

/-- Goes back by one level, and remembers the level that it left. At the outermost level this has no
result. `nested` never comes to this. -/
def lower : Printing Unit := fun printer =>
  if printer.level = 0 then none
  else some ((), ⟨printer.level - 1, printer.level :: printer.past⟩)

/-- Prints one level deeper: the level is raised before and lowered after, so that it is the same
again in the end. All changes of level are made by it. -/
def nested (inner : Printing String) : Printing String := do
  raise
  let text ← inner
  lower
  return text

/-- Prints between the lines `begin` and `end`, one level deeper than these two. -/
def enclosed (inner : Printing String) : Printing String := do
  let opening ← line "begin"
  let text ← nested inner
  let closing ← line "end"
  return opening ++ text ++ closing

end Printing

open Layout Printing

namespace Expr

mutual

/-- Prints an expression. It stays on its line, so the level does not matter to its text. Operations
with two operands are in parentheses, whatever their operators are. -/
def emit : Expr → Printing String
  | .literal _ value => return value.display
  | .name _ token => return token.text
  | .unary _ op operand => do
    let text ← operand.emit
    if op.kind ≠ .operator .not then return op.text ++ text
    else if operand.isUnary then return op.text ++ " (" ++ text ++ ")"
    else return op.text ++ " " ++ text
  | .binary _ left op right => do
    let before ← left.emit
    let behind ← right.emit
    return "(" ++ before ++ " " ++ op.text ++ " " ++ behind ++ ")"
  | .call _ callee args => do
    let texts ← emitList args
    return callee.display ++ " " ++ parenthesized texts

/-- Prints expressions one by one, and keeps their texts apart, so that commas can be put between
them. Arguments of calls and of statements that write are printed like this. -/
def emitList : List Expr → Printing (List String)
  | [] => return []
  | expr :: rest => do
    let text ← expr.emit
    let texts ← emitList rest
    return text :: texts

end

end Expr

namespace Stmt

mutual

/-- Prints a statement on lines of its own, without the semicolon behind it. Bodies are printed one
level deeper. Its text begins with a line feed, as every line does. -/
def emit : Stmt → Printing String
  | .write newline args => do
    let texts ← Expr.emitList args
    let word : Keyword := if newline then .writeln else .write
    line (word.spelling ++ " " ++ parenthesized texts)
  | .read target => line ("read (" ++ target.display ++ ")")
  | .assign target value => do
    let text ← value.emit
    line (target.display ++ " := " ++ text)
  | .call callee args => do
    let texts ← Expr.emitList args
    line (callee.display ++ " " ++ parenthesized texts)
  | .ifThen condition body => do
    let text ← condition.emit
    let heading ← line ("if " ++ text ++ " then")
    let branch ← nested (enclosed (emitList body))
    return heading ++ branch
  | .ifElse condition body otherwise => do
    let text ← condition.emit
    let heading ← line ("if " ++ text ++ " then")
    let branch ← nested (enclosed (emitList body))
    let separator ← line "else"
    let other ← nested (enclosed (emitList otherwise))
    return heading ++ branch ++ separator ++ other
  | .whileDo condition body => do
    let text ← condition.emit
    let heading ← line ("while " ++ text ++ " do")
    let loop ← nested (enclosed (emitList body))
    return heading ++ loop
  | .repeatUntil body condition => do
    let heading ← line "repeat"
    let loop ← nested (emitList body)
    let text ← condition.emit
    let ending ← line ("until " ++ text)
    return heading ++ loop ++ ending
  | .forLoop counter first direction last body => do
    let lower ← first.emit
    let upper ← last.emit
    let heading ← line ("for " ++ counter.display ++ " := " ++ lower ++ " " ++
      direction.keyword.spelling ++ " " ++ upper ++ " do")
    let loop ← nested (enclosed (emitList body))
    return heading ++ loop
  | .compound body => enclosed (emitList body)

/-- Prints the statements of a list, one after the other, each with a semicolon behind it, the last
one too. -/
def emitList : List Stmt → Printing String
  | [] => return ""
  | stmt :: rest => do
    let text ← stmt.emit
    let more ← emitList rest
    return text ++ ";" ++ more

end

end Stmt

namespace VarDecl

/-- Prints a declaration as it stands in a parameter list: one name with its type. -/
def emit (decl : VarDecl) : Printing String :=
  return decl.print

/-- Prints a parameter list, with parentheses even if it is empty and with a comma between any two
parameters. -/
def emitParams (params : List VarDecl) : Printing String := do
  let texts ← params.mapM emit
  return parenthesized texts

/-- Prints the line of the variables of one type: their names with commas between them, and the
type. Names are written by their texts here, and not as tokens are displayed. -/
def emitGroup (vars : List VarDecl) (ty : Ty) : Printing String :=
  let names := (ofType vars ty).map fun decl => decl.name.text
  line (commaSeparated names ++ " : " ++ ty.spelling ++ ";")

/-- Prints the variables of a block: a heading, and one level deeper a line for each type. Without
variables nothing is printed. The types come in the order in which they first appear. -/
def emitSection (vars : List VarDecl) : Printing String :=
  if vars.isEmpty then return ""
  else do
    let heading ← line "var"
    let groups ← nested (String.join <$> (types vars).mapM (emitGroup vars))
    return heading ++ groups

end VarDecl

mutual

/-- Prints a block: the variables, the routines, and the body between `begin` and `end`. -/
def Block.emit : Block → Printing String
  | ⟨vars, routines, body⟩ => do
    let groups ← VarDecl.emitSection vars
    let declared ← Routine.emitList routines
    let text ← enclosed (Stmt.emitList body)
    return groups ++ declared ++ text

/-- Prints a routine: its heading on a line, and its block one level deeper. A function has the type
of its result in the heading. The semicolon behind the block belongs to the routine. -/
def Routine.emit : Routine → Printing String
  | ⟨name, params, result, block⟩ => do
    let texts ← VarDecl.emitParams params
    let heading ← line (match result with
      | none => "procedure " ++ name.display ++ " " ++ texts ++ ";"
      | some ty => "function " ++ name.display ++ " " ++ texts ++ " : " ++ ty.spelling ++ ";")
    let text ← nested block.emit
    return heading ++ text ++ ";"

/-- Prints the routines of a list, one after the other. Each has its own semicolon. -/
def Routine.emitList : List Routine → Printing String
  | [] => return ""
  | routine :: rest => do
    let text ← routine.emit
    let more ← Routine.emitList rest
    return text ++ more

end

/-- Prints a program: its name on the first line, and its block at the level of the printer. The
first line is not indented. The period ends the text. -/
def Program.emit (program : Program) : Printing String := do
  let text ← program.block.emit
  return "program " ++ program.name.display ++ ";" ++ text ++ "."

/-- Prints any part of a tree, as the action of that sort of part does. `emit_eq_shift` says what
the level of the printer changes. -/
def Node.emit : Node → Printing String
  | .program p => p.emit
  | .block b => b.emit
  | .declarations vars routines => do
    let groups ← VarDecl.emitSection vars
    let declared ← Routine.emitList routines
    return groups ++ declared
  | .varDecl v => v.emit
  | .routine r => r.emit
  | .params ps => VarDecl.emitParams ps
  | .stmt s => s.emit
  | .expr e => e.emit

end MiniPascal
