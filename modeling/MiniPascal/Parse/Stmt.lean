import MiniPascal.Parse.Expr
import MiniPascal.Syntax.Stmt

/-!
# Parsing statements

    statement = ("write" | "writeln") arguments
              | "read" "(" name ")"
              | name ":=" expression
              | name [ arguments ]
              | "if" expression "then" body [ "else" body ]
              | "while" expression "do" body
              | "repeat" statement { ";" statement } [ ";" ] "until" expression
              | "for" name ":=" expression ("to" | "downto") expression "do" body
              | compound
    body      = compound | statement
    compound  = "begin" [ statement { ";" statement } [ ";" ] ] "end"

An `else` belongs to the nearest statement that can take it. A rule takes the rule for statements
as an argument, for the statements within.
-/

namespace MiniPascal

namespace Parse

/-- Statements with semicolons between them, up to a keyword that stays. One more semicolon may
stand before the keyword. Two semicolons next to each other are a mistake, since there is no empty
statement. -/
def statements (stop : Keyword) (statement : Parse Stmt) : Parse (List Stmt) :=
  fix (fun self (_ : Unit) => do
    if (← peek) = .keyword stop then
      return []
    else
      let first ← statement
      if (← peek) = .mark .semicolon then
        let _ ← take
        return first :: (← self ())
      else
        return [first]) ()

/-- Statements between `begin` and `end`, both of which are taken. There may be none. A semicolon
may stand before `end`. -/
def compound (statement : Parse Stmt) : Parse (List Stmt) := do
  keyword .begin
  let body ← statements .end statement
  keyword .end
  return body

/-- The body of a branch or a loop: one statement, or several between `begin` and `end`. Either way
it is a list. In the tree, one statement and a block with only this statement look the same. -/
def body (statement : Parse Stmt) : Parse (List Stmt) := do
  if (← peek) = .keyword .begin then
    compound statement
  else
    return [← statement]

/-- The keyword of a counting loop that tells which way it counts, and which is taken. There is no
other way to write a direction. A failure names both keywords. -/
def direction : Parse Direction := do
  match Direction.ofKind? (← peek) with
  | some direction =>
    let _ ← take
    return direction
  | none => throw (.expected [.keyword .to, .keyword .downto])

/-- What follows the name at the beginning of a statement: an assignment if the sign for it is
there, and otherwise a call, with or without arguments. -/
def afterName (name : Token) : Parse Stmt := do
  match ← peek with
  | .mark .assign =>
    let _ ← take
    return .assign name (← expression)
  | .mark .openParen => return .call name (← arguments)
  | _ => return .call name []

/-- What follows `if`. An `else` that comes right behind the first branch belongs to it, so that of
several open conditions the innermost takes it. -/
def afterIf (statement : Parse Stmt) : Parse Stmt := do
  let condition ← expression
  keyword .then
  let first ← body statement
  if (← peek) = .keyword .else then
    let _ ← take
    return .ifElse condition first (← body statement)
  else
    return .ifThen condition first

/-- What follows `while`: the condition, the keyword `do` and the body. -/
def afterWhile (statement : Parse Stmt) : Parse Stmt := do
  let condition ← expression
  keyword .do
  return .whileDo condition (← body statement)

/-- What follows `repeat`: statements up to `until`, and the condition. There is at least one
statement. No other list of statements has this condition. -/
def afterRepeat (statement : Parse Stmt) : Parse Stmt := do
  if (← peek) = .keyword .until then
    throw .statement
  else
    let body ← statements .until statement
    keyword .until
    return .repeatUntil body (← expression)

/-- What follows `for`: the counter with its first value, the direction with the last one, and the
body. The counter is a name, and its first and last values are expressions. -/
def afterFor (statement : Parse Stmt) : Parse Stmt := do
  let counter ← name
  mark .assign
  let first ← expression
  let direction ← direction
  let last ← expression
  keyword .do
  return .forLoop counter first direction last (← body statement)

/-- A statement, given the rule for the statements within. The first token decides which kind it is;
there is no empty statement. The recursion of `statement` is tied here and nowhere else. -/
def statementWith (statement : Parse Stmt) : Parse Stmt := do
  match ← peek with
  | .keyword .write =>
    let _ ← take
    return .write false (← arguments)
  | .keyword .writeln =>
    let _ ← take
    return .write true (← arguments)
  | .keyword .read =>
    let _ ← take
    mark .openParen
    let target ← name
    mark .closeParen
    return .read target
  | .ident =>
    let name ← take
    afterName name
  | .keyword .if =>
    let _ ← take
    afterIf statement
  | .keyword .while =>
    let _ ← take
    afterWhile statement
  | .keyword .repeat =>
    let _ ← take
    afterRepeat statement
  | .keyword .for =>
    let _ ← take
    afterFor statement
  | .keyword .begin => return .compound (← compound statement)
  | _ => throw .statement

/-- A statement, in which the statements of branches and loops are read by the same rule again. A
branch or a loop takes a keyword before it comes to one of them. -/
def statement : Parse Stmt :=
  fix (fun self (_ : Unit) => statementWith (self ())) ()

end Parse

end MiniPascal
