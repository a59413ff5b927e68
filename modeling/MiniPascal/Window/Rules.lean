import Mathlib.Logic.Function.Iterate
import MiniPascal.Syntax.Program
import MiniPascal.Window.Action

/-!
# Rules that look back

The grammar of `MiniPascal.Parse.Program`, for a parser with a window. A rule is entered when the
token that tells it from others has been taken: the window then gives this token back where the
rule needs it. A name and the sign of an assignment have both been taken when it turns out that the
statement is an assignment, whose target is then the token before the last.
-/

namespace MiniPascal

namespace Windowed

/-! ### Expressions -/

/-- A name, a call, a literal or an expression in parentheses. What was taken is asked of the window
before the next token can push it out. -/
def primary (expression : Windowed Expr) : Windowed Expr := do
  if ← accept [.ident] then
    let name ← prev
    if ← peek [.mark .openParen] then
      let args ← parenthesized expression
      return .call (← freshId) name args
    else
      return .name (← freshId) name
  else if ← accept (Ty.all.map .literal) then
    let value ← prev
    return .literal (← freshId) value
  else if ← accept [.mark .openParen] then
    let expr ← expression
    let _ ← expect [.mark .closeParen]
    return expr
  else
    fail fun found => "Expecting identifier or literal, found " ++ found.describe

/-- A primary, perhaps after unary operators. The operator is asked of the window before its operand
is read, and numbered after it. So the id of an operand is lower than that of its operator. -/
def unary (expression : Windowed Expr) : Windowed Expr :=
  fix (fun self (_ : Unit) => do
    if ← accept [.operator .plus, .operator .minus] then
      let op ← prev
      let operand ← self ()
      return .unary (← freshId) op operand
    else if ← accept [.operator .not] then
      let op ← prev
      let operand ← primary expression
      return .unary (← freshId) op operand
    else
      primary expression) ()

/-- What follows the left operand of an operator: more operators with operands, grouped from the
left. It ends before the first token that is none of these operators. -/
def chainRest (ops : List Operator) (operand : Windowed Expr) : Expr → Windowed Expr :=
  fix fun self (left : Expr) => do
    if ← accept (ops.map .operator) then
      let op ← prev
      let right ← operand
      self (.binary (← freshId) left op right)
    else
      return left

/-- Operands with operators between them, grouped from the left. Each operator takes what was read
before it as its left operand. Two levels of expressions are read by it. -/
def chain (ops : List Operator) (operand : Windowed Expr) : Windowed Expr := do
  chainRest ops operand (← operand)

/-- An operand, or two with an operator between them. A second operator of the same level is not
taken. It is left for the rule outside, which has no use for it. -/
def single (ops : List Operator) (operand : Windowed Expr) : Windowed Expr := do
  let left ← operand
  if ← accept (ops.map .operator) then
    let op ← prev
    let right ← operand
    return .binary (← freshId) left op right
  else
    return left

/-- Factors: multiplication and what binds like it, which is the tightest level of operators with
two operands. Its operands are unary expressions. -/
def factor (expression : Windowed Expr) : Windowed Expr :=
  chain [.times, .divide, .and, .mod] (unary expression)

/-- Terms: addition and what binds like it, `or` among them. The operands are factors. -/
def term (expression : Windowed Expr) : Windowed Expr :=
  chain [.plus, .minus, .or] (factor expression)

/-- One comparison by order at most, between terms. Two of them need parentheses. -/
def comparison (expression : Windowed Expr) : Windowed Expr :=
  single [.less, .lessEqual, .greater, .greaterEqual] (term expression)

/-- One test of equality at most, between comparisons. It is the rule of a whole expression. -/
def equality (expression : Windowed Expr) : Windowed Expr :=
  single [.equal, .notEqual] (comparison expression)

/-- An expression: the loosest level, where expressions in parentheses and in arguments are read by
the same rule again. The recursion goes through `primary`, which takes a parenthesis or a name
first. -/
def expression : Windowed Expr :=
  fix (fun self (_ : Unit) => equality (self ())) ()

/-- The arguments of a call, or of a statement that writes: expressions in parentheses, perhaps
none. The parentheses themselves must be there. -/
def arguments : Windowed (List Expr) :=
  parenthesized expression

/-! ### Statements -/

/-- Fails where a statement should begin, with the message that says so. It can be of any type,
since it has no value. It is the message of `Cause.statement`. -/
def failStatement {α : Type} : Windowed α :=
  fail fun found => "Expecting statement, found " ++ found.describe

/-- Statements with semicolons between them, up to a keyword that stays. One more semicolon may
stand before the keyword. Two semicolons next to each other are a mistake, since there is no empty
statement. -/
def statements (stop : Keyword) (statement : Windowed Stmt) : Windowed (List Stmt) :=
  fix (fun self (_ : Unit) => do
    if ← peek [.keyword stop] then
      return []
    else
      let first ← statement
      if ← accept [.mark .semicolon] then
        return first :: (← self ())
      else
        return [first]) ()

/-- Statements between `begin` and `end`, both of which are taken. There may be none. -/
def compound (statement : Windowed Stmt) : Windowed (List Stmt) := do
  let _ ← expect [.keyword .begin]
  let body ← statements .end statement
  let _ ← expect [.keyword .end]
  return body

/-- The body of a branch or a loop: one statement, or several between `begin` and `end`. Either way
it is a list. In the tree, one statement and a block with only this statement look the same. -/
def body (statement : Windowed Stmt) : Windowed (List Stmt) := do
  if ← peek [.keyword .begin] then
    compound statement
  else
    return [← statement]

/-- A writing statement, of which the keyword has just been taken: the window tells which of the two
keywords it was. The arguments follow, in parentheses. -/
def afterWrite : Windowed Stmt := do
  let newline := decide ((← prev).kind = .keyword .writeln)
  return .write newline (← arguments)

/-- What follows `read`: one name in parentheses, which is what is read into. -/
def afterRead : Windowed Stmt := do
  let _ ← expect [.mark .openParen]
  let target ← expect [.ident]
  let _ ← expect [.mark .closeParen]
  return .read target

/-- An assignment, of which the target and the sign have just been taken. The target lies one token
further back than the window is asked elsewhere. -/
def afterAssign : Windowed Stmt := do
  let target ← prevPrev
  return .assign target (← expression)

/-- A call, of which the name has just been taken. Without a parenthesis behind the name, it is a
call without arguments. In the tree, that is the same as an empty list of arguments. -/
def afterCallee : Windowed Stmt := do
  let callee ← prev
  if ← peek [.mark .openParen] then
    return .call callee (← arguments)
  else
    return .call callee []

/-- What follows `if`. An `else` that comes right behind the first branch belongs to it. Without
one, the statement has no second branch. -/
def afterIf (statement : Windowed Stmt) : Windowed Stmt := do
  let condition ← expression
  let _ ← expect [.keyword .then]
  let first ← body statement
  if ← accept [.keyword .else] then
    return .ifElse condition first (← body statement)
  else
    return .ifThen condition first

/-- What follows `while`: the condition, the keyword `do` and the body. -/
def afterWhile (statement : Windowed Stmt) : Windowed Stmt := do
  let condition ← expression
  let _ ← expect [.keyword .do]
  return .whileDo condition (← body statement)

/-- What follows `repeat`: statements up to `until`, and the condition. There is at least one
statement. No other list of statements has this condition. -/
def afterRepeat (statement : Windowed Stmt) : Windowed Stmt := do
  if ← peek [.keyword .until] then
    failStatement
  else
    let body ← statements .until statement
    let _ ← expect [.keyword .until]
    return .repeatUntil body (← expression)

/-- The direction that a keyword gives, which has just been taken. The failure is for a keyword that
gives none, and never comes about. -/
def directionOf (token : Token) : Windowed Direction :=
  match Direction.ofKind? token.kind with
  | some direction => return direction
  | none => fail fun _ => "Expecting 'to' or 'downto', found " ++ token.kind.display

/-- What follows `for`: the counter with its first value, the direction with the last one, and the
body. The counter is a name, and its first and last values are expressions. -/
def afterFor (statement : Windowed Stmt) : Windowed Stmt := do
  let counter ← expect [.ident]
  let _ ← expect [.mark .assign]
  let first ← expression
  let direction ← directionOf (← expect [.keyword .to, .keyword .downto])
  let last ← expression
  let _ ← expect [.keyword .do]
  return .forLoop counter first direction last (← body statement)

/-- A statement, given the rule for the statements within. The kinds of statements are tried in
turn, and each takes the token that it begins with. -/
def statementWith (statement : Windowed Stmt) : Windowed Stmt := do
  if ← accept [.keyword .write, .keyword .writeln] then
    afterWrite
  else if ← accept [.keyword .read] then
    afterRead
  else if ← accept [.ident] then
    if ← accept [.mark .assign] then
      afterAssign
    else
      afterCallee
  else if ← accept [.keyword .if] then
    afterIf statement
  else if ← accept [.keyword .while] then
    afterWhile statement
  else if ← accept [.keyword .repeat] then
    afterRepeat statement
  else if ← accept [.keyword .for] then
    afterFor statement
  else if ← peek [.keyword .begin] then
    return .compound (← compound statement)
  else
    failStatement

/-- A statement, in which the statements of branches and loops are read by the same rule again. -/
def statement : Windowed Stmt :=
  fix (fun self (_ : Unit) => statementWith (self ())) ()

/-! ### Declarations and programs -/

/-- The type that a reserved word names, which has just been taken. The failure is for a word that
names none, and never comes about. -/
def typeOf (token : Token) : Windowed Ty :=
  match Ty.ofKind? token.kind with
  | some ty => return ty
  | none => fail fun _ => "Unknown type " ++ token.kind.display

/-- The name of a type, which must be one of the reserved words; there are no other types to
name. -/
def typeName : Windowed Ty := do
  typeOf (← expect (Ty.all.map .typeName))

/-- Names of one type, which stands behind them. Each name becomes a declaration of its own. -/
def declaration : Windowed (List VarDecl) := do
  let names ← separated (expect [.ident])
  let _ ← expect [.mark .colon]
  let ty ← typeName
  return names.map fun name => ⟨name, ty⟩

/-- The lines of a `var` section, each with names of one type and a semicolon. There is at least
one, and the section goes on as long as a name follows. -/
def varLines : Windowed (List VarDecl) :=
  fix (fun self (_ : Unit) => do
    let decls ← declaration
    let _ ← expect [.mark .semicolon]
    if ← peek [.ident] then
      return decls ++ (← self ())
    else
      return decls) ()

/-- The `var` section of a block, if it has one. A block has one such section at most, before its
routines. Without the keyword there are no variables. -/
def variableSection : Windowed (List VarDecl) := do
  if ← accept [.keyword .var] then
    varLines
  else
    return []

/-- A parameter list, in parentheses that may be empty but not missing. Groups of names of one type
are separated by commas. In the tree the groups are one list. -/
def parameters : Windowed (List VarDecl) :=
  return (← parenthesized declaration).flatten

/-- What follows `procedure`: the name, the parameters and the block, each of the last two with a
semicolon behind it. A procedure has no result. -/
def afterProcedure (block : Windowed Block) : Windowed Routine := do
  let name ← expect [.ident]
  let params ← parameters
  let _ ← expect [.mark .semicolon]
  let block ← block
  let _ ← expect [.mark .semicolon]
  return ⟨name, params, none, block⟩

/-- What follows `function`: as for a procedure, with the type of the result behind the
parameters. -/
def afterFunction (block : Windowed Block) : Windowed Routine := do
  let name ← expect [.ident]
  let params ← parameters
  let _ ← expect [.mark .colon]
  let result ← typeName
  let _ ← expect [.mark .semicolon]
  let block ← block
  let _ ← expect [.mark .semicolon]
  return ⟨name, params, some result, block⟩

/-- The routines of a block, as long as `procedure` or `function` follows. The rule for their blocks
is given. Procedures and functions may come in any order. -/
def routines (block : Windowed Block) : Windowed (List Routine) :=
  fix (fun self (_ : Unit) => do
    if ← accept [.keyword .procedure] then
      let routine ← afterProcedure block
      return routine :: (← self ())
    else if ← accept [.keyword .function] then
      let routine ← afterFunction block
      return routine :: (← self ())
    else
      return []) ()

/-- A block, given the rule for the blocks within: variables, then routines, then a compound
statement. The recursion of `block` is tied here and nowhere else. -/
def blockWith (block : Windowed Block) : Windowed Block := do
  let vars ← variableSection
  let routines ← routines block
  let body ← compound statement
  return ⟨vars, routines, body⟩

/-- A block, in which the blocks of the routines are read by the same rule again. Its routines may
have routines of their own, to any depth. -/
def block : Windowed Block :=
  fix (fun self (_ : Unit) => blockWith (self ())) ()

/-- A program up to its period, which is taken. Nothing is said about what follows. -/
def untilPeriod : Windowed Program := do
  let _ ← expect [.keyword .program]
  let name ← expect [.ident]
  let _ ← expect [.mark .semicolon]
  let block ← block
  let _ ← expect [.mark .period]
  return ⟨name, block⟩

/-- A program, after which the input ends. A token behind the period is a failure, and it is not
taken. It is the rule from which a parser starts (`WindowParser.parse`). -/
def program : Windowed Program := do
  let program ← untilPeriod
  if ← peek [.eof] then
    return program
  else
    fail unexpected

end Windowed

namespace WindowParser

/-- Reads one program, and gives the parser behind it. If that fails, the parser stands at the token
that the diagnostic is about, and can be called again. -/
def parse (parser : WindowParser) : Except Halt Program × WindowParser :=
  match Windowed.program parser with
  | .ok program parser => (.ok program, parser)
  | .error halt parser => (.error halt, parser)

/-- The parser after a number of calls, whatever their results were. Each call goes on from where
the one before ended. After no call it is the parser itself. -/
def after (count : Nat) (parser : WindowParser) : WindowParser :=
  (fun parser => parser.parse.2)^[count] parser

/-- The programs that a number of calls return, in their order. A call that fails adds none. Ids of
different calls are different, as long as there are enough of them. -/
def programs (count : Nat) (parser : WindowParser) : List Program :=
  (List.range count).filterMap fun calls => (parser.after calls).parse.1.toOption

end WindowParser

end MiniPascal
