import MiniPascal.Parse.Basic

/-!
# Parsing expressions

Six levels of rules, from the operators that bind least to those that bind most. A rule takes the
rule for whole expressions as an argument, for the operands that stand in parentheses.

    expression = equality
    equality   = comparison [ ("=" | "<>") comparison ]
    comparison = term [ ("<" | "<=" | ">" | ">=") term ]
    term       = factor { ("+" | "-" | "or") factor }
    factor     = unary { ("*" | "/" | "and" | "mod") unary }
    unary      = ("+" | "-") unary | "not" primary | primary
    primary    = name [ arguments ] | literal | "(" expression ")"
    arguments  = "(" [ expression { "," expression } ] ")"

The ids of operands are handed out before the id of what they are operands of, from left to right.
-/

namespace MiniPascal

namespace Parse

/-- A name, a call, a literal or an expression in parentheses. A call is told from a name by the
parenthesis behind it, so it is never without one in an expression. -/
def primary (expression : Parse Expr) : Parse Expr := do
  match ← peek with
  | .ident =>
    let name ← take
    if (← peek) = .mark .openParen then
      let args ← parenthesized expression
      return .call (← freshId) name args
    else
      return .name (← freshId) name
  | .literal _ =>
    let value ← take
    return .literal (← freshId) value
  | .mark .openParen =>
    let _ ← take
    let expr ← expression
    mark .closeParen
    return expr
  | _ => throw .operand

/-- A primary, perhaps after unary operators, each of which takes what follows it as its operand.
The id of an operand is lower than that of its operator. -/
def unary (expression : Parse Expr) : Parse Expr :=
  fix (fun self (_ : Unit) => do
    match ← peek with
    | .operator .plus | .operator .minus =>
      let op ← take
      let operand ← self ()
      return .unary (← freshId) op operand
    | .operator .not =>
      let op ← take
      let operand ← primary expression
      return .unary (← freshId) op operand
    | _ => primary expression) ()

/-- What follows the left operand of an operator: more operators with operands, grouped from the
left. It ends before the first token that is none of these operators. -/
def chainRest (ops : List Operator) (operand : Parse Expr) : Expr → Parse Expr :=
  fix fun self (left : Expr) => do
    match ← peek with
    | .operator op =>
      if op ∈ ops then
        let token ← take
        let right ← operand
        self (.binary (← freshId) left token right)
      else
        return left
    | _ => return left

/-- Operands with operators between them, grouped from the left. Each operator takes what was read
before it as its left operand. Two levels of expressions are read by it. -/
def chain (ops : List Operator) (operand : Parse Expr) : Parse Expr := do
  chainRest ops operand (← operand)

/-- An operand, or two with an operator between them. A second operator of the same level is not
taken, and so it is a mistake in most places. -/
def single (ops : List Operator) (operand : Parse Expr) : Parse Expr := do
  let left ← operand
  match ← peek with
  | .operator op =>
    if op ∈ ops then
      let token ← take
      let right ← operand
      return .binary (← freshId) left token right
    else
      return left
  | _ => return left

/-- Factors: multiplication and what binds like it, which is the tightest level of operators with
two operands. Its operands are unary expressions. -/
def factor (expression : Parse Expr) : Parse Expr :=
  chain [.times, .divide, .and, .mod] (unary expression)

/-- Terms: addition and what binds like it, `or` among them. The operands are factors. Operators are
grouped from the left. -/
def term (expression : Parse Expr) : Parse Expr :=
  chain [.plus, .minus, .or] (factor expression)

/-- One comparison by order at most, between terms. Two of them need parentheses. A second operator
is left for the rule outside, which has no use for it. -/
def comparison (expression : Parse Expr) : Parse Expr :=
  single [.less, .lessEqual, .greater, .greaterEqual] (term expression)

/-- One test of equality at most, between comparisons. It is the loosest level, so that this is the
rule of a whole expression. A comparison in parentheses can be an operand again. -/
def equality (expression : Parse Expr) : Parse Expr :=
  single [.equal, .notEqual] (comparison expression)

/-- An expression: the loosest level, where expressions in parentheses and in arguments are read by
the same rule again. The recursion goes through `primary`, which takes a parenthesis or a name
first. -/
def expression : Parse Expr :=
  fix (fun self (_ : Unit) => equality (self ())) ()

/-- The arguments of a call, or of a statement that writes: expressions in parentheses, perhaps
none. The parentheses themselves must be there. -/
def arguments : Parse (List Expr) :=
  parenthesized expression

end Parse

end MiniPascal
