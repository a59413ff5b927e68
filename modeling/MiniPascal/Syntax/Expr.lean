import MiniPascal.Token.Basic

/-!
# Expressions

An expression carries an **id** at every node, by which analyses refer to it, and no type. Tokens
stand for the names, the values and the operators, so that a tree can be written out again and a
node can be found in its source. Parentheses leave no trace.
-/

namespace MiniPascal

/-- The number of an expression among those of one parse. It has a machine width, so the numbers
begin again after the last one; what an analysis finds out is kept under it. -/
abbrev ExprId := UInt32

/-- An expression. Each node has its own number, and keeps the tokens that it was read from, so that
messages can point to them; parentheses leave no node. -/
inductive Expr where
  | literal (id : ExprId) (value : Token)
  | name (id : ExprId) (name : Token)
  | unary (id : ExprId) (op : Token) (operand : Expr)
  | binary (id : ExprId) (left : Expr) (op : Token) (right : Expr)
  | call (id : ExprId) (callee : Token) (args : List Expr)
deriving Repr

namespace Expr

/-- The id of the topmost node, under which a type table keeps what holds of the whole
expression. -/
def id : Expr → ExprId
  | .literal id _ | .name id _ | .unary id _ _ | .binary id _ _ _ | .call id _ _ => id

/-- Whether the topmost node is a unary operator. The printer asks it of the operand of `not`, which
it then puts in parentheses. -/
def isUnary : Expr → Bool
  | .unary .. => true
  | _ => false

mutual

/-- The number of nodes: one for the topmost, and those of its operands or arguments. It does not
depend on tokens and ids (`Expr.size_map`). -/
def size : Expr → Nat
  | .literal .. | .name .. => 1
  | .unary _ _ operand => 1 + operand.size
  | .binary _ left _ right => 1 + left.size + right.size
  | .call _ _ args => 1 + sizeList args

/-- The number of nodes in a list of expressions, such as the arguments of a call. The list itself
is no node. An empty list has none. -/
def sizeList : List Expr → Nat
  | [] => 0
  | expr :: rest => expr.size + sizeList rest

end

mutual

/-- Whether two expressions are equal but for the positions of their tokens. Their ids are compared,
too, so the two must be numbered alike. -/
def same : Expr → Expr → Bool
  | .literal i v, .literal j w => i = j && v.same w
  | .name i v, .name j w => i = j && v.same w
  | .unary i op a, .unary j oq b => i = j && op.same oq && a.same b
  | .binary i a op c, .binary j b oq d => i = j && a.same b && op.same oq && c.same d
  | .call i f as, .call j g bs => i = j && f.same g && sameList as bs
  | _, _ => false

/-- Whether two lists of expressions are equal but for positions, one by one. Lists of different
lengths are not. It is `same` for the arguments of two calls. -/
def sameList : List Expr → List Expr → Bool
  | [], [] => true
  | a :: as, b :: bs => a.same b && sameList as bs
  | _, _ => false

end

end Expr

end MiniPascal
