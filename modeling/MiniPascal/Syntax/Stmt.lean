import MiniPascal.Syntax.Expr

/-!
# Statements

The body of a branch or a loop is a list of statements, whether it was written as one statement or
between `begin` and `end`: both are the same tree. A compound statement that stands by itself is a
statement of its own.
-/

namespace MiniPascal

/-- Which way a counting loop counts: up to the last value, or down to it. A loop has no other step
than one. -/
inductive Direction where
  | to
  | downto
deriving DecidableEq, Repr

namespace Direction

/-- The keyword of a direction, with which the printer writes it between the two bounds of a loop.
`ofKind?` is the way back. -/
def keyword : Direction → Keyword
  | .to => .to
  | .downto => .downto

/-- The direction that a keyword gives; none for any other kind. The parser asks it of the token
between the two bounds of a loop. -/
def ofKind? : Kind → Option Direction
  | .keyword .to => some .to
  | .keyword .downto => some .downto
  | _ => none

/-- A direction is given by its own keyword only. -/
theorem ofKind?_eq_some_iff {k : Kind} {direction : Direction} :
    ofKind? k = some direction ↔ k = .keyword direction.keyword := by
  constructor
  · intro h
    unfold ofKind? at h
    split at h <;> cases h <;> rfl
  · rintro rfl
    cases direction <;> rfl

end Direction

/-- A statement. A body is a list of statements, whether or not `begin` and `end` stood around it,
and a branch that is not there is told from an empty one. -/
inductive Stmt where
  /-- Writes the values of the arguments, then ends the line if `newline` holds. -/
  | write (newline : Bool) (args : List Expr)
  | read (target : Token)
  | assign (target : Token) (value : Expr)
  | call (callee : Token) (args : List Expr)
  | ifThen (condition : Expr) (body : List Stmt)
  | ifElse (condition : Expr) (body : List Stmt) (otherwise : List Stmt)
  | whileDo (condition : Expr) (body : List Stmt)
  | repeatUntil (body : List Stmt) (condition : Expr)
  | forLoop (counter : Token) (first : Expr) (direction : Direction) (last : Expr)
      (body : List Stmt)
  | compound (body : List Stmt)
deriving Repr

namespace Stmt

mutual

/-- The number of nodes. The body of a branch or a loop counts as a compound statement, whether or
not it was written as one. A branch that is not there counts for nothing. -/
def size : Stmt → Nat
  | .write _ args | .call _ args => 1 + Expr.sizeList args
  | .read _ => 1
  | .assign _ value => 1 + value.size
  | .ifThen condition body => 1 + condition.size + (1 + sizeList body)
  | .ifElse condition body otherwise =>
    1 + condition.size + (1 + sizeList body) + (1 + sizeList otherwise)
  | .whileDo condition body => 1 + condition.size + (1 + sizeList body)
  | .repeatUntil body condition => 1 + sizeList body + condition.size
  | .forLoop _ first _ last body => 1 + first.size + last.size + (1 + sizeList body)
  | .compound body => 1 + sizeList body

/-- The number of nodes in a list of statements, without a node for the list itself. -/
def sizeList : List Stmt → Nat
  | [] => 0
  | stmt :: rest => stmt.size + sizeList rest

end

mutual

/-- Whether two statements are equal but for the positions of their tokens, the expressions and
statements inside included. Ids are compared, too, so the two must be numbered alike. -/
def same : Stmt → Stmt → Bool
  | .write m as, .write n bs => m = n && Expr.sameList as bs
  | .read v, .read w => v.same w
  | .assign v a, .assign w b => v.same w && a.same b
  | .call f as, .call g bs => f.same g && Expr.sameList as bs
  | .ifThen a ss, .ifThen b ts => a.same b && sameList ss ts
  | .ifElse a ss us, .ifElse b ts vs => a.same b && sameList ss ts && sameList us vs
  | .whileDo a ss, .whileDo b ts => a.same b && sameList ss ts
  | .repeatUntil ss a, .repeatUntil ts b => sameList ss ts && a.same b
  | .forLoop v a x c ss, .forLoop w b y d ts =>
    v.same w && a.same b && x = y && c.same d && sameList ss ts
  | .compound ss, .compound ts => sameList ss ts
  | _, _ => false

/-- Whether two lists of statements are equal but for positions, one by one. Lists of different
lengths are not. -/
def sameList : List Stmt → List Stmt → Bool
  | [], [] => true
  | s :: ss, t :: ts => s.same t && sameList ss ts
  | _, _ => false

end

end Stmt

end MiniPascal
