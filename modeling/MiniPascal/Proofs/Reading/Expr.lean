import MiniPascal.Proofs.Action
import MiniPascal.Syntax.Expr

/-!
# How expressions are read

A **phrase** is a part of the language together with the tree it stands for. The relation
`ReadsExpr c p c'` says that the tokens between the cursors `c` and `c'` can be read as the phrase
`p`, where every new node takes the next id when its parts have been read. It knows nothing of how
a parser decides: what comes after `c'` is not looked at.

Expressions are read at six **levels**. An operator belongs to one level, and its right operand is
read at the next one, which binds tighter. Its left operand is read at the same level where
operators group from the left, and at the next one where they do not chain.
-/

namespace MiniPascal

/-- The levels of expressions, from the one that binds least to the one that binds most. An
expression of a level is one of all looser levels, too. -/
inductive Level where
  | equality
  | comparison
  | term
  | factor
  | unary
  | primary
deriving DecidableEq, Repr

namespace Level

/-- The binary operators of a level. Each stands in the list of one level, and the two tightest
levels have none. -/
def ops : Level → List Operator
  | .equality => [.equal, .notEqual]
  | .comparison => [.less, .lessEqual, .greater, .greaterEqual]
  | .term => [.plus, .minus, .or]
  | .factor => [.times, .divide, .and, .mod]
  | .unary | .primary => []

/-- The level that binds tighter by one; the tightest has none, and stays where it is. -/
def next : Level → Level
  | .equality => .comparison
  | .comparison => .term
  | .term => .factor
  | .factor => .unary
  | .unary | .primary => .primary

/-- The level of the left operand of a binary operator: the same level where operators chain from
the left, and otherwise the next tighter one. -/
def left : Level → Level
  | .term => .term
  | .factor => .factor
  | level => level.next

/-- The binary operators of a level and of those that bind tighter: all that may occur in an
expression of the level outside of parentheses. -/
def binding : Level → List Operator
  | .equality => ops .equality ++ ops .comparison ++ ops .term ++ ops .factor
  | .comparison => ops .comparison ++ ops .term ++ ops .factor
  | .term => ops .term ++ ops .factor
  | .factor => ops .factor
  | .unary | .primary => []

/-- Whether an expression of the level certainly **ends** before a token of the given kind: the
token neither goes on with an operator that binds tightly enough nor opens a list of arguments. -/
def Ends (level : Level) (k : Kind) : Prop :=
  k ≠ .mark .openParen ∧ ∀ op ∈ level.binding, k ≠ .operator op

instance (level : Level) (k : Kind) : Decidable (level.Ends k) :=
  inferInstanceAs (Decidable (_ ∧ _))

theorem mem_binding_of_mem_ops {level : Level} {op : Operator} (h : op ∈ level.ops) :
    op ∈ level.binding := by
  revert op
  cases level <;> decide

theorem mem_binding_of_mem_next {level : Level} {op : Operator} (h : op ∈ level.next.binding) :
    op ∈ level.binding := by
  revert op
  cases level <;> decide

/-- What ends an expression ends one of a tighter level. -/
theorem Ends.next {level : Level} {k : Kind} (h : level.Ends k) : level.next.Ends k :=
  ⟨h.1, fun op hop => h.2 op (mem_binding_of_mem_next hop)⟩

/-- An operator of a level ends the expressions of the next one. -/
theorem ends_next_of_mem_ops {level : Level} {op : Operator} (h : op ∈ level.ops) :
    level.next.Ends (.operator op) := by
  revert op
  cases level <;> decide

end Level

/-- Whether an expression or a list of arguments may begin with a token of the given kind. It is
generous: not every operator can stand there. -/
def Kind.beginsExpr : Kind → Bool
  | .ident | .literal _ | .operator _ | .mark .openParen => true
  | _ => false

/-- A part of an expression, with the tree it stands for. One relation reads all of them, since they
contain each other. -/
inductive ExprPhrase where
  | expr (level : Level) (e : Expr)
  /-- One or more expressions with commas between them. -/
  | items (es : List Expr)
  /-- Any number of expressions in parentheses, with commas between them. -/
  | args (es : List Expr)

/-- The tokens between two cursors can be read as a part of an expression. There is one constructor
for each form of the grammar, and ids are handed out as a node is finished. -/
inductive ReadsExpr : Cursor → ExprPhrase → Cursor → Prop where
  | literal {t : Token} {ty : Ty} {r : List Token} {n : ExprId} (kind : t.kind = .literal ty) :
    ReadsExpr ⟨t :: r, n⟩ (.expr .primary (.literal n t)) ⟨r, n + 1⟩
  | name {t : Token} {r : List Token} {n : ExprId} (kind : t.kind = .ident) :
    ReadsExpr ⟨t :: r, n⟩ (.expr .primary (.name n t)) ⟨r, n + 1⟩
  | call {t : Token} {r : List Token} {n : ExprId} {es : List Expr} {c : Cursor}
      (kind : t.kind = .ident) (args : ReadsExpr ⟨r, n⟩ (.args es) c) :
    ReadsExpr ⟨t :: r, n⟩ (.expr .primary (.call c.nextId t es)) ⟨c.rest, c.nextId + 1⟩
  | paren {a b : Token} {r r' : List Token} {n n' : ExprId} {e : Expr}
      (opening : a.kind = .mark .openParen)
      (inner : ReadsExpr ⟨r, n⟩ (.expr .equality e) ⟨b :: r', n'⟩)
      (closing : b.kind = .mark .closeParen) :
    ReadsExpr ⟨a :: r, n⟩ (.expr .primary e) ⟨r', n'⟩
  | sign {t : Token} {op : Operator} {r : List Token} {n : ExprId} {e : Expr} {c : Cursor}
      (kind : t.kind = .operator op) (isSign : op = .plus ∨ op = .minus)
      (operand : ReadsExpr ⟨r, n⟩ (.expr .unary e) c) :
    ReadsExpr ⟨t :: r, n⟩ (.expr .unary (.unary c.nextId t e)) ⟨c.rest, c.nextId + 1⟩
  | not {t : Token} {r : List Token} {n : ExprId} {e : Expr} {c : Cursor}
      (kind : t.kind = .operator .not) (operand : ReadsExpr ⟨r, n⟩ (.expr .primary e) c) :
    ReadsExpr ⟨t :: r, n⟩ (.expr .unary (.unary c.nextId t e)) ⟨c.rest, c.nextId + 1⟩
  | tighter {level : Level} {c c' : Cursor} {e : Expr}
      (operand : ReadsExpr c (.expr level.next e) c') : ReadsExpr c (.expr level e) c'
  | binary {level : Level} {t : Token} {op : Operator} {r : List Token} {n : ExprId}
      {c c' : Cursor} {a b : Expr} (left : ReadsExpr c (.expr level.left a) ⟨t :: r, n⟩)
      (kind : t.kind = .operator op) (mem : op ∈ level.ops)
      (right : ReadsExpr ⟨r, n⟩ (.expr level.next b) c') :
    ReadsExpr c (.expr level (.binary c'.nextId a t b)) ⟨c'.rest, c'.nextId + 1⟩
  | last {c c' : Cursor} {e : Expr} (item : ReadsExpr c (.expr .equality e) c') :
    ReadsExpr c (.items [e]) c'
  | cons {t : Token} {r : List Token} {n : ExprId} {c c' : Cursor} {e : Expr} {es : List Expr}
      (item : ReadsExpr c (.expr .equality e) ⟨t :: r, n⟩) (comma : t.kind = .mark .comma)
      (rest : ReadsExpr ⟨r, n⟩ (.items es) c') : ReadsExpr c (.items (e :: es)) c'
  | noArgs {a b : Token} {r : List Token} {n : ExprId} (opening : a.kind = .mark .openParen)
      (closing : b.kind = .mark .closeParen) : ReadsExpr ⟨a :: b :: r, n⟩ (.args []) ⟨r, n⟩
  | args {a b : Token} {r r' : List Token} {n n' : ExprId} {es : List Expr}
      (opening : a.kind = .mark .openParen) (inner : ReadsExpr ⟨r, n⟩ (.items es) ⟨b :: r', n'⟩)
      (closing : b.kind = .mark .closeParen) : ReadsExpr ⟨a :: r, n⟩ (.args es) ⟨r', n'⟩

namespace ReadsExpr

/-- Parts of expressions are read forwards. -/
theorem reaches {c c' : Cursor} {p : ExprPhrase} (h : ReadsExpr c p c') : c.Reaches c' := by
  induction h with
  | @literal _ _ r n | @name _ r n => exact (Cursor.Reaches.refl ⟨r, n⟩).cons
  | call _ _ ih | sign _ _ _ ih | not _ _ ih => exact ih.cons
  | paren _ _ _ ih | args _ _ _ ih => exact ih.tail.cons
  | tighter _ ih | last _ ih => exact ih
  | binary _ _ _ _ ih ih' | cons _ _ _ ih ih' => exact ih.tail.trans ih'
  | @noArgs _ _ r n => exact (Cursor.Reaches.refl ⟨r, n⟩).cons.cons

/-- The first token of a part of an expression shows what it is. -/
theorem beginsExpr {c c' : Cursor} {p : ExprPhrase} (h : ReadsExpr c p c') :
    c.kind.beginsExpr = true := by
  induction h with
  | literal kind | name kind | call kind | paren kind | sign kind | not kind | noArgs kind
  | args kind => rw [Cursor.kind_cons, kind]; rfl
  | tighter _ ih | binary _ _ _ _ ih | last _ ih | cons _ _ _ ih => exact ih

/-- Arguments begin with an opening parenthesis. -/
theorem opens {c c' : Cursor} {es : List Expr} (h : ReadsExpr c (.args es) c') :
    c.kind = .mark .openParen := by
  generalize hp : ExprPhrase.args es = p at h
  cases h with
  | noArgs opening | args opening => exact opening
  | literal | name | call | paren | sign | not | tighter | binary | last | cons => cases hp

/-- A primary does not begin with an operator. -/
theorem kind_ne_operator {c c' : Cursor} {e : Expr} (h : ReadsExpr c (.expr .primary e) c')
    (op : Operator) : c.kind ≠ .operator op := by
  generalize hp : ExprPhrase.expr .primary e = p at h
  induction h with
  | literal kind | name kind | call kind | paren kind => rw [Cursor.kind_cons, kind]; simp
  | tighter _ ih =>
    cases hp
    exact ih rfl
  | binary _ _ mem =>
    cases hp
    cases mem
  | sign | not | last | cons | noArgs | args => cases hp

/-- Every part of an expression takes a token. -/
theorem length_lt {c c' : Cursor} {p : ExprPhrase} (h : ReadsExpr c p c') :
    c'.rest.length < c.rest.length := by
  induction h <;> simp_all only [List.length_cons] <;> omega

end ReadsExpr

end MiniPascal
