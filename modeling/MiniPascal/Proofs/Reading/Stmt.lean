import MiniPascal.Proofs.Reading.Expr
import MiniPascal.Syntax.Stmt

/-!
# How statements are read

`ReadsStmt c p c'` says that the tokens between two cursors can be read as a statement, as the body
of a branch or a loop, as a block between `begin` and `end`, or as the statements within a block.

Where an `else` may belong to several statements, the choice is made by a mark on the phrase. A
statement is **open** if it ends in a branch that could still take an `else`. The first of two
branches is never open, so every `else` is read with the nearest statement that can take it.
-/

namespace MiniPascal

/-- Statements or a part of one, with the tree they stand for. A statement is **open** if an `else`
behind it would belong to it. -/
inductive StmtPhrase where
  | stmt (isOpen : Bool) (s : Stmt)
  /-- The body of a branch or a loop. -/
  | body (isOpen : Bool) (ss : List Stmt)
  /-- Statements between `begin` and `end`. -/
  | block (ss : List Stmt)
  /-- Any number of statements with semicolons between them, and perhaps one more at the end. -/
  | items (ss : List Stmt)

/-- The tokens between two cursors can be read as statements or a part of one. There is one
constructor for each form of the grammar. -/
inductive ReadsStmt : Cursor → StmtPhrase → Cursor → Prop where
  | write {t : Token} {r : List Token} {n : ExprId} {newline : Bool} {es : List Expr} {c : Cursor}
      (kind : t.kind = .keyword (if newline then .writeln else .write))
      (args : ReadsExpr ⟨r, n⟩ (.args es) c) :
    ReadsStmt ⟨t :: r, n⟩ (.stmt false (.write newline es)) c
  | read {a b t d : Token} {r : List Token} {n : ExprId} (keyword : a.kind = .keyword .read)
      (opening : b.kind = .mark .openParen) (target : t.kind = .ident)
      (closing : d.kind = .mark .closeParen) :
    ReadsStmt ⟨a :: b :: t :: d :: r, n⟩ (.stmt false (.read t)) ⟨r, n⟩
  | assign {t a : Token} {r : List Token} {n : ExprId} {e : Expr} {c : Cursor}
      (target : t.kind = .ident) (assign : a.kind = .mark .assign)
      (value : ReadsExpr ⟨r, n⟩ (.expr .equality e) c) :
    ReadsStmt ⟨t :: a :: r, n⟩ (.stmt false (.assign t e)) c
  | bareCall {t : Token} {r : List Token} {n : ExprId} (callee : t.kind = .ident) :
    ReadsStmt ⟨t :: r, n⟩ (.stmt false (.call t [])) ⟨r, n⟩
  | call {t : Token} {r : List Token} {n : ExprId} {es : List Expr} {c : Cursor}
      (callee : t.kind = .ident) (args : ReadsExpr ⟨r, n⟩ (.args es) c) :
    ReadsStmt ⟨t :: r, n⟩ (.stmt false (.call t es)) c
  | ifThen {a b : Token} {r r' : List Token} {n n' : ExprId} {e : Expr} {o : Bool}
      {ss : List Stmt} {c : Cursor} (keyword : a.kind = .keyword .if)
      (condition : ReadsExpr ⟨r, n⟩ (.expr .equality e) ⟨b :: r', n'⟩)
      (hthen : b.kind = .keyword .then) (body : ReadsStmt ⟨r', n'⟩ (.body o ss) c) :
    ReadsStmt ⟨a :: r, n⟩ (.stmt true (.ifThen e ss)) c
  | ifElse {a b d : Token} {r r' r'' : List Token} {n n' n'' : ExprId} {e : Expr} {o : Bool}
      {ss ts : List Stmt} {c : Cursor} (keyword : a.kind = .keyword .if)
      (condition : ReadsExpr ⟨r, n⟩ (.expr .equality e) ⟨b :: r', n'⟩)
      (hthen : b.kind = .keyword .then)
      (body : ReadsStmt ⟨r', n'⟩ (.body false ss) ⟨d :: r'', n''⟩)
      (helse : d.kind = .keyword .else) (otherwise : ReadsStmt ⟨r'', n''⟩ (.body o ts) c) :
    ReadsStmt ⟨a :: r, n⟩ (.stmt o (.ifElse e ss ts)) c
  | whileDo {a b : Token} {r r' : List Token} {n n' : ExprId} {e : Expr} {o : Bool}
      {ss : List Stmt} {c : Cursor} (keyword : a.kind = .keyword .while)
      (condition : ReadsExpr ⟨r, n⟩ (.expr .equality e) ⟨b :: r', n'⟩)
      (hdo : b.kind = .keyword .do) (body : ReadsStmt ⟨r', n'⟩ (.body o ss) c) :
    ReadsStmt ⟨a :: r, n⟩ (.stmt o (.whileDo e ss)) c
  | repeatUntil {a b : Token} {r r' : List Token} {n n' : ExprId} {ss : List Stmt} {e : Expr}
      {c : Cursor} (keyword : a.kind = .keyword .repeat)
      (body : ReadsStmt ⟨r, n⟩ (.items ss) ⟨b :: r', n'⟩) (nonempty : ss ≠ [])
      (huntil : b.kind = .keyword .until)
      (condition : ReadsExpr ⟨r', n'⟩ (.expr .equality e) c) :
    ReadsStmt ⟨a :: r, n⟩ (.stmt false (.repeatUntil ss e)) c
  | forLoop {a t b d g : Token} {r r' r'' : List Token} {n n' n'' : ExprId} {e f : Expr}
      {dir : Direction} {o : Bool} {ss : List Stmt} {c : Cursor}
      (keyword : a.kind = .keyword .for) (counter : t.kind = .ident)
      (assign : b.kind = .mark .assign)
      (first : ReadsExpr ⟨r, n⟩ (.expr .equality e) ⟨d :: r', n'⟩)
      (direction : d.kind = .keyword dir.keyword)
      (last : ReadsExpr ⟨r', n'⟩ (.expr .equality f) ⟨g :: r'', n''⟩)
      (hdo : g.kind = .keyword .do) (body : ReadsStmt ⟨r'', n''⟩ (.body o ss) c) :
    ReadsStmt ⟨a :: t :: b :: r, n⟩ (.stmt o (.forLoop t e dir f ss)) c
  | compound {c c' : Cursor} {ss : List Stmt} (block : ReadsStmt c (.block ss) c') :
    ReadsStmt c (.stmt false (.compound ss)) c'
  | single {c c' : Cursor} {o : Bool} {s : Stmt} (stmt : ReadsStmt c (.stmt o s) c')
      (notBlock : c.kind ≠ .keyword .begin) : ReadsStmt c (.body o [s]) c'
  | enclosed {c c' : Cursor} {ss : List Stmt} (block : ReadsStmt c (.block ss) c') :
    ReadsStmt c (.body false ss) c'
  | block {a b : Token} {r r' : List Token} {n n' : ExprId} {ss : List Stmt}
      (hbegin : a.kind = .keyword .begin)
      (items : ReadsStmt ⟨r, n⟩ (.items ss) ⟨b :: r', n'⟩) (hend : b.kind = .keyword .end) :
    ReadsStmt ⟨a :: r, n⟩ (.block ss) ⟨r', n'⟩
  | nil {c : Cursor} : ReadsStmt c (.items []) c
  | last {c c' : Cursor} {o : Bool} {s : Stmt} (stmt : ReadsStmt c (.stmt o s) c') :
    ReadsStmt c (.items [s]) c'
  | cons {t : Token} {r : List Token} {n : ExprId} {c c' : Cursor} {o : Bool} {s : Stmt}
      {ss : List Stmt} (stmt : ReadsStmt c (.stmt o s) ⟨t :: r, n⟩)
      (semicolon : t.kind = .mark .semicolon) (rest : ReadsStmt ⟨r, n⟩ (.items ss) c') :
    ReadsStmt c (.items (s :: ss)) c'

namespace ReadsStmt

/-- Statements are read forwards. -/
theorem reaches {c c' : Cursor} {p : StmtPhrase} (h : ReadsStmt c p c') : c.Reaches c' := by
  induction h with
  | write _ args | call _ args => exact args.reaches.cons
  | @read _ _ _ _ r n => exact (Cursor.Reaches.refl ⟨r, n⟩).cons.cons.cons.cons
  | assign _ _ value => exact value.reaches.cons.cons
  | @bareCall _ r n => exact (Cursor.Reaches.refl ⟨r, n⟩).cons
  | ifThen _ condition _ _ ih | whileDo _ condition _ _ ih =>
    exact (condition.reaches.tail.trans ih).cons
  | ifElse _ condition _ _ _ _ ih ih' =>
    exact (condition.reaches.tail.trans (ih.tail.trans ih')).cons
  | repeatUntil _ _ _ _ condition ih => exact (ih.tail.trans condition.reaches).cons
  | forLoop _ _ _ first _ last _ _ ih =>
    exact (first.reaches.tail.trans (last.reaches.tail.trans ih)).cons.cons.cons
  | compound _ ih | single _ _ ih | enclosed _ ih | last _ ih => exact ih
  | block _ _ _ ih => exact ih.tail.cons
  | @nil c => exact .refl c
  | cons _ _ _ ih ih' => exact ih.tail.trans ih'

end ReadsStmt

end MiniPascal
