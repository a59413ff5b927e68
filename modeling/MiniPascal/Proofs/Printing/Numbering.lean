import MiniPascal.Proofs.Reading.Program

/-!
# Numbered trees

`number` gives the expressions of a tree new ids: consecutive ones in post-order, counted from a
given id. It returns the tree together with the id that comes next. A tree that is read has these
ids already (`ReadsProgram.number_eq`).
-/

namespace MiniPascal

namespace Expr

mutual

/-- Numbers an expression from an id on, in post-order, and gives the next id. The ids that it had
are forgotten. -/
def number : Expr → ExprId → Expr × ExprId
  | .literal _ value, n => (.literal n value, n + 1)
  | .name _ token, n => (.name n token, n + 1)
  | .unary _ op operand, n =>
    let operand := operand.number n
    (.unary operand.2 op operand.1, operand.2 + 1)
  | .binary _ left op right, n =>
    let left := left.number n
    let right := right.number left.2
    (.binary right.2 left.1 op right.1, right.2 + 1)
  | .call _ callee args, n =>
    let args := numberList args n
    (.call args.2 callee args.1, args.2 + 1)

/-- Numbers a list of expressions from an id on, each going on where the one before it ended. -/
def numberList : List Expr → ExprId → List Expr × ExprId
  | [], n => ([], n)
  | expr :: rest, n =>
    let expr := expr.number n
    let rest := numberList rest expr.2
    (expr.1 :: rest.1, rest.2)

end

end Expr

namespace Stmt

mutual

/-- Numbers the expressions of a statement from an id on, in the order in which a parser finishes
them. -/
def number : Stmt → ExprId → Stmt × ExprId
  | .write newline args, n =>
    let args := Expr.numberList args n
    (.write newline args.1, args.2)
  | .read target, n => (.read target, n)
  | .assign target value, n =>
    let value := value.number n
    (.assign target value.1, value.2)
  | .call callee args, n =>
    let args := Expr.numberList args n
    (.call callee args.1, args.2)
  | .ifThen condition body, n =>
    let condition := condition.number n
    let body := numberList body condition.2
    (.ifThen condition.1 body.1, body.2)
  | .ifElse condition body otherwise, n =>
    let condition := condition.number n
    let body := numberList body condition.2
    let otherwise := numberList otherwise body.2
    (.ifElse condition.1 body.1 otherwise.1, otherwise.2)
  | .whileDo condition body, n =>
    let condition := condition.number n
    let body := numberList body condition.2
    (.whileDo condition.1 body.1, body.2)
  | .repeatUntil body condition, n =>
    let body := numberList body n
    let condition := condition.number body.2
    (.repeatUntil body.1 condition.1, condition.2)
  | .forLoop counter first direction last body, n =>
    let first := first.number n
    let last := last.number first.2
    let body := numberList body last.2
    (.forLoop counter first.1 direction last.1 body.1, body.2)
  | .compound body, n =>
    let body := numberList body n
    (.compound body.1, body.2)

/-- Numbers the expressions of a list of statements from an id on, each going on where the one
before it ended. -/
def numberList : List Stmt → ExprId → List Stmt × ExprId
  | [], n => ([], n)
  | stmt :: rest, n =>
    let stmt := stmt.number n
    let rest := numberList rest stmt.2
    (stmt.1 :: rest.1, rest.2)

end

end Stmt

mutual

/-- Numbers the expressions of a block from an id on, those of its routines first. Variables have no
ids. -/
def Block.number : Block → ExprId → Block × ExprId
  | ⟨vars, routines, body⟩, n =>
    let routines := Routine.numberList routines n
    let body := Stmt.numberList body routines.2
    (⟨vars, routines.1, body.1⟩, body.2)

/-- Numbers the expressions of a routine from an id on, which are those of its block. Parameters
have no ids. -/
def Routine.number : Routine → ExprId → Routine × ExprId
  | ⟨name, params, result, block⟩, n =>
    let block := block.number n
    (⟨name, params, result, block.1⟩, block.2)

/-- Numbers the expressions of a list of routines from an id on, each going on where the one before
it ended. -/
def Routine.numberList : List Routine → ExprId → List Routine × ExprId
  | [], n => ([], n)
  | routine :: rest, n =>
    let routine := routine.number n
    let rest := Routine.numberList rest routine.2
    (routine.1 :: rest.1, rest.2)

end

/-- Numbers the expressions of a program from an id on. A program that was parsed is numbered like
this (`ReadsProgram.number_eq`). -/
def Program.number (program : Program) (n : ExprId) : Program × ExprId :=
  let block := program.block.number n
  (⟨program.name, block.1⟩, block.2)

/-! ### What is read is numbered -/

/-- Whether the tree of a part of an expression is numbered from one id to another: to number it
again changes nothing. -/
def ExprPhrase.Numbered (n : ExprId) : ExprPhrase → ExprId → Prop
  | .expr _ e, n' => e.number n = (e, n')
  | .items es, n' | .args es, n' => Expr.numberList es n = (es, n')

/-- Whether the trees of statements are numbered from one id to another: to number them again
changes nothing. -/
def StmtPhrase.Numbered (n : ExprId) : StmtPhrase → ExprId → Prop
  | .stmt _ s, n' => s.number n = (s, n')
  | .body _ ss, n' | .block ss, n' | .items ss, n' => Stmt.numberList ss n = (ss, n')

/-- Whether the trees of a part of a block are numbered from one id to another. Parts without
expressions are if the two are equal. -/
def BlockPhrase.Numbered (n : ExprId) : BlockPhrase → ExprId → Prop
  | .names _, n' | .group _, n' | .groups _, n' | .params _, n' | .lines _, n' | .vars _, n' =>
    n = n'
  | .routine r, n' => r.number n = (r, n')
  | .routines rs, n' => Routine.numberList rs n = (rs, n')
  | .block b, n' => b.number n = (b, n')

/-- Expressions that are read have consecutive ids in post-order. -/
theorem ReadsExpr.numbered {c c' : Cursor} {p : ExprPhrase} (h : ReadsExpr c p c') :
    p.Numbered c.nextId c'.nextId := by
  -- a node takes its id behind its parts, in a reading as in `number`
  induction h with
  | literal | name | noArgs => rfl
  | call _ _ ih | sign _ _ _ ih | not _ _ ih =>
    dsimp only [ExprPhrase.Numbered, Expr.number] at ih ⊢
    rw [ih]
  | paren _ _ _ ih | tighter _ ih | args _ _ _ ih => exact ih
  | binary _ _ _ _ ih ih' | cons _ _ _ ih ih' =>
    dsimp only [ExprPhrase.Numbered, Expr.number, Expr.numberList] at ih ih' ⊢
    rw [ih]
    dsimp only
    rw [ih']
  | last _ ih =>
    dsimp only [ExprPhrase.Numbered, Expr.numberList] at ih ⊢
    rw [ih]

/-- Statements that are read have expressions with consecutive ids. -/
theorem ReadsStmt.numbered {c c' : Cursor} {p : StmtPhrase} (h : ReadsStmt c p c') :
    p.Numbered c.nextId c'.nextId := by
  induction h with
  | read | bareCall | nil => rfl
  | write _ args | call _ args =>
    have hargs := args.numbered
    dsimp only [ExprPhrase.Numbered, StmtPhrase.Numbered, Stmt.number] at hargs ⊢
    rw [hargs]
  | assign _ _ value =>
    have hvalue := value.numbered
    dsimp only [ExprPhrase.Numbered, StmtPhrase.Numbered, Stmt.number] at hvalue ⊢
    rw [hvalue]
  | ifThen _ condition _ _ ih | whileDo _ condition _ _ ih =>
    have hcondition := condition.numbered
    dsimp only [ExprPhrase.Numbered, StmtPhrase.Numbered, Stmt.number] at hcondition ih ⊢
    rw [hcondition]
    dsimp only
    rw [ih]
  | ifElse _ condition _ _ _ _ ih ih' =>
    have hcondition := condition.numbered
    dsimp only [ExprPhrase.Numbered, StmtPhrase.Numbered, Stmt.number] at hcondition ih ih' ⊢
    rw [hcondition]
    dsimp only
    rw [ih]
    dsimp only
    rw [ih']
  | repeatUntil _ _ _ _ condition ih =>
    have hcondition := condition.numbered
    dsimp only [ExprPhrase.Numbered, StmtPhrase.Numbered, Stmt.number] at hcondition ih ⊢
    rw [ih]
    dsimp only
    rw [hcondition]
  | forLoop _ _ _ first _ last _ _ ih =>
    have hfirst := first.numbered
    have hlast := last.numbered
    dsimp only [ExprPhrase.Numbered, StmtPhrase.Numbered, Stmt.number] at hfirst hlast ih ⊢
    rw [hfirst]
    dsimp only
    rw [hlast]
    dsimp only
    rw [ih]
  | compound _ ih | last _ ih | single _ _ ih =>
    dsimp only [StmtPhrase.Numbered, Stmt.number, Stmt.numberList] at ih ⊢
    rw [ih]
  | enclosed _ ih | block _ _ _ ih => exact ih
  | cons _ _ _ ih ih' =>
    dsimp only [StmtPhrase.Numbered, Stmt.numberList] at ih ih' ⊢
    rw [ih]
    dsimp only
    rw [ih']

/-- Blocks that are read have expressions with consecutive ids. -/
theorem ReadsBlock.numbered {c c' : Cursor} {p : BlockPhrase} (h : ReadsBlock c p c') :
    p.Numbered c.nextId c'.nextId := by
  induction h with
  | lastName | noParams | noVars | noRoutines => rfl
  | consName _ _ _ ih | group _ _ _ ih | lastGroup _ ih | params _ _ _ ih | lastLine _ _ ih
  | vars _ _ ih => exact ih
  | consGroup _ _ _ ih ih' | consLine _ _ _ ih ih' => exact Eq.trans ih ih'
  | procedure _ _ _ _ _ _ ih ih' | function _ _ _ _ _ _ _ _ ih ih' =>
    dsimp only [BlockPhrase.Numbered, Routine.number] at ih ih' ⊢
    rw [ih, ih']
  | consRoutine _ _ ih ih' =>
    dsimp only [BlockPhrase.Numbered, Routine.numberList] at ih ih' ⊢
    rw [ih]
    dsimp only
    rw [ih']
  | block _ _ body ih ih' =>
    have hbody := body.numbered
    dsimp only [BlockPhrase.Numbered, StmtPhrase.Numbered, Block.number] at ih ih' hbody ⊢
    rw [ih, ih']
    dsimp only
    rw [hbody]

/-- A program that is read has expressions with consecutive ids in post-order. -/
theorem ReadsProgram.number_eq {c c' : Cursor} {p : Program} (h : ReadsProgram c p c') :
    p.number c.nextId = (p, c'.nextId) := by
  obtain ⟨_, _, _, body, _⟩ := h
  have hbody := body.numbered
  dsimp only [BlockPhrase.Numbered, Program.number] at hbody ⊢
  rw [hbody]

end MiniPascal
