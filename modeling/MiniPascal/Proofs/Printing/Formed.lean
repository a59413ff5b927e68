import MiniPascal.Proofs.Reading.Program

/-!
# Well-formed trees

A tree is **formed** if each of its tokens is of a kind that can stand in its place and no loop that
ends with a condition is empty. Ids do not matter, and neither does which operators stand below
which: any expression may be an operand of any operator. What is read is formed
(`ReadsProgram.formed`).
-/

namespace MiniPascal

namespace Expr

mutual

/-- Whether the tokens of an expression are of kinds that can stand in their places: literals,
names, and operators with as many operands as they take. -/
def Formed : Expr → Prop
  | .literal _ value => ∃ ty, value.kind = .literal ty
  | .name _ token => token.kind = .ident
  | .unary _ op operand =>
    (op.kind = .operator .plus ∨ op.kind = .operator .minus ∨ op.kind = .operator .not) ∧
      operand.Formed
  | .binary _ left op right =>
    (∃ level : Level, ∃ o ∈ level.ops, op.kind = .operator o) ∧ left.Formed ∧ right.Formed
  | .call _ callee args => callee.kind = .ident ∧ FormedList args

/-- Whether all expressions of a list are formed, each by itself. It is spelled out for the
recursion. -/
def FormedList : List Expr → Prop
  | [] => True
  | expr :: rest => expr.Formed ∧ FormedList rest

end

end Expr

namespace Stmt

mutual

/-- Whether the tokens of a statement are of kinds that can stand in their places, and no loop in it
that ends with a condition is empty. -/
def Formed : Stmt → Prop
  | .write _ args => Expr.FormedList args
  | .read target => target.kind = .ident
  | .assign target value => target.kind = .ident ∧ value.Formed
  | .call callee args => callee.kind = .ident ∧ Expr.FormedList args
  | .ifThen condition body => condition.Formed ∧ FormedList body
  | .ifElse condition body otherwise =>
    condition.Formed ∧ FormedList body ∧ FormedList otherwise
  | .whileDo condition body => condition.Formed ∧ FormedList body
  | .repeatUntil body condition => body ≠ [] ∧ FormedList body ∧ condition.Formed
  | .forLoop counter first _ last body =>
    counter.kind = .ident ∧ first.Formed ∧ last.Formed ∧ FormedList body
  | .compound body => FormedList body

/-- Whether all statements of a list are formed, each by itself. It is spelled out for the
recursion. -/
def FormedList : List Stmt → Prop
  | [] => True
  | stmt :: rest => stmt.Formed ∧ FormedList rest

end

end Stmt

/-- Whether what is declared has a name, that is, a token which is no reserved word and no
literal. -/
def VarDecl.Formed (decl : VarDecl) : Prop :=
  decl.name.kind = .ident

mutual

/-- Whether the declarations and the body of a block are formed, at every depth. That names are
declared once is not asked for. -/
def Block.Formed : Block → Prop
  | ⟨vars, routines, body⟩ =>
    (∀ decl ∈ vars, decl.Formed) ∧ Routine.FormedList routines ∧ Stmt.FormedList body

/-- Whether a routine is formed: its name, its parameters and its block are. -/
def Routine.Formed : Routine → Prop
  | ⟨name, params, _, block⟩ =>
    name.kind = .ident ∧ (∀ decl ∈ params, decl.Formed) ∧ block.Formed

/-- Whether all routines of a list are formed, each by itself. It is spelled out for the
recursion. -/
def Routine.FormedList : List Routine → Prop
  | [] => True
  | routine :: rest => routine.Formed ∧ Routine.FormedList rest

end

/-- Whether a program is formed: its tokens are of kinds that can stand in their places. Every
program that was parsed is (`ReadsProgram.formed`). -/
def Program.Formed (program : Program) : Prop :=
  program.name.kind = .ident ∧ program.block.Formed

/-! ### What is read is formed -/

/-- Whether the tree of a part of an expression is formed. It is `Formed` for whatever a reading
gives. -/
def ExprPhrase.Formed : ExprPhrase → Prop
  | .expr _ e => e.Formed
  | .items es | .args es => Expr.FormedList es

/-- Whether the trees of statements are formed. It is `Formed` for whatever a reading gives. -/
def StmtPhrase.Formed : StmtPhrase → Prop
  | .stmt _ s => s.Formed
  | .body _ ss | .block ss | .items ss => Stmt.FormedList ss

/-- Whether the trees of a part of a block are formed. It is `Formed` for whatever a reading
gives. -/
def BlockPhrase.Formed : BlockPhrase → Prop
  | .names ts => ∀ t ∈ ts, t.kind = .ident
  | .group ds | .groups ds | .params ds | .lines ds | .vars ds => ∀ decl ∈ ds, decl.Formed
  | .routine r => r.Formed
  | .routines rs => Routine.FormedList rs
  | .block b => b.Formed

/-- Expressions that are read are formed. -/
theorem ReadsExpr.formed {c c' : Cursor} {p : ExprPhrase} (h : ReadsExpr c p c') : p.Formed := by
  induction h with
  | literal kind => exact ⟨_, kind⟩
  | name kind => exact kind
  | call kind _ ih => exact ⟨kind, ih⟩
  | paren _ _ _ ih | tighter _ ih | args _ _ _ ih => exact ih
  | sign kind isSign _ ih =>
    obtain rfl | rfl := isSign
    · exact ⟨.inl kind, ih⟩
    · exact ⟨.inr (.inl kind), ih⟩
  | not kind _ ih => exact ⟨.inr (.inr kind), ih⟩
  | binary _ kind mem _ ih ih' => exact ⟨⟨_, _, mem, kind⟩, ih, ih'⟩
  | last _ ih => exact ⟨ih, trivial⟩
  | cons _ _ _ ih ih' => exact ⟨ih, ih'⟩
  | noArgs => trivial

/-- Statements that are read are formed. -/
theorem ReadsStmt.formed {c c' : Cursor} {p : StmtPhrase} (h : ReadsStmt c p c') : p.Formed := by
  induction h with
  | write _ args => exact args.formed
  | read _ _ target => exact target
  | assign target _ value => exact ⟨target, value.formed⟩
  | bareCall callee => exact ⟨callee, trivial⟩
  | call callee args => exact ⟨callee, args.formed⟩
  | ifThen _ condition _ _ ih | whileDo _ condition _ _ ih => exact ⟨condition.formed, ih⟩
  | ifElse _ condition _ _ _ _ ih ih' => exact ⟨condition.formed, ih, ih'⟩
  | repeatUntil _ _ nonempty _ condition ih => exact ⟨nonempty, ih, condition.formed⟩
  | forLoop _ counter _ first _ last _ _ ih => exact ⟨counter, first.formed, last.formed, ih⟩
  | compound _ ih | enclosed _ ih | block _ _ _ ih => exact ih
  | single _ _ ih | last _ ih => exact ⟨ih, trivial⟩
  | nil => trivial
  | cons _ _ _ ih ih' => exact ⟨ih, ih'⟩

/-- Blocks that are read are formed. -/
theorem ReadsBlock.formed {c c' : Cursor} {p : BlockPhrase} (h : ReadsBlock c p c') : p.Formed := by
  induction h with
  | lastName kind => exact List.forall_mem_singleton.2 kind
  | consName kind _ _ ih => exact List.forall_mem_cons.2 ⟨kind, ih⟩
  | group _ _ _ ih =>
    intro decl hdecl
    obtain ⟨t, ht, rfl⟩ := List.mem_map.1 hdecl
    exact ih t ht
  | lastGroup _ ih | params _ _ _ ih | lastLine _ _ ih | vars _ _ ih => exact ih
  | consGroup _ _ _ ih ih' | consLine _ _ _ ih ih' => exact List.forall_mem_append.2 ⟨ih, ih'⟩
  | noParams | noVars => exact List.forall_mem_nil _
  | procedure _ name _ _ _ _ ih ih' | function _ name _ _ _ _ _ _ ih ih' => exact ⟨name, ih, ih'⟩
  | noRoutines => trivial
  | consRoutine _ _ ih ih' => exact ⟨ih, ih'⟩
  | block _ _ body ih ih' => exact ⟨ih, ih', body.formed⟩

/-- A program that is read is formed. -/
theorem ReadsProgram.formed {c c' : Cursor} {p : Program} (h : ReadsProgram c p c') :
    p.Formed := by
  obtain ⟨_, name, _, body, _⟩ := h
  exact ⟨name, body.formed⟩

end MiniPascal
