import MiniPascal.Proofs.Reading.Stmt
import MiniPascal.Syntax.Program

/-!
# How programs are read

`ReadsBlock c p c'` says that the tokens between two cursors can be read as a block or as a part of
its declarations. A group of names that share a type stands for one declaration of each, and a list
of groups for all of theirs. `ReadsProgram` is about whole programs.
-/

namespace MiniPascal

/-- A block or a part of its declarations, with the tree it stands for. One relation reads all of
them, since routines contain blocks. -/
inductive BlockPhrase where
  /-- One or more names with commas between them. -/
  | names (ts : List Token)
  /-- Names of one type. -/
  | group (ds : List VarDecl)
  /-- One or more groups with commas between them. -/
  | groups (ds : List VarDecl)
  | params (ds : List VarDecl)
  /-- One or more groups with a semicolon after each. -/
  | lines (ds : List VarDecl)
  /-- The `var` section, or nothing. -/
  | vars (ds : List VarDecl)
  | routine (r : Routine)
  | routines (rs : List Routine)
  | block (b : Block)

/-- The tokens between two cursors can be read as a block or as a part of its declarations. There is
one constructor for each form of the grammar. -/
inductive ReadsBlock : Cursor → BlockPhrase → Cursor → Prop where
  | lastName {t : Token} {r : List Token} {n : ExprId} (kind : t.kind = .ident) :
    ReadsBlock ⟨t :: r, n⟩ (.names [t]) ⟨r, n⟩
  | consName {t a : Token} {r : List Token} {n : ExprId} {ts : List Token} {c : Cursor}
      (kind : t.kind = .ident) (comma : a.kind = .mark .comma)
      (rest : ReadsBlock ⟨r, n⟩ (.names ts) c) : ReadsBlock ⟨t :: a :: r, n⟩ (.names (t :: ts)) c
  | group {c : Cursor} {ts : List Token} {a b : Token} {r : List Token} {n : ExprId} {ty : Ty}
      (names : ReadsBlock c (.names ts) ⟨a :: b :: r, n⟩) (colon : a.kind = .mark .colon)
      (typeName : b.kind = .typeName ty) :
    ReadsBlock c (.group (ts.map fun name => ⟨name, ty⟩)) ⟨r, n⟩
  | lastGroup {c c' : Cursor} {ds : List VarDecl} (group : ReadsBlock c (.group ds) c') :
    ReadsBlock c (.groups ds) c'
  | consGroup {c c' : Cursor} {a : Token} {r : List Token} {n : ExprId} {ds es : List VarDecl}
      (group : ReadsBlock c (.group ds) ⟨a :: r, n⟩) (comma : a.kind = .mark .comma)
      (rest : ReadsBlock ⟨r, n⟩ (.groups es) c') : ReadsBlock c (.groups (ds ++ es)) c'
  | noParams {a b : Token} {r : List Token} {n : ExprId} (opening : a.kind = .mark .openParen)
      (closing : b.kind = .mark .closeParen) : ReadsBlock ⟨a :: b :: r, n⟩ (.params []) ⟨r, n⟩
  | params {a b : Token} {r r' : List Token} {n n' : ExprId} {ds : List VarDecl}
      (opening : a.kind = .mark .openParen)
      (inner : ReadsBlock ⟨r, n⟩ (.groups ds) ⟨b :: r', n'⟩)
      (closing : b.kind = .mark .closeParen) : ReadsBlock ⟨a :: r, n⟩ (.params ds) ⟨r', n'⟩
  | lastLine {c : Cursor} {a : Token} {r : List Token} {n : ExprId} {ds : List VarDecl}
      (group : ReadsBlock c (.group ds) ⟨a :: r, n⟩) (semicolon : a.kind = .mark .semicolon) :
    ReadsBlock c (.lines ds) ⟨r, n⟩
  | consLine {c c' : Cursor} {a : Token} {r : List Token} {n : ExprId} {ds es : List VarDecl}
      (group : ReadsBlock c (.group ds) ⟨a :: r, n⟩) (semicolon : a.kind = .mark .semicolon)
      (rest : ReadsBlock ⟨r, n⟩ (.lines es) c') : ReadsBlock c (.lines (ds ++ es)) c'
  | noVars {c : Cursor} : ReadsBlock c (.vars []) c
  | vars {a : Token} {r : List Token} {n : ExprId} {ds : List VarDecl} {c : Cursor}
      (keyword : a.kind = .keyword .var) (lines : ReadsBlock ⟨r, n⟩ (.lines ds) c) :
    ReadsBlock ⟨a :: r, n⟩ (.vars ds) c
  | procedure {a t b d : Token} {r r' r'' : List Token} {n n' n'' : ExprId} {ds : List VarDecl}
      {block : Block} (keyword : a.kind = .keyword .procedure) (name : t.kind = .ident)
      (params : ReadsBlock ⟨r, n⟩ (.params ds) ⟨b :: r', n'⟩) (heading : b.kind = .mark .semicolon)
      (body : ReadsBlock ⟨r', n'⟩ (.block block) ⟨d :: r'', n''⟩)
      (ending : d.kind = .mark .semicolon) :
    ReadsBlock ⟨a :: t :: r, n⟩ (.routine ⟨t, ds, none, block⟩) ⟨r'', n''⟩
  | function {a t b y d g : Token} {r r' r'' : List Token} {n n' n'' : ExprId} {ds : List VarDecl}
      {ty : Ty} {block : Block} (keyword : a.kind = .keyword .function) (name : t.kind = .ident)
      (params : ReadsBlock ⟨r, n⟩ (.params ds) ⟨b :: y :: d :: r', n'⟩)
      (colon : b.kind = .mark .colon) (result : y.kind = .typeName ty)
      (heading : d.kind = .mark .semicolon)
      (body : ReadsBlock ⟨r', n'⟩ (.block block) ⟨g :: r'', n''⟩)
      (ending : g.kind = .mark .semicolon) :
    ReadsBlock ⟨a :: t :: r, n⟩ (.routine ⟨t, ds, some ty, block⟩) ⟨r'', n''⟩
  | noRoutines {c : Cursor} : ReadsBlock c (.routines []) c
  | consRoutine {c d c' : Cursor} {r : Routine} {rs : List Routine}
      (routine : ReadsBlock c (.routine r) d) (rest : ReadsBlock d (.routines rs) c') :
    ReadsBlock c (.routines (r :: rs)) c'
  | block {c d e c' : Cursor} {ds : List VarDecl} {rs : List Routine} {ss : List Stmt}
      (vars : ReadsBlock c (.vars ds) d) (routines : ReadsBlock d (.routines rs) e)
      (body : ReadsStmt e (.block ss) c') : ReadsBlock c (.block ⟨ds, rs, ss⟩) c'

namespace ReadsBlock

/-- Blocks are read forwards. -/
theorem reaches {c c' : Cursor} {p : BlockPhrase} (h : ReadsBlock c p c') : c.Reaches c' := by
  induction h with
  | @lastName _ r n => exact (Cursor.Reaches.refl ⟨r, n⟩).cons
  | consName _ _ _ ih => exact ih.cons.cons
  | group _ _ _ ih => exact ih.tail.tail
  | lastGroup _ ih => exact ih
  | consGroup _ _ _ ih ih' | consLine _ _ _ ih ih' => exact ih.tail.trans ih'
  | @noParams _ _ r n => exact (Cursor.Reaches.refl ⟨r, n⟩).cons.cons
  | params _ _ _ ih => exact ih.tail.cons
  | lastLine _ _ ih => exact ih.tail
  | @noVars c | @noRoutines c => exact .refl c
  | vars _ _ ih => exact ih.cons
  | procedure _ _ _ _ _ _ ih ih' => exact (ih.tail.trans ih'.tail).cons.cons
  | function _ _ _ _ _ _ _ _ ih ih' => exact (ih.tail.tail.tail.trans ih'.tail).cons.cons
  | consRoutine _ _ ih ih' => exact ih.trans ih'
  | block _ _ body ih ih' => exact ih.trans (ih'.trans body.reaches)

end ReadsBlock

/-- The tokens between two cursors can be read as a program: the heading, a block and the period.
What follows the period is left. -/
inductive ReadsProgram : Cursor → Program → Cursor → Prop where
  | program {a t b d : Token} {r r' : List Token} {n n' : ExprId} {block : Block}
      (keyword : a.kind = .keyword .program) (name : t.kind = .ident)
      (semicolon : b.kind = .mark .semicolon)
      (body : ReadsBlock ⟨r, n⟩ (.block block) ⟨d :: r', n'⟩) (period : d.kind = .mark .period) :
    ReadsProgram ⟨a :: t :: b :: r, n⟩ ⟨t, block⟩ ⟨r', n'⟩

/-- Programs are read forwards. -/
theorem ReadsProgram.reaches {c c' : Cursor} {p : Program} (h : ReadsProgram c p c') :
    c.Reaches c' := by
  obtain ⟨_, _, _, body, _⟩ := h
  exact body.reaches.tail.cons.cons.cons

end MiniPascal
