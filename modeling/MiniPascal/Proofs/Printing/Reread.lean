import MiniPascal.Proofs.Printing.Formed
import MiniPascal.Proofs.Printing.Numbering
import MiniPascal.Proofs.Printing.Written

/-!
# Written tokens can be read

The tokens of a printed tree can be read, whatever tokens follow, and what is read is the tree again
with its expressions numbered and its variables grouped by type. Only the kinds of the tokens count
for this, so it holds of every tree that is formed.
-/

namespace MiniPascal

open Token

theorem kind_spelled (k : Kind) : (spelled k).kind = k :=
  rfl

theorem inParens_append (ts rest : List Token) : inParens ts ++ rest =
    spelled (.mark .openParen) :: (ts ++ spelled (.mark .closeParen) :: rest) := by
  rw [inParens, List.cons_append, List.append_assoc, List.singleton_append]

theorem inBlock_append (ts rest : List Token) : inBlock ts ++ rest =
    spelled (.keyword .begin) :: (ts ++ spelled (.keyword .end) :: rest) := by
  rw [inBlock, List.cons_append, List.append_assoc, List.singleton_append]

/-! ### Expressions -/

namespace ReadsExpr

variable {c c' : Cursor} {e : Expr} {level : Level}

/-- A unary expression can be an operand of any level but the tightest. -/
theorem of_unary (h : ReadsExpr c (.expr .unary e) c') (hlevel : level ≠ .primary) :
    ReadsExpr c (.expr level e) c' := by
  cases level with
  | equality => exact .tighter (.tighter (.tighter (.tighter h)))
  | comparison => exact .tighter (.tighter (.tighter h))
  | term => exact .tighter (.tighter h)
  | factor => exact .tighter h
  | unary => exact h
  | primary => exact absurd rfl hlevel

/-- An expression of any level can stand where nothing binds it. -/
theorem to_equality (h : ReadsExpr c (.expr level e) c') : ReadsExpr c (.expr .equality e) c' := by
  cases level with
  | equality => exact h
  | comparison => exact .tighter h
  | term => exact .tighter (.tighter h)
  | factor => exact .tighter (.tighter (.tighter h))
  | unary => exact h.of_unary nofun
  | primary => exact of_unary (.tighter h) nofun

end ReadsExpr

namespace Expr

/-- The level of a printed expression: parentheses make it a primary, unless it is unary. It tells
where the expression can stand as it is. -/
def ownLevel (e : Expr) : Level :=
  if e.isUnary then .unary else .primary

theorem reads_of_ownLevel {c c' : Cursor} {e e' : Expr} (h : ReadsExpr c (.expr e.ownLevel e') c')
    {level : Level} (hlevel : level ≠ .primary) : ReadsExpr c (.expr level e') c' := by
  refine ReadsExpr.of_unary ?_ hlevel
  unfold ownLevel at h
  split at h
  · exact h
  · exact .tighter h

theorem reads_inParens {ts rest : List Token} {n n' : ExprId} {e : Expr}
    (h : ReadsExpr ⟨ts ++ spelled (.mark .closeParen) :: rest, n⟩ (.expr .equality e)
      ⟨spelled (.mark .closeParen) :: rest, n'⟩) :
    ReadsExpr ⟨inParens ts ++ rest, n⟩ (.expr .primary e) ⟨rest, n'⟩ := by
  rw [inParens_append]
  exact .paren rfl h rfl

theorem reads_writtenArgs {es : List Expr} {n : ExprId} (rest : List Token)
    (h : es ≠ [] → ∀ rest, ReadsExpr ⟨withCommas (writtenList es) ++ rest, n⟩
      (.items (numberList es n).1) ⟨rest, (numberList es n).2⟩) :
    ReadsExpr ⟨inParens (withCommas (writtenList es)) ++ rest, n⟩ (.args (numberList es n).1)
      ⟨rest, (numberList es n).2⟩ := by
  rw [inParens_append]
  cases es with
  | nil => exact .noArgs rfl rfl
  | cons e es => exact .args rfl (h (List.cons_ne_nil e es) _) rfl

mutual

/-- A printed expression can be read. -/
theorem reads_written (e : Expr) (h : e.Formed) (n : ExprId) (rest : List Token) :
    ReadsExpr ⟨e.written ++ rest, n⟩ (.expr e.ownLevel (e.number n).1) ⟨rest, (e.number n).2⟩ := by
  cases e with
  | literal _ value =>
    obtain ⟨ty, hty⟩ := h
    exact .literal hty
  | name _ token => exact .name h
  | unary _ op operand =>
    obtain ⟨hop, hoperand⟩ := h
    have hread := reads_written operand hoperand n
    rw [written]
    -- the operand of `not` has to be a primary, that of a sign need not
    by_cases hnot : op.kind = .operator .not
    · refine ReadsExpr.not (c := ⟨rest, (operand.number n).2⟩) hnot ?_
      by_cases hunary : operand.isUnary = true
      · rw [if_pos ⟨hnot, hunary⟩]
        exact reads_inParens (reads_of_ownLevel (hread _) nofun)
      · rw [if_neg fun hand => hunary hand.2]
        have hlevel : operand.ownLevel = .primary := if_neg hunary
        exact hlevel ▸ hread rest
    · rw [if_neg fun hand => hnot hand.1]
      obtain ⟨o, ho, hsign⟩ : ∃ o, op.kind = .operator o ∧ (o = .plus ∨ o = .minus) := by
        obtain hop | hop | hop := hop
        · exact ⟨.plus, hop, .inl rfl⟩
        · exact ⟨.minus, hop, .inr rfl⟩
        · exact absurd hop hnot
      exact ReadsExpr.sign (c := ⟨rest, (operand.number n).2⟩) ho hsign
        (reads_of_ownLevel (hread rest) nofun)
  | binary id left op right =>
    obtain ⟨⟨level, o, hmem, hop⟩, hleft, hright⟩ := h
    -- no binary operator wants a primary, so unary operands stand as they are
    have hne : level.left ≠ .primary ∧ level.next ≠ .primary := by
      revert o
      cases level <;> simp [Level.ops, Level.left, Level.next]
    have hreadLeft := reads_written left hleft n
    have hreadRight := reads_written right hright (left.number n).2
    have hread : ReadsExpr ⟨left.written ++ op :: (right.written ++
          spelled (.mark .closeParen) :: rest), n⟩
        (.expr level (Expr.number (.binary id left op right) n).1)
        ⟨spelled (.mark .closeParen) :: rest, (Expr.number (.binary id left op right) n).2⟩ :=
      .binary (reads_of_ownLevel (hreadLeft _) hne.1) hop hmem
        (reads_of_ownLevel (hreadRight _) hne.2)
    refine reads_inParens ?_
    rw [List.append_assoc, List.cons_append]
    exact hread.to_equality
  | call _ callee args =>
    obtain ⟨hcallee, hargs⟩ := h
    exact .call hcallee (reads_writtenArgs rest fun hne => reads_writtenItems args hargs hne n)

/-- Printed expressions with commas between them can be read. -/
theorem reads_writtenItems (es : List Expr) (h : FormedList es) (hne : es ≠ []) (n : ExprId)
    (rest : List Token) :
    ReadsExpr ⟨withCommas (writtenList es) ++ rest, n⟩ (.items (numberList es n).1)
      ⟨rest, (numberList es n).2⟩ := by
  cases es with
  | nil => exact absurd rfl hne
  | cons e es =>
    obtain ⟨he, hes⟩ := h
    have hread := reads_written e he n
    cases es with
    | nil =>
      rw [writtenList, writtenList, withCommas_singleton]
      exact .last (reads_of_ownLevel (hread rest) nofun)
    | cons e' es =>
      have hrest := reads_writtenItems (e' :: es) hes (List.cons_ne_nil e' es)
      rw [writtenList, writtenList, withCommas_cons_cons, ← writtenList, List.append_assoc,
        List.cons_append]
      exact .cons (reads_of_ownLevel (hread _) nofun) rfl (hrest _ rest)

end

end Expr

/-! ### Statements -/

namespace Stmt

/-- Printed statements can be read between `begin` and `end` if they can be read in a list. -/
theorem reads_inBlock {ss : List Stmt} {n : ExprId} (rest : List Token)
    (h : ∀ rest, ReadsStmt ⟨writtenList ss ++ rest, n⟩ (.items (numberList ss n).1)
      ⟨rest, (numberList ss n).2⟩) :
    ReadsStmt ⟨inBlock (writtenList ss) ++ rest, n⟩ (.block (numberList ss n).1)
      ⟨rest, (numberList ss n).2⟩ := by
  rw [inBlock_append]
  exact .block rfl (h _) rfl

theorem numberList_ne_nil {ss : List Stmt} (h : ss ≠ []) (n : ExprId) :
    (numberList ss n).1 ≠ [] := by
  obtain ⟨s, ss, rfl⟩ := List.exists_cons_of_ne_nil h
  exact List.cons_ne_nil _ _

mutual

/-- A printed statement can be read. -/
theorem reads_written (s : Stmt) (h : s.Formed) (n : ExprId) (rest : List Token) :
    ∃ o, ReadsStmt ⟨s.written ++ rest, n⟩ (.stmt o (s.number n).1) ⟨rest, (s.number n).2⟩ := by
  cases s with
  | write newline args =>
    exact ⟨false, .write rfl (Expr.reads_writtenArgs rest fun hne =>
      Expr.reads_writtenItems args h hne n)⟩
  | read target =>
    rw [written, List.cons_append, inParens_append]
    exact ⟨false, .read rfl rfl h rfl⟩
  | assign target value =>
    obtain ⟨htarget, hvalue⟩ := h
    have hread := Expr.reads_written value hvalue n rest
    exact ⟨false, .assign htarget rfl (Expr.reads_of_ownLevel hread nofun)⟩
  | call callee args =>
    obtain ⟨hcallee, hargs⟩ := h
    exact ⟨false, .call hcallee (Expr.reads_writtenArgs rest fun hne =>
      Expr.reads_writtenItems args hargs hne n)⟩
  | ifThen condition body =>
    obtain ⟨hcondition, hbody⟩ := h
    have hread := Expr.reads_written condition hcondition n
    have hblock := reads_inBlock rest (reads_writtenList body hbody (condition.number n).2)
    rw [written, List.cons_append, List.append_assoc, List.cons_append]
    -- it is open, but no `else` is ever printed behind it
    exact ⟨true, .ifThen rfl (Expr.reads_of_ownLevel (hread _) nofun) rfl (.enclosed hblock)⟩
  | ifElse condition body otherwise =>
    obtain ⟨hcondition, hbody, hotherwise⟩ := h
    have hread := Expr.reads_written condition hcondition n
    have hlist := reads_writtenList body hbody (condition.number n).2
    have hblock := reads_inBlock rest
      (reads_writtenList otherwise hotherwise (numberList body (condition.number n).2).2)
    rw [written, List.cons_append, List.append_assoc, List.cons_append, List.append_assoc,
      List.cons_append]
    exact ⟨false, .ifElse rfl (Expr.reads_of_ownLevel (hread _) nofun) rfl
      (.enclosed (reads_inBlock _ hlist)) rfl (.enclosed hblock)⟩
  | whileDo condition body =>
    obtain ⟨hcondition, hbody⟩ := h
    have hread := Expr.reads_written condition hcondition n
    have hblock := reads_inBlock rest (reads_writtenList body hbody (condition.number n).2)
    rw [written, List.cons_append, List.append_assoc, List.cons_append]
    exact ⟨false, .whileDo rfl (Expr.reads_of_ownLevel (hread _) nofun) rfl (.enclosed hblock)⟩
  | repeatUntil body condition =>
    obtain ⟨hne, hbody, hcondition⟩ := h
    have hread := Expr.reads_written condition hcondition (numberList body n).2 rest
    have hlist := reads_writtenList body hbody n
    rw [written, List.cons_append, List.append_assoc, List.cons_append]
    exact ⟨false, .repeatUntil rfl (hlist _) (numberList_ne_nil hne n) rfl
      (Expr.reads_of_ownLevel hread nofun)⟩
  | forLoop counter first direction last body =>
    obtain ⟨hcounter, hfirst, hlast, hbody⟩ := h
    have hreadFirst := Expr.reads_written first hfirst n
    have hreadLast := Expr.reads_written last hlast (first.number n).2
    have hblock := reads_inBlock rest
      (reads_writtenList body hbody (last.number (first.number n).2).2)
    rw [written, List.cons_append, List.cons_append, List.cons_append, List.append_assoc,
      List.cons_append, List.append_assoc, List.cons_append]
    exact ⟨false, .forLoop rfl hcounter rfl (Expr.reads_of_ownLevel (hreadFirst _) nofun) rfl
      (Expr.reads_of_ownLevel (hreadLast _) nofun) rfl (.enclosed hblock)⟩
  | compound body =>
    exact ⟨false, .compound (reads_inBlock rest (reads_writtenList body h n))⟩

/-- Printed statements can be read. -/
theorem reads_writtenList (ss : List Stmt) (h : FormedList ss) (n : ExprId) (rest : List Token) :
    ReadsStmt ⟨writtenList ss ++ rest, n⟩ (.items (numberList ss n).1)
      ⟨rest, (numberList ss n).2⟩ := by
  cases ss with
  | nil => exact .nil
  | cons s ss =>
    obtain ⟨hs, hss⟩ := h
    rw [writtenList, List.append_assoc, List.cons_append]
    obtain ⟨o, hread⟩ := reads_written s hs n _
    exact .cons hread rfl (reads_writtenList ss hss _ rest)

end

end Stmt

/-! ### Declarations -/

namespace VarDecl

theorem reads_names {ts : List Token} (h : ∀ t ∈ ts, t.kind = .ident) (hne : ts ≠ []) (n : ExprId)
    (rest : List Token) :
    ReadsBlock ⟨withCommas (ts.map fun t => [t]) ++ rest, n⟩ (.names ts) ⟨rest, n⟩ := by
  induction ts with
  | nil => exact absurd rfl hne
  | cons t ts ih =>
    obtain ⟨ht, hts⟩ := List.forall_mem_cons.1 h
    cases ts with
    | nil => exact .lastName ht
    | cons u ts =>
      have hread := ih hts (List.cons_ne_nil u ts)
      rw [List.map_cons, List.map_cons, withCommas_cons_cons]
      exact .consName ht rfl hread

/-- Variables of one type are a group. -/
theorem reads_group {ds : List VarDecl} {ty : Ty} (h : ∀ d ∈ ds, d.Formed) (hne : ds ≠ [])
    (hty : ∀ d ∈ ds, d.ty = ty) (n : ExprId) (rest : List Token) :
    ReadsBlock ⟨withCommas (ds.map fun d => [d.name]) ++
        spelled (.mark .colon) :: spelled (.typeName ty) :: rest, n⟩
      (.group ds) ⟨rest, n⟩ := by
  have hnames : ∀ t ∈ ds.map name, t.kind = .ident := List.forall_mem_map.2 h
  have hread := reads_names hnames (by simpa using hne) n
    (spelled (.mark .colon) :: spelled (.typeName ty) :: rest)
  have hgroup := ReadsBlock.group hread rfl (kind_spelled _)
  have hds : ((ds.map name).map fun name => ⟨name, ty⟩) = ds := by
    rw [List.map_map]
    refine (List.map_congr_left fun d hd => ?_).trans (List.map_id ds)
    rw [← hty d hd]
    rfl
  rw [hds, List.map_map] at hgroup
  exact hgroup

/-- Printed parameters can be read. -/
theorem reads_params {ds : List VarDecl} (h : ∀ d ∈ ds, d.Formed) (n : ExprId)
    (rest : List Token) :
    ReadsBlock ⟨inParens (withCommas (ds.map written)) ++ rest, n⟩ (.params ds) ⟨rest, n⟩ := by
  have hgroups : ∀ ds : List VarDecl, (∀ d ∈ ds, d.Formed) → ds ≠ [] → ∀ rest,
      ReadsBlock ⟨withCommas (ds.map written) ++ rest, n⟩ (.groups ds) ⟨rest, n⟩ := by
    intro ds h hne rest
    induction ds with
    | nil => exact absurd rfl hne
    | cons d ds ih =>
      obtain ⟨hd, hds⟩ := List.forall_mem_cons.1 h
      have hgroup := reads_group (List.forall_mem_singleton.2 hd) (List.cons_ne_nil d [])
        (List.forall_mem_singleton.2 rfl) n
      cases ds with
      | nil => exact .lastGroup (hgroup rest)
      | cons e ds =>
        have hread := ih hds (List.cons_ne_nil e ds)
        rw [List.map_cons, List.map_cons, withCommas_cons_cons, ← List.map_cons]
        exact .consGroup (hgroup _) rfl hread
  rw [inParens_append]
  cases ds with
  | nil => exact .noParams rfl rfl
  | cons d ds => exact .params rfl (hgroups _ h (List.cons_ne_nil d ds) _) rfl

/-- Printed variables can be read, and are then grouped by type. -/
theorem reads_section {vars : List VarDecl} (h : ∀ d ∈ vars, d.Formed) (n : ExprId)
    (rest : List Token) :
    ReadsBlock ⟨writtenSection vars ++ rest, n⟩ (.vars (regroup vars)) ⟨rest, n⟩ := by
  -- one line for each type, and no type without a variable
  have hlines : ∀ tys : List Ty, tys ≠ [] → (∀ ty ∈ tys, ofType vars ty ≠ []) →
      ReadsBlock ⟨tys.flatMap (writtenGroup vars) ++ rest, n⟩ (.lines (tys.flatMap (ofType vars)))
        ⟨rest, n⟩ := by
    intro tys hne hty
    induction tys with
    | nil => exact absurd rfl hne
    | cons ty tys ih =>
      obtain ⟨hhead, htail⟩ := List.forall_mem_cons.1 hty
      have hformed : ∀ d ∈ ofType vars ty, d.Formed := fun d hd => h d (List.mem_filter.1 hd).1
      have hsame : ∀ d ∈ ofType vars ty, d.ty = ty := fun d hd =>
        of_decide_eq_true (List.mem_filter.1 hd).2
      have hgroup := reads_group hformed hhead hsame n
      rw [List.flatMap_cons, List.flatMap_cons, List.append_assoc, writtenGroup, List.append_assoc]
      cases tys with
      | nil =>
        simp only [List.flatMap_nil, List.append_nil]
        exact .lastLine (hgroup _) rfl
      | cons ty' tys => exact .consLine (hgroup _) rfl (ih (List.cons_ne_nil ty' tys) htail)
  unfold writtenSection
  split
  · next hempty =>
    rw [List.isEmpty_iff.1 hempty]
    exact .noVars
  · next hempty =>
    have hvars : vars ≠ [] := fun hnil => hempty (List.isEmpty_iff.2 hnil)
    refine .vars rfl (hlines _ (types_ne_nil hvars) fun ty hty => ?_)
    obtain ⟨d, hd, rfl⟩ := mem_types.1 hty
    exact List.ne_nil_of_mem (List.mem_filter.2 ⟨hd, decide_eq_true rfl⟩)

end VarDecl

mutual

/-- A printed block can be read. -/
theorem Block.reads_written (b : Block) (h : b.Formed) (n : ExprId) (rest : List Token) :
    ReadsBlock ⟨b.written ++ rest, n⟩ (.block (b.number n).1.regroup) ⟨rest, (b.number n).2⟩ := by
  obtain ⟨vars, routines, body⟩ := b
  obtain ⟨hvars, hroutines, hbody⟩ := h
  have hsection := VarDecl.reads_section hvars n
  have hlist := Routine.reads_writtenList routines hroutines n
  have hblock := Stmt.reads_inBlock rest
    (Stmt.reads_writtenList body hbody (Routine.numberList routines n).2)
  rw [Block.written, List.append_assoc, List.append_assoc]
  exact .block (hsection _) (hlist _) hblock

/-- A printed routine can be read. -/
theorem Routine.reads_written (r : Routine) (h : r.Formed) (n : ExprId) (rest : List Token) :
    ReadsBlock ⟨r.written ++ rest, n⟩ (.routine (r.number n).1.regroup) ⟨rest, (r.number n).2⟩ := by
  obtain ⟨name, params, result, block⟩ := r
  obtain ⟨hname, hparams, hblock⟩ := h
  have hread := Block.reads_written block hblock n
  have hlist := VarDecl.reads_params hparams n
  cases result with
  | none =>
    simp only [Routine.written, List.cons_append, List.append_assoc]
    exact .procedure rfl hname (hlist _) rfl (hread _) rfl
  | some ty =>
    simp only [Routine.written, List.cons_append, List.append_assoc]
    exact .function rfl hname (hlist _) rfl rfl rfl (hread _) rfl

/-- Printed routines can be read. -/
theorem Routine.reads_writtenList (rs : List Routine) (h : Routine.FormedList rs) (n : ExprId)
    (rest : List Token) :
    ReadsBlock ⟨Routine.writtenList rs ++ rest, n⟩
      (.routines (Routine.regroupList (Routine.numberList rs n).1))
      ⟨rest, (Routine.numberList rs n).2⟩ := by
  cases rs with
  | nil => exact .noRoutines
  | cons r rs =>
    obtain ⟨hr, hrs⟩ := h
    have hread := Routine.reads_written r hr n
    have hlist := Routine.reads_writtenList rs hrs (r.number n).2
    rw [Routine.writtenList, List.append_assoc]
    exact .consRoutine (hread _) (hlist rest)

end

/-- A printed program can be read. -/
theorem Program.reads_written (p : Program) (h : p.Formed) (n : ExprId) :
    ReadsProgram ⟨p.written, n⟩ (p.number n).1.regroup ⟨[], (p.number n).2⟩ :=
  .program rfl h.1 rfl (p.block.reads_written h.2 n _) rfl

end MiniPascal
