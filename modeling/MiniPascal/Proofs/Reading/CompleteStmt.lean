import MiniPascal.Proofs.Reading.CompleteExpr
import MiniPascal.Proofs.Reading.Sound

/-!
# What can be read as statements is returned

The rules for statements return whatever can be read as a statement, if the token behind it does
not go on. For an open statement an `else` would go on: since the first of two branches is never
open, no reading leaves behind an `else` that the rules would take.

As with expressions, the rule for the statements within is first taken to be right below a bound.
-/

namespace MiniPascal

/-- Whether a statement, open or not, certainly ends before a token of the given kind. An open one
would take an `else` that follows. -/
def StmtEnds (isOpen : Bool) (k : Kind) : Prop :=
  Level.equality.Ends k ∧ k ≠ .mark .assign ∧ (isOpen = true → k ≠ .keyword .else)

/-- What ends an open statement ends a closed one. -/
theorem StmtEnds.of_open {isOpen : Bool} {k : Kind} (h : StmtEnds true k) : StmtEnds isOpen k :=
  ⟨h.1, h.2.1, fun _ => h.2.2 rfl⟩

/-- The keyword that ends a list of statements ends the last of them. -/
theorem stmtEnds_stop {isOpen : Bool} {stop : Keyword} (h : stop = .end ∨ stop = .until) :
    StmtEnds isOpen (.keyword stop) := by
  refine .of_open ?_
  rcases h with rfl | rfl
  · exact ⟨by decide, by decide, by decide⟩
  · exact ⟨by decide, by decide, by decide⟩

/-- A semicolon ends a statement. -/
theorem stmtEnds_semicolon {isOpen : Bool} : StmtEnds isOpen (.mark .semicolon) :=
  .of_open ⟨by decide, by decide, by decide⟩

/-- An `else` ends a statement that is closed. -/
theorem stmtEnds_else : StmtEnds false (.keyword .else) :=
  ⟨by decide, by decide, by decide⟩

/-- A statement does not begin with the keyword that ends a list of statements. -/
theorem ReadsStmt.kind_ne_stop {c c' : Cursor} {isOpen : Bool} {s : Stmt} {stop : Keyword}
    (h : ReadsStmt c (.stmt isOpen s) c') (hstop : stop = .end ∨ stop = .until) :
    c.kind ≠ .keyword stop := by
  have hne : ∀ k, c.kind = k → k ≠ .keyword .end → k ≠ .keyword .until →
      c.kind ≠ .keyword stop := by
    rintro k rfl hend huntil
    rcases hstop with rfl | rfl
    · exact hend
    · exact huntil
  cases h with
  | write kind => exact hne _ kind (by split <;> simp) (by split <;> simp)
  | read kind | assign kind | bareCall kind | call kind | ifThen kind | ifElse kind | whileDo kind
  | repeatUntil kind | forLoop kind => exact hne _ kind (by simp) (by simp)
  | compound block =>
    cases block with
    | block kind => exact hne _ kind (by simp) (by simp)

namespace Parse

/-- Whether an action returns every statement that can be read where fewer than `m` tokens are
ahead. The rules for branches and loops may rely on it. -/
def TakesStmtsBelow (m : Nat) (p : Parse Stmt) : Prop :=
  ∀ c o s c', c.rest.length < m → ReadsStmt c (.stmt o s) c' → StmtEnds o c'.kind → p c = .ok s c'

/-- What is shown of a reading where at most `m` tokens are ahead: the rule for that part of a
statement returns it, if what follows cannot prolong it. -/
def ReturnsStmt (m : Nat) (p : Parse Stmt) (c : Cursor) : StmtPhrase → Cursor → Prop
  | .stmt o s, c' => c.rest.length ≤ m → StmtEnds o c'.kind → statementWith p c = .ok s c'
  | .body o ss, c' => c.rest.length < m → StmtEnds o c'.kind → body p c = .ok ss c'
  | .block ss, c' => c.rest.length ≤ m → compound p c = .ok ss c'
  | .items ss, c' => c.rest.length < m → ∀ stop, stop = .end ∨ stop = .until →
    c'.kind = .keyword stop → statements stop p c = .ok ss c'

/-! ### Rules at a cursor -/

variable {p : Parse Stmt} {t : Token} {r : List Token} {n : ExprId}

theorem statementWith_of_write {newline : Bool} {es : List Expr} {d : Cursor}
    (ht : t.kind = .keyword (if newline then .writeln else .write))
    (hes : arguments ⟨r, n⟩ = .ok es d) :
    statementWith p ⟨t :: r, n⟩ = .ok (.write newline es) d := by
  rw [statementWith, peek_bind, Cursor.kind_cons, ht]
  cases newline with
  | false => exact bind_of_ok hes
  | true => exact bind_of_ok hes

theorem statementWith_of_read {a b d : Token} (ha : a.kind = .keyword .read)
    (hb : b.kind = .mark .openParen) (ht : t.kind = .ident) (hd : d.kind = .mark .closeParen) :
    statementWith p ⟨a :: b :: t :: d :: r, n⟩ = .ok (.read t) ⟨r, n⟩ := by
  rw [statementWith, peek_bind, Cursor.kind_cons, ha]
  simp only [take_bind]
  rw [bind_of_ok (mark_cons hb _ n), bind_of_ok (name_cons ht _ n), bind_of_ok (mark_cons hd r n)]
  rfl

theorem statementWith_of_ident (ht : t.kind = .ident) :
    statementWith p ⟨t :: r, n⟩ = afterName t ⟨r, n⟩ := by
  rw [statementWith, peek_bind, Cursor.kind_cons, ht]
  rfl

theorem afterName_of_assign {a : Token} {e : Expr} {d : Cursor} (ha : a.kind = .mark .assign)
    (he : expression ⟨r, n⟩ = .ok e d) : afterName t ⟨a :: r, n⟩ = .ok (.assign t e) d := by
  rw [afterName, peek_bind, Cursor.kind_cons, ha]
  exact bind_of_ok he

theorem afterName_of_open {es : List Expr} {c d : Cursor} (hc : c.kind = .mark .openParen)
    (hes : arguments c = .ok es d) : afterName t c = .ok (.call t es) d := by
  rw [afterName, peek_bind, hc]
  exact bind_of_ok hes

theorem afterName_of_ends {c : Cursor} (hc : StmtEnds false c.kind) :
    afterName t c = .ok (.call t []) c := by
  rw [afterName, peek_bind]
  generalize c.kind = k at hc
  split
  · exact absurd rfl hc.2.1
  · exact absurd rfl hc.1.1
  · rfl

theorem statementWith_of_if (ht : t.kind = .keyword .if) :
    statementWith p ⟨t :: r, n⟩ = afterIf p ⟨r, n⟩ := by
  rw [statementWith, peek_bind, Cursor.kind_cons, ht]
  rfl

theorem afterIf_of_ne {b : Token} {r' : List Token} {n' : ExprId} {e : Expr} {ss : List Stmt}
    {d : Cursor} (he : expression ⟨r, n⟩ = .ok e ⟨b :: r', n'⟩) (hb : b.kind = .keyword .then)
    (hss : body p ⟨r', n'⟩ = .ok ss d) (hd : d.kind ≠ .keyword .else) :
    afterIf p ⟨r, n⟩ = .ok (.ifThen e ss) d := by
  rw [afterIf, bind_of_ok he, bind_of_ok (keyword_cons hb r' n'), bind_of_ok hss, peek_bind,
    if_neg hd]
  rfl

theorem afterIf_of_else {b d : Token} {r' r'' : List Token} {n' n'' : ExprId} {e : Expr}
    {ss ts : List Stmt} {c : Cursor} (he : expression ⟨r, n⟩ = .ok e ⟨b :: r', n'⟩)
    (hb : b.kind = .keyword .then) (hss : body p ⟨r', n'⟩ = .ok ss ⟨d :: r'', n''⟩)
    (hd : d.kind = .keyword .else) (hts : body p ⟨r'', n''⟩ = .ok ts c) :
    afterIf p ⟨r, n⟩ = .ok (.ifElse e ss ts) c := by
  rw [afterIf, bind_of_ok he, bind_of_ok (keyword_cons hb r' n'), bind_of_ok hss, peek_bind,
    Cursor.kind_cons, if_pos hd, take_bind]
  exact bind_of_ok hts

theorem statementWith_of_while {b : Token} {r' : List Token} {n' : ExprId} {e : Expr}
    {ss : List Stmt} {d : Cursor} (ht : t.kind = .keyword .while)
    (he : expression ⟨r, n⟩ = .ok e ⟨b :: r', n'⟩) (hb : b.kind = .keyword .do)
    (hss : body p ⟨r', n'⟩ = .ok ss d) :
    statementWith p ⟨t :: r, n⟩ = .ok (.whileDo e ss) d := by
  rw [statementWith, peek_bind, Cursor.kind_cons, ht]
  simp only [take_bind]
  rw [afterWhile, bind_of_ok he, bind_of_ok (keyword_cons hb r' n')]
  exact bind_of_ok hss

theorem statementWith_of_repeat {b : Token} {r' : List Token} {n' : ExprId} {e : Expr}
    {ss : List Stmt} {d : Cursor} (ht : t.kind = .keyword .repeat)
    (hne : (Cursor.mk r n).kind ≠ .keyword .until)
    (hss : statements .until p ⟨r, n⟩ = .ok ss ⟨b :: r', n'⟩) (hb : b.kind = .keyword .until)
    (he : expression ⟨r', n'⟩ = .ok e d) :
    statementWith p ⟨t :: r, n⟩ = .ok (.repeatUntil ss e) d := by
  rw [statementWith, peek_bind, Cursor.kind_cons, ht]
  simp only [take_bind]
  rw [afterRepeat, peek_bind, if_neg hne, bind_of_ok hss, bind_of_ok (keyword_cons hb r' n')]
  exact bind_of_ok he

theorem statementWith_of_for {a b d g : Token} {r' r'' : List Token} {n' n'' : ExprId}
    {e f : Expr} {dir : Direction} {ss : List Stmt} {c : Cursor} (ha : a.kind = .keyword .for)
    (ht : t.kind = .ident) (hb : b.kind = .mark .assign)
    (he : expression ⟨r, n⟩ = .ok e ⟨d :: r', n'⟩) (hd : d.kind = .keyword dir.keyword)
    (hf : expression ⟨r', n'⟩ = .ok f ⟨g :: r'', n''⟩) (hg : g.kind = .keyword .do)
    (hss : body p ⟨r'', n''⟩ = .ok ss c) :
    statementWith p ⟨a :: t :: b :: r, n⟩ = .ok (.forLoop t e dir f ss) c := by
  have hdir : direction ⟨d :: r', n'⟩ = .ok dir ⟨r', n'⟩ := direction_eq_ok.2 ⟨d, rfl, hd⟩
  rw [statementWith, peek_bind, Cursor.kind_cons, ha]
  simp only [take_bind]
  rw [afterFor, bind_of_ok (name_cons ht _ n), bind_of_ok (mark_cons hb r n), bind_of_ok he,
    bind_of_ok hdir, bind_of_ok hf, bind_of_ok (keyword_cons hg r'' n'')]
  exact bind_of_ok hss

theorem statementWith_of_begin {ss : List Stmt} {c d : Cursor} (hc : c.kind = .keyword .begin)
    (hss : compound p c = .ok ss d) : statementWith p c = .ok (.compound ss) d := by
  rw [statementWith, peek_bind, hc]
  exact bind_of_ok hss

theorem statements_of_stop {stop : Keyword} {c : Cursor} (hc : c.kind = .keyword stop) :
    statements stop p c = .ok [] c := by
  rw [statements, fix_eq, peek_bind, if_pos hc]
  rfl

theorem statements_of_ne {stop : Keyword} {s : Stmt} {c d : Cursor} (hc : c.kind ≠ .keyword stop)
    (hs : p c = .ok s d) (hd : d.kind ≠ .mark .semicolon) : statements stop p c = .ok [s] d := by
  rw [statements, fix_eq, peek_bind, if_neg hc, bind_of_ok hs, peek_bind, if_neg hd]
  rfl

theorem statements_of_eq {stop : Keyword} {s : Stmt} {ss : List Stmt} {c d : Cursor}
    (hc : c.kind ≠ .keyword stop) (hs : p c = .ok s ⟨t :: r, n⟩) (ht : t.kind = .mark .semicolon)
    (hlt : r.length < c.rest.length) (hss : statements stop p ⟨r, n⟩ = .ok ss d) :
    statements stop p c = .ok (s :: ss) d := by
  rw [statements, fix_eq, peek_bind, if_neg hc, bind_of_ok hs, peek_bind, Cursor.kind_cons,
    if_pos ht, take_bind]
  exact bind_of_ok ((if_pos hlt).trans hss)

theorem compound_cons {a b : Token} {r' : List Token} {n' : ExprId} {ss : List Stmt}
    (ha : a.kind = .keyword .begin) (hss : statements .end p ⟨r, n⟩ = .ok ss ⟨b :: r', n'⟩)
    (hb : b.kind = .keyword .end) : compound p ⟨a :: r, n⟩ = .ok ss ⟨r', n'⟩ := by
  rw [compound, bind_of_ok (keyword_cons ha r n), bind_of_ok hss,
    bind_of_ok (keyword_cons hb r' n')]
  rfl

theorem body_of_begin {c : Cursor} (hc : c.kind = .keyword .begin) : body p c = compound p c := by
  rw [body, peek_bind, if_pos hc]

theorem body_of_ne {s : Stmt} {c d : Cursor} (hc : c.kind ≠ .keyword .begin)
    (hs : p c = .ok s d) : body p c = .ok [s] d := by
  rw [body, peek_bind, if_neg hc]
  exact bind_of_ok hs

/-! ### Readings at a cursor -/

/-- A keyword between the parts of a statement ends an expression. -/
private theorem expression_before_keyword {b : Token} {r' : List Token} {n' : ExprId} {c : Cursor}
    {e : Expr} {w : Keyword} (h : ReadsExpr c (.expr .equality e) ⟨b :: r', n'⟩)
    (hb : b.kind = .keyword w) : expression c = .ok e ⟨b :: r', n'⟩ := by
  refine expression_of_reads h ?_
  rw [Cursor.kind_cons, hb]
  exact ⟨by simp, by simp⟩

/-- Every reading is returned, if the rule for the statements within is right below the bound. -/
theorem returnsStmt_of_reads {m : Nat} {p : Parse Stmt} (hp : TakesStmtsBelow m p) {c c' : Cursor}
    {phrase : StmtPhrase} (h : ReadsStmt c phrase c') : ReturnsStmt m p c phrase c' := by
  induction h with
  | write kind args => exact fun _ _ => statementWith_of_write kind (arguments_of_reads args)
  | read keyword opening target closing =>
    exact fun _ _ => statementWith_of_read keyword opening target closing
  | assign target assign value =>
    intro _ hends
    exact (statementWith_of_ident target).trans
      (afterName_of_assign assign (expression_of_reads value hends.1))
  | bareCall callee =>
    exact fun _ hends => (statementWith_of_ident callee).trans (afterName_of_ends hends)
  | call callee args =>
    exact fun _ _ => (statementWith_of_ident callee).trans
      (afterName_of_open args.opens (arguments_of_reads args))
  | ifThen keyword condition hthen body ih =>
    intro hm hends
    have hcondition := expression_before_keyword condition hthen
    have hlt := condition.reaches.tail.length_le
    exact (statementWith_of_if keyword).trans
      (afterIf_of_ne hcondition hthen (ih (Nat.lt_of_le_of_lt hlt hm) (.of_open hends))
        (hends.2.2 rfl))
  | ifElse keyword condition hthen body helse otherwise ih ih' =>
    intro hm hends
    have hcondition := expression_before_keyword condition hthen
    have hlt := condition.reaches.tail.length_le
    have hlt' := body.reaches.tail.length_le
    refine (statementWith_of_if keyword).trans
      (afterIf_of_else hcondition hthen (ih (Nat.lt_of_le_of_lt hlt hm) ?_) helse
        (ih' (Nat.lt_of_le_of_lt (Nat.le_trans hlt' hlt) hm) hends))
    -- the first branch is closed, so it ends before the `else`
    rw [Cursor.kind_cons, helse]
    exact stmtEnds_else
  | whileDo keyword condition hdo body ih =>
    intro hm hends
    have hcondition := expression_before_keyword condition hdo
    have hlt := condition.reaches.tail.length_le
    exact statementWith_of_while keyword hcondition hdo (ih (Nat.lt_of_le_of_lt hlt hm) hends)
  | repeatUntil keyword body nonempty huntil condition ih =>
    intro hm hends
    refine statementWith_of_repeat keyword ?_ (ih hm _ (.inr rfl) huntil) huntil
      (expression_of_reads condition hends.1)
    -- there is a statement, and none begins with `until`
    cases body with
    | nil => exact absurd rfl nonempty
    | last stmt | cons stmt => exact stmt.kind_ne_stop (.inr rfl)
  | forLoop keyword counter assign first direction last hdo body ih =>
    intro hm hends
    have hfirst := expression_before_keyword first direction
    have hlast := expression_before_keyword last hdo
    have hlt := first.reaches.tail.length_le
    have hlt' := last.reaches.tail.length_le
    refine statementWith_of_for keyword counter assign hfirst direction hlast hdo (ih ?_ hends)
    simp only [List.length_cons] at hm hlt hlt' ⊢
    omega
  | compound block ih =>
    intro hm _
    refine statementWith_of_begin ?_ (ih hm)
    cases block with
    | block kind => exact kind
  | single stmt notBlock _ =>
    exact fun hm hends => body_of_ne notBlock (hp _ _ _ _ hm stmt hends)
  | enclosed block ih =>
    intro hm _
    refine (body_of_begin ?_).trans (ih (Nat.le_of_lt hm))
    cases block with
    | block kind => exact kind
  | block hbegin items hend ih =>
    exact fun hm => compound_cons hbegin (ih hm _ (.inl rfl) hend) hend
  | nil => exact fun _ _ _ hc => statements_of_stop hc
  | last stmt _ =>
    intro hm stop hstop hc
    refine statements_of_ne (stmt.kind_ne_stop hstop) (hp _ _ _ _ hm stmt ?_) (by simp [hc])
    rw [hc]
    exact stmtEnds_stop hstop
  | cons stmt semicolon rest _ ih =>
    intro hm stop hstop hc
    have hlt := stmt.reaches.length_le
    refine statements_of_eq (stmt.kind_ne_stop hstop) (hp _ _ _ _ hm stmt ?_) semicolon hlt
      (ih (Nat.lt_trans hlt hm) stop hstop hc)
    rw [Cursor.kind_cons, semicolon]
    exact stmtEnds_semicolon

/-! ### Whole statements -/

/-- What can be read as a statement is returned, if the token behind it does not go on. -/
theorem statement_of_reads {c c' : Cursor} {o : Bool} {s : Stmt}
    (h : ReadsStmt c (.stmt o s) c') (hends : StmtEnds o c'.kind) : statement c = .ok s c' := by
  refine fix_takes (motive := fun _ c s c' => ∃ o, ReadsStmt c (.stmt o s) c' ∧ StmtEnds o c'.kind)
    (fun self _ c s c' hself h => ?_) ⟨o, h, hends⟩
  obtain ⟨o, h, hends⟩ := h
  have hbelow : TakesStmtsBelow c.rest.length (self ()) :=
    fun d o t d' hlt ht hends => hself () d t d' hlt ⟨o, ht, hends⟩
  exact returnsStmt_of_reads hbelow h (Nat.le_refl _) hends

/-- What can be read as a block is returned. -/
theorem compound_of_reads {c c' : Cursor} {ss : List Stmt} (h : ReadsStmt c (.block ss) c') :
    compound statement c = .ok ss c' := by
  have hbelow : TakesStmtsBelow c.rest.length statement :=
    fun _ _ _ _ _ hs hends => statement_of_reads hs hends
  exact returnsStmt_of_reads hbelow h (Nat.le_refl _)

end Parse

end MiniPascal
