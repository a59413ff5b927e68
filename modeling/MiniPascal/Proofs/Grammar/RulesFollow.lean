import MiniPascal.Proofs.Grammar.Follows

/-!
# The rules of the parser follow the rules of the grammar

One lemma for each parsing rule: every run of it follows its right-hand side in the grammar. Where a
rule takes another rule as an argument, that one is assumed to follow what it stands for; the
assumption is removed for the recursive rules by `Parse.fix_induct`.
-/

namespace MiniPascal

namespace Parse

variable {α : Type}

/-- Whether all runs of an action follow a right-hand side. The rules of the parser are put together
by lemmas about this. -/
def RunsFollow (e : Ebnf) (p : Parse α) : Prop :=
  ∀ c, Follows e c (p c)

/-! ### Tokens and lists -/

theorem follows_expect (k : Kind) : RunsFollow (.token [k]) (expect k) := by
  intro c
  by_cases hk : c.kind = k
  · obtain ⟨_ | ⟨t, r⟩, n⟩ := c
    · -- the end token can be expected, but it cannot be taken
      rw [expect, peek_bind, if_pos hk]
      exact .error _ (Ebnf.productive rfl)
    · rw [expect_cons hk]
      rw [Cursor.kind_cons] at hk
      exact ⟨[k], congrArg (· :: _) hk, .token (.head _)⟩
  · rw [expect_of_ne hk]
    exact .error _ (Ebnf.productive rfl)

theorem follows_name : RunsFollow .ident name :=
  follows_expect .ident

theorem follows_keyword (w : Keyword) : RunsFollow (.word w) (keyword w) :=
  fun c => (follows_expect (.keyword w) c).map fun _ d => ⟨(), d, rfl, rfl⟩

theorem follows_mark (m : Mark) : RunsFollow (.mark m) (mark m) :=
  fun c => (follows_expect (.mark m) c).map fun _ d => ⟨(), d, rfl, rfl⟩

theorem follows_separated {m : Mark} {item : Parse α} {a : Ebnf} (hitem : RunsFollow a item)
    (ha : a.namesKinds = true) : RunsFollow (.list m a) (separated m item) := by
  intro c
  refine fix_induct (motive := fun _ c x => Follows (.list m a) c x)
    (fun _ c => .error _ (Ebnf.productive ?_)) (fun self hself _ c => ?_) () c
  · simp [Ebnf.list, Ebnf.namesKinds, ha]
  · refine .bind (hitem c) (fun first d => ?_) (Ebnf.productive rfl)
    rw [peek_bind]
    split
    · next hk =>
      obtain ⟨t, r, n, rfl, ht⟩ := Cursor.exists_of_kind hk (by simp)
      rw [take_bind]
      exact .cons ((hself () ⟨r, n⟩).map fun _ d => ⟨_, d, rfl, rfl⟩)
        fun w hw => ht ▸ hw.many_of_list
    · exact .ok _ .nil

theorem follows_parenthesized {item : Parse α} {a : Ebnf} (hitem : RunsFollow a item)
    (ha : a.namesKinds = true) :
    RunsFollow (.inOrder (.mark .openParen) [.opt (.list .comma a), .mark .closeParen])
      (parenthesized item) := by
  intro c
  refine .bind (follows_mark _ c) (fun _ d => ?_) (Ebnf.productive rfl)
  rw [peek_bind]
  split
  · next hk =>
    obtain ⟨t, r, n, rfl, ht⟩ := Cursor.exists_of_kind hk (by simp)
    exact ⟨[t.kind], rfl, ht ▸ .seq .none (.token (.head _))⟩
  · refine .bind ((follows_separated hitem ha d).imp fun _ => .some) (fun items d => ?_)
      (Ebnf.productive rfl)
    exact (follows_mark _ d).map fun _ d => ⟨items, d, rfl, rfl⟩

/-! ### Expressions -/

variable {expression : Parse Expr} (hexpression : RunsFollow (.rule .expression) expression)

include hexpression

theorem follows_arglist : RunsFollow (.rule .arglist) (parenthesized expression) :=
  fun c => .rule (r := .arglist) (follows_parenthesized hexpression rfl c)

theorem follows_primary : RunsFollow (.rule .primary) (primary expression) := by
  intro c
  refine .rule ?_
  rw [primary, peek_bind]
  generalize hk : c.kind = k
  split
  · obtain ⟨t, r, n, rfl, ht⟩ := Cursor.exists_of_kind hk (by simp)
    rw [take_bind, peek_bind]
    have hcons : ∀ w, Derives (.opt (.rule .arglist)) w →
        Derives (Rule.body .primary) (t.kind :: w) :=
      fun w hw => ht ▸ .left (.seq (.token (.head _)) hw)
    refine .cons ?_ hcons
    split
    · refine ((follows_arglist hexpression _).imp fun _ => .some).map fun args d => ?_
      exact ⟨_, _, rfl, rfl⟩
    · exact ⟨[], rfl, .none⟩
  · next ty =>
    obtain ⟨t, r, n, rfl, ht⟩ := Cursor.exists_of_kind hk (by simp)
    have hty : Derives (.rule .literal) [t.kind] :=
      ht ▸ .rule (.token (List.mem_map_of_mem ty.mem_all))
    exact ⟨[t.kind], rfl, .right (.left hty)⟩
  · obtain ⟨t, r, n, rfl, ht⟩ := Cursor.exists_of_kind hk (by simp)
    rw [take_bind]
    have hcons : ∀ w, Derives (.inOrder (.rule .expression) [.mark .closeParen]) w →
        Derives (Rule.body .primary) (t.kind :: w) :=
      fun w hw => ht ▸ .right (.right (.seq (.token (.head _)) hw))
    refine .cons (.bind (hexpression _) (fun e d => ?_) (Ebnf.productive rfl)) hcons
    exact (follows_mark _ d).map fun _ d => ⟨e, d, rfl, rfl⟩
  · exact .error _ (Ebnf.productive rfl)

theorem follows_unary : RunsFollow (.rule .unary) (unary expression) := by
  intro c
  refine fix_induct (motive := fun _ c x => Follows (.rule .unary) c x)
    (fun _ c => .error _ (Rule.productive .unary)) (fun self hself _ c => .rule ?_) () c
  rw [peek_bind]
  generalize hk : c.kind = k
  split
  · obtain ⟨t, r, n, rfl, ht⟩ := Cursor.exists_of_kind hk (by simp)
    rw [take_bind]
    exact .cons ((hself () ⟨r, n⟩).map fun _ d => ⟨_, _, rfl, rfl⟩)
      fun w hw => .left (.seq (.token (by simp [ht])) hw)
  · obtain ⟨t, r, n, rfl, ht⟩ := Cursor.exists_of_kind hk (by simp)
    rw [take_bind]
    exact .cons ((hself () ⟨r, n⟩).map fun _ d => ⟨_, _, rfl, rfl⟩)
      fun w hw => .left (.seq (.token (by simp [ht])) hw)
  · obtain ⟨t, r, n, rfl, ht⟩ := Cursor.exists_of_kind hk (by simp)
    rw [take_bind]
    exact .cons ((follows_primary hexpression ⟨r, n⟩).map fun _ d => ⟨_, _, rfl, rfl⟩)
      fun w hw => .right (.left (.seq (.token (by simp [ht])) hw))
  · exact (follows_primary hexpression c).imp fun w hw => .right (.right hw)

omit hexpression

theorem follows_chain {ops : List Operator} {operand : Parse Expr} {a : Ebnf}
    (hoperand : RunsFollow a operand) :
    RunsFollow (.inOrder a [.many (.inOrder (.sign ops) [a])]) (chain ops operand) := by
  intro c
  refine .bind (hoperand c) (fun left d => ?_) (Ebnf.productive rfl)
  refine fix_induct (motive := fun _ c x => Follows (.many (.inOrder (.sign ops) [a])) c x)
    (fun _ c => .error _ (Ebnf.productive rfl)) (fun self hself left c => ?_) left d
  rw [peek_bind]
  generalize hk : c.kind = k
  split
  · next op =>
    split
    · next hop =>
      obtain ⟨t, r, n, rfl, ht⟩ := Cursor.exists_of_kind hk (by simp)
      rw [take_bind]
      have hsign : t.kind ∈ ops.map Kind.operator := ht ▸ List.mem_map_of_mem hop
      have hcons : ∀ w, Derives (.seq a (.many (.inOrder (.sign ops) [a]))) w →
          Derives (.many (.inOrder (.sign ops) [a])) (t.kind :: w) := by
        rintro _ (_ | _ | ⟨hw, hrest⟩)
        exact .cons (.seq (.token hsign) hw) hrest
      exact .cons (.bind (hoperand _) (fun right d => hself _ _) (Ebnf.productive rfl)) hcons
    · exact .ok _ .nil
  · exact .ok _ .nil

theorem follows_single {ops : List Operator} {operand : Parse Expr} {a : Ebnf}
    (hoperand : RunsFollow a operand) :
    RunsFollow (.inOrder a [.opt (.inOrder (.sign ops) [a])]) (single ops operand) := by
  intro c
  refine .bind (hoperand c) (fun left d => ?_) (Ebnf.productive rfl)
  rw [peek_bind]
  generalize hk : d.kind = k
  split
  · next op =>
    split
    · next hop =>
      obtain ⟨t, r, n, rfl, ht⟩ := Cursor.exists_of_kind hk (by simp)
      rw [take_bind]
      have hsign : t.kind ∈ ops.map Kind.operator := ht ▸ List.mem_map_of_mem hop
      exact .cons ((hoperand _).map fun _ d => ⟨_, _, rfl, rfl⟩)
        fun w hw => .some (.seq (.token hsign) hw)
    · exact .ok _ .none
  · exact .ok _ .none

include hexpression in
theorem follows_equality : RunsFollow (.rule .equality) (equality expression) := by
  have hfactor : RunsFollow (.rule .factor) (factor expression) :=
    fun c => .rule (r := .factor) (follows_chain (follows_unary hexpression) c)
  have hterm : RunsFollow (.rule .term) (term expression) :=
    fun c => .rule (r := .term) (follows_chain hfactor c)
  have hcomparison : RunsFollow (.rule .comparison) (comparison expression) :=
    fun c => .rule (r := .comparison) (follows_single hterm c)
  exact fun c => .rule (r := .equality) (follows_single hcomparison c)

/-- Expressions follow the grammar. -/
theorem follows_expression : RunsFollow (.rule .expression) Parse.expression :=
  fun c => fix_induct (motive := fun _ c x => Follows (.rule .expression) c x)
    (fun _ _ => .error _ (Rule.productive .expression))
    (fun _ hself _ c => .rule (r := .expression) (follows_equality (hself ()) c)) () c

theorem follows_arguments : RunsFollow (.rule .arglist) arguments :=
  follows_arglist follows_expression

/-! ### Statements -/

/-- One or more statements, and perhaps a semicolon behind the last: the lists inside a compound
statement and a loop. -/
private abbrev statementList : Ebnf :=
  .inOrder (.list .semicolon (.rule .statement)) [.opt (.mark .semicolon)]

/-- Statements behind the semicolon after the first one. -/
private theorem rest_of_statements {w : List Kind} (h : Derives (.opt statementList) w) :
    Derives (.seq (.many (.seq (.mark .semicolon) (.rule .statement))) (.opt (.mark .semicolon)))
      (.mark .semicolon :: w) := by
  obtain _ | _ | _ | _ | _ | _ | h := h
  · exact .seq .nil (.some (.token (.head _)))
  · obtain _ | _ | ⟨hlist, hlast⟩ := h
    exact .seq hlist.many_of_list hlast

variable {statement : Parse Stmt} (hstatement : RunsFollow (.rule .statement) statement)

include hstatement

theorem follows_statements {stop : Keyword} (c : Cursor) :
    Follows (.opt statementList) c (statements stop statement c) ∧
      (c.kind ≠ .keyword stop → Follows statementList c (statements stop statement c)) := by
  refine fix_induct
    (motive := fun _ c x => Follows (.opt statementList) c x ∧
      (c.kind ≠ .keyword stop → Follows statementList c x))
    (fun _ c => ⟨.error _ (Ebnf.productive rfl), fun _ => .error _ (Ebnf.productive rfl)⟩)
    (fun self hself _ c => ?_) () c
  rw [peek_bind]
  split
  · next hk => exact ⟨.ok _ .none, fun hne => absurd hk hne⟩
  · -- where the keyword is not next, a statement is read in any case
    suffices h : Follows statementList c _ from ⟨h.imp fun _ => .some, fun _ => h⟩
    refine (Follows.bind (hstatement c) (fun first d => ?_) (Ebnf.productive rfl)).imp
      fun _ => Derives.assoc'
    rw [peek_bind]
    split
    · next hk =>
      obtain ⟨t, r, n, rfl, ht⟩ := Cursor.exists_of_kind hk (by simp)
      rw [take_bind]
      exact .cons ((hself () ⟨r, n⟩).1.map fun _ d => ⟨_, d, rfl, rfl⟩)
        fun w hw => ht ▸ rest_of_statements hw
    · exact .ok _ (.seq .nil .none)

theorem follows_compound : RunsFollow (.rule .compoundStmt) (compound statement) := by
  intro c
  refine .rule (r := .compoundStmt)
    (.bind (follows_keyword _ c) (fun _ d => ?_) (Ebnf.productive rfl))
  refine .bind (follows_statements hstatement d).1 (fun body d => ?_) (Ebnf.productive rfl)
  exact (follows_keyword _ d).map fun _ d => ⟨body, d, rfl, rfl⟩

theorem follows_body : RunsFollow (.rule .stmtOrBlock) (body statement) := by
  intro c
  refine .rule (r := .stmtOrBlock) ?_
  rw [body, peek_bind]
  split
  · exact (follows_compound hstatement c).imp fun _ => .right
  · exact ((hstatement c).imp fun _ => .left).map fun _ d => ⟨_, d, rfl, rfl⟩

omit hstatement

theorem follows_direction :
    RunsFollow (.token [.keyword .to, .keyword .downto]) direction := by
  intro c
  rw [direction, peek_bind]
  cases hd : Direction.ofKind? c.kind with
  | none => exact .error _ (Ebnf.productive rfl)
  | some d =>
    have hkind := Direction.ofKind?_eq_some_iff.1 hd
    obtain ⟨t, r, n, rfl, ht⟩ := Cursor.exists_of_kind hkind (by simp)
    refine ⟨[t.kind], rfl, .token ?_⟩
    rw [ht]
    cases d <;> simp [Direction.keyword]

/-- What follows a name is an assignment or a call. -/
theorem follows_afterName {t : Token} {r : List Token} {n : ExprId} (ht : t.kind = .ident) :
    Follows (.rule .statement) ⟨t :: r, n⟩ (afterName t ⟨r, n⟩) := by
  rw [afterName, peek_bind]
  generalize hk : (Cursor.mk r n).kind = k
  have hcall : ∀ w, Derives (.opt (.rule .arglist)) w → Derives (.rule .statement) (t.kind :: w) :=
    fun w hw => ht ▸ .rule (.oneOf (.rule (r := .callStmt) (.seq (.token (.head _)) hw)) (by simp))
  split
  · obtain ⟨a, r, n, hr, ha⟩ := Cursor.exists_of_kind hk (by simp)
    cases hr
    rw [take_bind]
    refine .cons (e := .inOrder (.mark .assign) [.rule .expression]) ?_ fun w hw =>
      ht ▸ .rule (.oneOf (.rule (r := .assignStmt) (.seq (.token (.head _)) hw)) (by simp))
    exact .cons ((follows_expression _).map fun _ d => ⟨_, d, rfl, rfl⟩)
      fun w hw => ha ▸ .seq (.token (.head _)) hw
  · exact .cons (((follows_arguments _).imp fun _ => .some).map fun _ d => ⟨_, d, rfl, rfl⟩) hcall
  · exact .cons (.ok _ .none) hcall

include hstatement

theorem follows_afterIf :
    RunsFollow (.inOrder (.rule .expression) [.word .then, .rule .stmtOrBlock,
      .opt (.inOrder (.word .else) [.rule .stmtOrBlock])]) (afterIf statement) := by
  intro c
  refine .bind (follows_expression c) (fun condition d => ?_) (Ebnf.productive rfl)
  refine .bind (follows_keyword _ d) (fun _ d => ?_) (Ebnf.productive rfl)
  refine .bind (follows_body hstatement d) (fun first d => ?_) (Ebnf.productive rfl)
  rw [peek_bind]
  split
  · next hk =>
    obtain ⟨t, r, n, rfl, ht⟩ := Cursor.exists_of_kind hk (by simp)
    rw [take_bind]
    exact .cons ((follows_body hstatement _).map fun _ d => ⟨_, d, rfl, rfl⟩)
      fun w hw => ht ▸ .some (.seq (.token (.head _)) hw)
  · exact .ok _ .none

theorem follows_afterWhile :
    RunsFollow (.inOrder (.rule .expression) [.word .do, .rule .stmtOrBlock])
      (afterWhile statement) := by
  intro c
  refine .bind (follows_expression c) (fun condition d => ?_) (Ebnf.productive rfl)
  refine .bind (follows_keyword _ d) (fun _ d => ?_) (Ebnf.productive rfl)
  exact (follows_body hstatement d).map fun _ d => ⟨_, d, rfl, rfl⟩

theorem follows_afterRepeat :
    RunsFollow (.inOrder (.list .semicolon (.rule .statement))
      [.opt (.mark .semicolon), .word .until, .rule .expression]) (afterRepeat statement) := by
  intro c
  rw [afterRepeat, peek_bind]
  split
  · exact .error _ (Ebnf.productive rfl)
  · next hk =>
    refine (Follows.bind ((follows_statements hstatement c).2 hk) (fun body d => ?_)
      (Ebnf.productive rfl)).imp fun _ => Derives.assoc
    refine .bind (follows_keyword _ d) (fun _ d => ?_) (Ebnf.productive rfl)
    exact (follows_expression d).map fun _ d => ⟨_, d, rfl, rfl⟩

theorem follows_afterFor :
    RunsFollow (.inOrder .ident [.mark .assign, .rule .expression,
      .token [.keyword .to, .keyword .downto], .rule .expression, .word .do, .rule .stmtOrBlock])
      (afterFor statement) := by
  intro c
  refine .bind (follows_name c) (fun counter d => ?_) (Ebnf.productive rfl)
  refine .bind (follows_mark _ d) (fun _ d => ?_) (Ebnf.productive rfl)
  refine .bind (follows_expression d) (fun first d => ?_) (Ebnf.productive rfl)
  refine .bind (follows_direction d) (fun direction d => ?_) (Ebnf.productive rfl)
  refine .bind (follows_expression d) (fun last d => ?_) (Ebnf.productive rfl)
  refine .bind (follows_keyword _ d) (fun _ d => ?_) (Ebnf.productive rfl)
  exact (follows_body hstatement d).map fun _ d => ⟨_, d, rfl, rfl⟩

theorem follows_statementWith : RunsFollow (.rule .statement) (statementWith statement) := by
  intro c
  rw [statementWith, peek_bind]
  generalize hk : c.kind = k
  -- one case for each kind with which a statement may begin, in the order of the rule
  split
  · obtain ⟨t, r, n, rfl, ht⟩ := Cursor.exists_of_kind hk (by simp)
    rw [take_bind]
    exact .cons ((follows_arguments _).map fun _ d => ⟨_, d, rfl, rfl⟩) fun w hw =>
      .rule (.oneOf (.rule (r := .writeStmt) (.seq (.token (by simp [ht])) hw)) (by simp))
  · obtain ⟨t, r, n, rfl, ht⟩ := Cursor.exists_of_kind hk (by simp)
    rw [take_bind]
    exact .cons ((follows_arguments _).map fun _ d => ⟨_, d, rfl, rfl⟩) fun w hw =>
      .rule (.oneOf (.rule (r := .writeStmt) (.seq (.token (by simp [ht])) hw)) (by simp))
  · obtain ⟨t, r, n, rfl, ht⟩ := Cursor.exists_of_kind hk (by simp)
    rw [take_bind]
    refine .cons (e := .inOrder (.mark .openParen) [.ident, .mark .closeParen]) ?_ fun w hw =>
      .rule (.oneOf (.rule (r := .readStmt) (.seq (.token (by simp [ht])) hw)) (by simp))
    refine .bind (follows_mark _ _) (fun _ d => ?_) (Ebnf.productive rfl)
    refine .bind (follows_name d) (fun target d => ?_) (Ebnf.productive rfl)
    exact (follows_mark _ d).map fun _ d => ⟨_, d, rfl, rfl⟩
  · obtain ⟨t, r, n, rfl, ht⟩ := Cursor.exists_of_kind hk (by simp)
    exact follows_afterName ht
  · obtain ⟨t, r, n, rfl, ht⟩ := Cursor.exists_of_kind hk (by simp)
    exact .cons (follows_afterIf hstatement _) fun w hw =>
      .rule (.oneOf (.rule (r := .ifStmt) (.seq (.token (by simp [ht])) hw)) (by simp))
  · obtain ⟨t, r, n, rfl, ht⟩ := Cursor.exists_of_kind hk (by simp)
    exact .cons (follows_afterWhile hstatement _) fun w hw =>
      .rule (.oneOf (.rule (r := .whileStmt) (.seq (.token (by simp [ht])) hw)) (by simp))
  · obtain ⟨t, r, n, rfl, ht⟩ := Cursor.exists_of_kind hk (by simp)
    exact .cons (follows_afterRepeat hstatement _) fun w hw =>
      .rule (.oneOf (.rule (r := .repeatStmt) (.seq (.token (by simp [ht])) hw)) (by simp))
  · obtain ⟨t, r, n, rfl, ht⟩ := Cursor.exists_of_kind hk (by simp)
    exact .cons (follows_afterFor hstatement _) fun w hw =>
      .rule (.oneOf (.rule (r := .forStmt) (.seq (.token (by simp [ht])) hw)) (by simp))
  · refine ((follows_compound hstatement c).imp fun w hw => ?_).map fun _ d => ⟨_, d, rfl, rfl⟩
    exact .rule (.oneOf hw (by simp))
  · exact .error _ (Rule.productive .statement)

omit hstatement

/-- Statements follow the grammar. -/
theorem follows_statement : RunsFollow (.rule .statement) Parse.statement :=
  fun c => fix_induct (motive := fun _ c x => Follows (.rule .statement) c x)
    (fun _ _ => .error _ (Rule.productive .statement))
    (fun _ hself _ c => follows_statementWith (hself ()) c) () c

/-! ### Declarations and programs -/

theorem follows_typeName : RunsFollow (.rule .type) typeName := by
  intro c
  refine .rule (r := .type) ?_
  rw [typeName, peek_bind]
  cases hty : Ty.ofKind? c.kind with
  | none => exact .error _ (Ebnf.productive rfl)
  | some ty =>
    obtain ⟨t, r, n, rfl, ht⟩ := Cursor.exists_of_kind (Ty.ofKind?_eq_some_iff.1 hty) (by simp)
    exact ⟨[t.kind], rfl, .token (ht ▸ List.mem_map_of_mem ty.mem_all)⟩

theorem follows_declaration : RunsFollow (.rule .varDecl) declaration := by
  intro c
  refine .rule (r := .varDecl) ?_
  refine .bind (.rule (r := .identList) (follows_separated follows_name rfl c)) (fun names d => ?_)
    (Ebnf.productive rfl)
  refine .bind (follows_mark _ d) (fun _ d => ?_) (Ebnf.productive rfl)
  exact (follows_typeName d).map fun _ d => ⟨_, d, rfl, rfl⟩

theorem follows_parameters : RunsFollow (.rule .paramlist) parameters := by
  intro c
  refine .rule (r := .paramlist) ?_
  exact (follows_parenthesized follows_declaration rfl c).map fun _ d => ⟨_, d, rfl, rfl⟩

/-- A line of variables: names of one type and the semicolon behind them. -/
private abbrev varLine : Ebnf :=
  .inOrder (.rule .varDecl) [.mark .semicolon]

theorem follows_varLines : RunsFollow (.inOrder varLine [.many varLine]) varLines := by
  intro c
  refine fix_induct (motive := fun _ c x => Follows (.inOrder varLine [.many varLine]) c x)
    (fun _ _ => .error _ (Ebnf.productive rfl)) (fun self hself _ c => ?_) () c
  refine (Follows.bind (follows_declaration c) (fun decls d => ?_) (Ebnf.productive rfl)).imp
    fun _ => Derives.assoc'
  refine .bind (follows_mark _ d) (fun _ d => ?_) (Ebnf.productive rfl)
  rw [peek_bind]
  split
  · refine ((hself () d).imp ?_).map fun _ d => ⟨_, d, rfl, rfl⟩
    rintro _ (_ | _ | ⟨hline, hrest⟩)
    exact .cons hline hrest
  · exact .ok _ .nil

theorem follows_variableSection :
    RunsFollow (.opt (.inOrder (.word .var) [varLine, .many varLine])) variableSection := by
  intro c
  rw [variableSection, peek_bind]
  split
  · next hk =>
    obtain ⟨t, r, n, rfl, ht⟩ := Cursor.exists_of_kind hk (by simp)
    rw [take_bind]
    exact .cons (follows_varLines _) fun w hw => ht ▸ .some (.seq (.token (.head _)) hw)
  · exact .ok _ .none

variable {block : Parse Block} (hblock : RunsFollow (.rule .block) block)

include hblock

theorem follows_afterProcedure :
    RunsFollow (.inOrder .ident [.rule .paramlist, .mark .semicolon, .rule .block,
      .mark .semicolon]) (afterProcedure block) := by
  intro c
  refine .bind (follows_name c) (fun name d => ?_) (Ebnf.productive rfl)
  refine .bind (follows_parameters d) (fun params d => ?_) (Ebnf.productive rfl)
  refine .bind (follows_mark _ d) (fun _ d => ?_) (Ebnf.productive rfl)
  refine .bind (hblock d) (fun block d => ?_) (Ebnf.productive rfl)
  exact (follows_mark _ d).map fun _ d => ⟨_, d, rfl, rfl⟩

theorem follows_afterFunction :
    RunsFollow (.inOrder .ident [.rule .paramlist, .mark .colon, .rule .type, .mark .semicolon,
      .rule .block, .mark .semicolon]) (afterFunction block) := by
  intro c
  refine .bind (follows_name c) (fun name d => ?_) (Ebnf.productive rfl)
  refine .bind (follows_parameters d) (fun params d => ?_) (Ebnf.productive rfl)
  refine .bind (follows_mark _ d) (fun _ d => ?_) (Ebnf.productive rfl)
  refine .bind (follows_typeName d) (fun result d => ?_) (Ebnf.productive rfl)
  refine .bind (follows_mark _ d) (fun _ d => ?_) (Ebnf.productive rfl)
  refine .bind (hblock d) (fun block d => ?_) (Ebnf.productive rfl)
  exact (follows_mark _ d).map fun _ d => ⟨_, d, rfl, rfl⟩

theorem follows_routines :
    RunsFollow (.many (.oneOf (.rule .procDecl) [.rule .funcDecl])) (routines block) := by
  intro c
  refine fix_induct
    (motive := fun _ c x => Follows (.many (.oneOf (.rule .procDecl) [.rule .funcDecl])) c x)
    (fun _ _ => .error _ (Ebnf.productive rfl)) (fun self hself _ c => ?_) () c
  rw [peek_bind]
  generalize hk : c.kind = k
  split
  · obtain ⟨t, r, n, rfl, ht⟩ := Cursor.exists_of_kind hk (by simp)
    rw [take_bind]
    refine .cons (.bind (follows_afterProcedure hblock _)
      (fun routine d => (hself () d).map fun _ d => ⟨_, d, rfl, rfl⟩) (Ebnf.productive rfl)) ?_
    rintro _ (_ | _ | ⟨hroutine, hrest⟩)
    exact .cons (.left (.rule (r := .procDecl) (.seq (.token (by simp [ht])) hroutine))) hrest
  · obtain ⟨t, r, n, rfl, ht⟩ := Cursor.exists_of_kind hk (by simp)
    rw [take_bind]
    refine .cons (.bind (follows_afterFunction hblock _)
      (fun routine d => (hself () d).map fun _ d => ⟨_, d, rfl, rfl⟩) (Ebnf.productive rfl)) ?_
    rintro _ (_ | _ | ⟨hroutine, hrest⟩)
    exact .cons (.right (.rule (r := .funcDecl) (.seq (.token (by simp [ht])) hroutine))) hrest
  · exact .ok _ .nil

theorem follows_blockWith : RunsFollow (.rule .block) (blockWith block) := by
  intro c
  -- the rule of the parser has no part for all declarations
  have hassoc : ∀ w, Derives (.inOrder (.opt (.inOrder (.word .var) [varLine, .many varLine]))
      [.many (.oneOf (.rule .procDecl) [.rule .funcDecl]), .rule .compoundStmt]) w →
      Derives (.rule .block) w := by
    intro w h
    obtain _ | _ | ⟨hdeclarations, hbody⟩ := h.assoc'
    exact .rule (r := .block) (.seq (.rule (r := .declarations) hdeclarations) hbody)
  refine Follows.imp ?_ hassoc
  refine .bind (follows_variableSection c) (fun vars d => ?_) (Ebnf.productive rfl)
  refine .bind (follows_routines hblock d) (fun routines d => ?_) (Ebnf.productive rfl)
  exact (follows_compound follows_statement d).map fun _ d => ⟨_, d, rfl, rfl⟩

omit hblock

/-- Blocks follow the grammar. -/
theorem follows_block : RunsFollow (.rule .block) Parse.block :=
  fun c => fix_induct (motive := fun _ c x => Follows (.rule .block) c x)
    (fun _ _ => .error _ (Rule.productive .block))
    (fun _ hself _ c => follows_blockWith (hself ()) c) () c

/-- Programs follow the grammar. -/
theorem follows_program : RunsFollow (.rule .program) program := by
  intro c
  refine .rule (r := .program) ?_
  refine .bind (follows_keyword _ c) (fun _ d => ?_) (Ebnf.productive rfl)
  refine .bind (follows_name d) (fun name d => ?_) (Ebnf.productive rfl)
  refine .bind (follows_mark _ d) (fun _ d => ?_) (Ebnf.productive rfl)
  refine .bind (follows_block d) (fun block d => ?_) (Ebnf.productive rfl)
  -- the test for the end takes nothing, so it may fail after a whole word
  refine (follows_mark _ d).check fun _ d => ⟨d, rfl, ?_⟩
  rw [peek_bind]
  split
  · exact .inl ⟨_, rfl⟩
  · exact .inr ⟨_, rfl⟩

end Parse

end MiniPascal
