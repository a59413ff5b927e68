import MiniPascal.Parse.Program
import MiniPascal.Proofs.Reading.Program

/-!
# What a parser returns has been read

Every successful run of a rule ends at a cursor up to which the tokens can be read as what the rule
returned. The rules are taken in the order in which they are built from each other; a rule that
refers to itself is dealt with by `Parse.fix_eq_ok`.
-/

namespace MiniPascal

namespace Parse

/-- Whether the successful runs of an action that gives an expression are readings at a level.
Nothing is said about runs that fail. -/
def Gives (p : Parse Expr) (level : Level) : Prop :=
  ∀ c e c', p c = .ok e c' → ReadsExpr c (.expr level e) c'

/-! ### Expressions -/

theorem items_of_separated {p : Parse Expr} (hp : p.Gives .equality) {c c' : Cursor}
    {es : List Expr} (h : separated .comma p c = .ok es c') : ReadsExpr c (.items es) c' := by
  refine fix_eq_ok (motive := fun _ c es c' => ReadsExpr c (.items es) c')
    (fun self hself _ c es c' h => ?_) h
  obtain ⟨e, d, he, h⟩ := bind_eq_ok.1 h
  rw [peek_bind] at h
  split at h
  · next hk =>
    obtain ⟨t, r, n, rfl, ht⟩ := Cursor.exists_of_kind hk (by simp)
    rw [take_bind, bind_eq_ok] at h
    obtain ⟨es', d, hes, h⟩ := h
    cases h
    exact .cons (hp _ _ _ he) ht (hself _ _ _ _ hes)
  · cases h
    exact .last (hp _ _ _ he)

theorem args_of_parenthesized {p : Parse Expr} (hp : p.Gives .equality) {c c' : Cursor}
    {es : List Expr} (h : parenthesized p c = .ok es c') : ReadsExpr c (.args es) c' := by
  simp only [parenthesized, bind_eq_ok, peek_bind, mark_eq_ok] at h
  obtain ⟨-, d, ⟨a, rfl, ha⟩, h⟩ := h
  split at h
  · next hk =>
    obtain ⟨b, r, n, rfl, hb⟩ := Cursor.exists_of_kind hk (by simp)
    cases h
    exact .noArgs ha hb
  · simp only [bind_eq_ok, mark_eq_ok] at h
    obtain ⟨es', d', hes, -, d'', ⟨b, rfl, hb⟩, h⟩ := h
    cases h
    exact .args ha (items_of_separated hp hes) hb

theorem gives_primary {p : Parse Expr} (hp : p.Gives .equality) : (primary p).Gives .primary := by
  intro c e c' h
  rw [primary, peek_bind] at h
  generalize hk : c.kind = k at h
  -- a name, a literal, an opening parenthesis, or anything else
  split at h
  · obtain ⟨t, r, n, rfl, ht⟩ := Cursor.exists_of_kind hk (by simp)
    rw [take_bind, peek_bind] at h
    split at h
    · obtain ⟨es, d, hes, h⟩ := bind_eq_ok.1 h
      cases h
      exact .call ht (args_of_parenthesized hp hes)
    · cases h
      exact .name ht
  · obtain ⟨t, r, n, rfl, ht⟩ := Cursor.exists_of_kind hk (by simp)
    cases h
    exact .literal ht
  · obtain ⟨a, r, n, rfl, ha⟩ := Cursor.exists_of_kind hk (by simp)
    simp only [take_bind, bind_eq_ok, mark_eq_ok] at h
    obtain ⟨e', d, he, -, d', ⟨b, rfl, hb⟩, h⟩ := h
    cases h
    exact .paren ha (hp _ _ _ he) hb
  · cases h

theorem gives_unary {p : Parse Expr} (hp : p.Gives .equality) : (unary p).Gives .unary := by
  intro c e c' h
  refine fix_eq_ok (motive := fun _ c e c' => ReadsExpr c (.expr .unary e) c')
    (fun self hself _ c e c' h => ?_) h
  rw [peek_bind] at h
  generalize hk : c.kind = k at h
  -- the two signs, `not`, or a primary
  split at h
  · obtain ⟨t, r, n, rfl, ht⟩ := Cursor.exists_of_kind hk (by simp)
    rw [take_bind, bind_eq_ok] at h
    obtain ⟨e', d, he, h⟩ := h
    cases h
    exact .sign ht (.inl rfl) (hself _ _ _ _ he)
  · obtain ⟨t, r, n, rfl, ht⟩ := Cursor.exists_of_kind hk (by simp)
    rw [take_bind, bind_eq_ok] at h
    obtain ⟨e', d, he, h⟩ := h
    cases h
    exact .sign ht (.inr rfl) (hself _ _ _ _ he)
  · obtain ⟨t, r, n, rfl, ht⟩ := Cursor.exists_of_kind hk (by simp)
    rw [take_bind, bind_eq_ok] at h
    obtain ⟨e', d, he, h⟩ := h
    cases h
    exact .not ht (gives_primary hp _ _ _ he)
  · exact .tighter (gives_primary hp _ _ _ h)

theorem gives_chain (level : Level) (hleft : level.left = level) {p : Parse Expr}
    (hp : p.Gives level.next) : (chain level.ops p).Gives level := by
  -- the left operand grows from round to round and has been read from the same cursor throughout
  intro c e c' h
  obtain ⟨a, d, ha, h⟩ := bind_eq_ok.1 h
  refine fix_eq_ok (motive := fun a d e c' =>
    ReadsExpr c (.expr level a) d → ReadsExpr c (.expr level e) c')
    (fun self hself a d e c' h ha => ?_) h (.tighter (hp _ _ _ ha))
  rw [peek_bind] at h
  generalize hk : d.kind = k at h
  split at h
  · split at h
    · next op hop =>
      obtain ⟨t, r, n, rfl, ht⟩ := Cursor.exists_of_kind hk (by simp)
      rw [take_bind, bind_eq_ok] at h
      obtain ⟨b, d', hb, h⟩ := h
      exact hself _ _ _ _ h (.binary (by rwa [hleft]) ht hop (hp _ _ _ hb))
    · cases h
      exact ha
  · cases h
    exact ha

theorem gives_single (level : Level) (hleft : level.left = level.next) {p : Parse Expr}
    (hp : p.Gives level.next) : (single level.ops p).Gives level := by
  intro c e c' h
  obtain ⟨a, d, ha, h⟩ := bind_eq_ok.1 h
  rw [peek_bind] at h
  generalize hk : d.kind = k at h
  split at h
  · split at h
    · next op hop =>
      obtain ⟨t, r, n, rfl, ht⟩ := Cursor.exists_of_kind hk (by simp)
      rw [take_bind, bind_eq_ok] at h
      obtain ⟨b, d', hb, h⟩ := h
      cases h
      exact .binary (by rw [hleft]; exact hp _ _ _ ha) ht hop (hp _ _ _ hb)
    · cases h
      exact .tighter (hp _ _ _ ha)
  · cases h
    exact .tighter (hp _ _ _ ha)

theorem gives_equality {p : Parse Expr} (hp : p.Gives .equality) :
    (equality p).Gives .equality := by
  have hfactor : (factor p).Gives .factor := gives_chain .factor rfl (gives_unary hp)
  have hterm : (term p).Gives .term := gives_chain .term rfl hfactor
  have hcomparison : (comparison p).Gives .comparison :=
    gives_single .comparison rfl hterm
  exact gives_single .equality rfl hcomparison

/-- An expression that a parser returns has been read. -/
theorem gives_expression : expression.Gives .equality := by
  intro c e c' h
  exact fix_eq_ok (motive := fun _ c e c' => ReadsExpr c (.expr .equality e) c')
    (fun self hself _ => gives_equality fun c => hself () c) h

/-- The arguments that a parser returns have been read. -/
theorem reads_arguments {c c' : Cursor} {es : List Expr} (h : arguments c = .ok es c') :
    ReadsExpr c (.args es) c' :=
  args_of_parenthesized gives_expression h

/-! ### Statements -/

/-- A statement has been read, and no `else` that it could still take is left behind. The parser
always takes such an `else`. -/
def ReadsTo (c : Cursor) (s : Stmt) (c' : Cursor) : Prop :=
  ∃ o, ReadsStmt c (.stmt o s) c' ∧ (o = true → c'.kind ≠ .keyword .else)

/-- A body has been read, and no `else` that it could still take is left behind. It is `ReadsTo` for
the body of a branch or a loop. -/
def BodyReadsTo (c : Cursor) (ss : List Stmt) (c' : Cursor) : Prop :=
  ∃ o, ReadsStmt c (.body o ss) c' ∧ (o = true → c'.kind ≠ .keyword .else)

/-- Whether the successful runs of an action that gives a statement are readings, after which no
`else` is left that it could take. -/
def GivesStmt (p : Parse Stmt) : Prop :=
  ∀ c s c', p c = .ok s c' → ReadsTo c s c'

theorem ReadsTo.of_closed {c c' : Cursor} {s : Stmt} (h : ReadsStmt c (.stmt false s) c') :
    ReadsTo c s c' :=
  ⟨false, h, by simp⟩

theorem items_of_statements {stop : Keyword} {p : Parse Stmt} (hp : p.GivesStmt) {c c' : Cursor}
    {ss : List Stmt} (h : statements stop p c = .ok ss c') :
    ReadsStmt c (.items ss) c' ∧ (c.kind ≠ .keyword stop → ss ≠ []) := by
  refine fix_eq_ok
    (motive := fun _ c ss c' => ReadsStmt c (.items ss) c' ∧ (c.kind ≠ .keyword stop → ss ≠ []))
    (fun self hself _ c ss c' h => ?_) h
  rw [peek_bind] at h
  split at h
  · next hk =>
    cases h
    exact ⟨.nil, fun hne => absurd hk hne⟩
  · simp only [bind_eq_ok, peek_bind] at h
    obtain ⟨s, d, hs, h⟩ := h
    obtain ⟨o, hs, -⟩ := hp _ _ _ hs
    split at h
    · next hk =>
      obtain ⟨t, r, n, rfl, ht⟩ := Cursor.exists_of_kind hk (by simp)
      rw [take_bind, bind_eq_ok] at h
      obtain ⟨ss', d, hss, h⟩ := h
      cases h
      exact ⟨.cons hs ht (hself _ _ _ _ hss).1, fun _ => by simp⟩
    · cases h
      exact ⟨.last hs, fun _ => by simp⟩

theorem block_of_compound {p : Parse Stmt} (hp : p.GivesStmt) {c c' : Cursor} {ss : List Stmt}
    (h : compound p c = .ok ss c') : ReadsStmt c (.block ss) c' := by
  simp only [compound, bind_eq_ok, keyword_eq_ok] at h
  obtain ⟨-, d, ⟨a, rfl, ha⟩, ss', d', hss, -, d'', ⟨b, rfl, hb⟩, h⟩ := h
  cases h
  exact .block ha (items_of_statements hp hss).1 hb

theorem body_readsTo {p : Parse Stmt} (hp : p.GivesStmt) {c c' : Cursor} {ss : List Stmt}
    (h : body p c = .ok ss c') : BodyReadsTo c ss c' := by
  rw [body, peek_bind] at h
  split at h
  · exact ⟨false, .enclosed (block_of_compound hp h), by simp⟩
  · next hk =>
    obtain ⟨s, d, hs, h⟩ := bind_eq_ok.1 h
    cases h
    obtain ⟨o, hs, hopen⟩ := hp _ _ _ hs
    exact ⟨o, .single hs hk, hopen⟩

theorem direction_eq_ok {c c' : Cursor} {dir : Direction} :
    direction c = .ok dir c' ↔
      ∃ t, c = ⟨t :: c'.rest, c'.nextId⟩ ∧ t.kind = .keyword dir.keyword := by
  rw [direction, peek_bind]
  constructor
  · intro h
    cases hd : Direction.ofKind? c.kind with
    | none =>
      rw [hd] at h
      cases h
    | some d =>
      have hkind := Direction.ofKind?_eq_some_iff.1 hd
      obtain ⟨t, r, n, rfl, ht⟩ := Cursor.exists_of_kind hkind (by simp)
      rw [hd] at h
      cases h
      exact ⟨t, rfl, ht⟩
  · rintro ⟨t, rfl, ht⟩
    rw [Cursor.kind_cons, Direction.ofKind?_eq_some_iff.2 ht]
    rfl

theorem afterName_readsTo {t : Token} (ht : t.kind = .ident) {c c' : Cursor} {s : Stmt}
    (h : afterName t c = .ok s c') : ReadsTo ⟨t :: c.rest, c.nextId⟩ s c' := by
  rw [afterName, peek_bind] at h
  generalize hk : c.kind = k at h
  -- an assignment, a call with arguments, or one without
  split at h
  · obtain ⟨a, r, n, rfl, ha⟩ := Cursor.exists_of_kind hk (by simp)
    rw [take_bind, bind_eq_ok] at h
    obtain ⟨e, d, he, h⟩ := h
    cases h
    exact .of_closed (.assign ht ha (gives_expression _ _ _ he))
  · obtain ⟨es, d, hes, h⟩ := bind_eq_ok.1 h
    cases h
    exact .of_closed (.call ht (reads_arguments hes))
  · cases h
    exact .of_closed (.bareCall ht)

theorem afterIf_readsTo {p : Parse Stmt} (hp : p.GivesStmt) {a : Token}
    (ha : a.kind = .keyword .if) {c c' : Cursor} {s : Stmt} (h : afterIf p c = .ok s c') :
    ReadsTo ⟨a :: c.rest, c.nextId⟩ s c' := by
  simp only [afterIf, bind_eq_ok, peek_bind, keyword_eq_ok] at h
  obtain ⟨e, d, he, -, d', ⟨b, rfl, hb⟩, ss, d'', hss, h⟩ := h
  obtain ⟨o, hss, hopen⟩ := body_readsTo hp hss
  split at h
  · next hk =>
    -- the first branch stands before an `else`, so it is closed
    have hclosed : o = false := by
      cases o
      · rfl
      · exact absurd hk (hopen rfl)
    subst hclosed
    obtain ⟨x, r, n, rfl, hx⟩ := Cursor.exists_of_kind hk (by simp)
    rw [take_bind, bind_eq_ok] at h
    obtain ⟨ts, g, hts, h⟩ := h
    cases h
    obtain ⟨o', hts, hopen'⟩ := body_readsTo hp hts
    exact ⟨o', .ifElse ha (gives_expression _ _ _ he) hb hss hx hts, hopen'⟩
  · next hk =>
    cases h
    exact ⟨true, .ifThen ha (gives_expression _ _ _ he) hb hss, fun _ => hk⟩

theorem afterWhile_readsTo {p : Parse Stmt} (hp : p.GivesStmt) {a : Token}
    (ha : a.kind = .keyword .while) {c c' : Cursor} {s : Stmt} (h : afterWhile p c = .ok s c') :
    ReadsTo ⟨a :: c.rest, c.nextId⟩ s c' := by
  simp only [afterWhile, bind_eq_ok, keyword_eq_ok] at h
  obtain ⟨e, d, he, -, d', ⟨b, rfl, hb⟩, ss, d'', hss, h⟩ := h
  cases h
  obtain ⟨o, hss, hopen⟩ := body_readsTo hp hss
  exact ⟨o, .whileDo ha (gives_expression _ _ _ he) hb hss, hopen⟩

theorem afterRepeat_readsTo {p : Parse Stmt} (hp : p.GivesStmt) {a : Token}
    (ha : a.kind = .keyword .repeat) {c c' : Cursor} {s : Stmt} (h : afterRepeat p c = .ok s c') :
    ReadsTo ⟨a :: c.rest, c.nextId⟩ s c' := by
  rw [afterRepeat, peek_bind] at h
  split at h
  · cases h
  · next hk =>
    simp only [bind_eq_ok, keyword_eq_ok] at h
    obtain ⟨ss, d, hss, -, d', ⟨b, rfl, hb⟩, e, d'', he, h⟩ := h
    cases h
    -- `until` was not next, so the rule for statements has read one
    obtain ⟨hss, hne⟩ := items_of_statements hp hss
    exact .of_closed (.repeatUntil ha hss (hne hk) hb (gives_expression _ _ _ he))

theorem afterFor_readsTo {p : Parse Stmt} (hp : p.GivesStmt) {a : Token}
    (ha : a.kind = .keyword .for) {c c' : Cursor} {s : Stmt} (h : afterFor p c = .ok s c') :
    ReadsTo ⟨a :: c.rest, c.nextId⟩ s c' := by
  simp only [afterFor, bind_eq_ok, name_eq_ok, mark_eq_ok, keyword_eq_ok, direction_eq_ok] at h
  obtain ⟨t, d, ⟨rfl, ht⟩, -, d₁, ⟨b, hd, hb⟩, e, d₂, he, dir, d₃, ⟨g, rfl, hg⟩, f, d₄, hf, -, d₅,
    ⟨x, rfl, hx⟩, ss, d₆, hss, h⟩ := h
  subst hd
  cases h
  obtain ⟨o, hss, hopen⟩ := body_readsTo hp hss
  exact ⟨o, .forLoop ha ht hb (gives_expression _ _ _ he) hg (gives_expression _ _ _ hf) hx hss,
    hopen⟩

theorem givesStmt_statementWith {p : Parse Stmt} (hp : p.GivesStmt) :
    (statementWith p).GivesStmt := by
  intro c s c' h
  rw [statementWith, peek_bind] at h
  generalize hk : c.kind = k at h
  -- one case for each kind with which a statement may begin, in the order of the rule
  split at h
  · obtain ⟨t, r, n, rfl, ht⟩ := Cursor.exists_of_kind hk (by simp)
    rw [take_bind, bind_eq_ok] at h
    obtain ⟨es, d, hes, h⟩ := h
    cases h
    refine .of_closed (.write ?_ (reads_arguments hes))
    exact ht
  · obtain ⟨t, r, n, rfl, ht⟩ := Cursor.exists_of_kind hk (by simp)
    rw [take_bind, bind_eq_ok] at h
    obtain ⟨es, d, hes, h⟩ := h
    cases h
    refine .of_closed (.write ?_ (reads_arguments hes))
    exact ht
  · obtain ⟨t, r, n, rfl, ht⟩ := Cursor.exists_of_kind hk (by simp)
    simp only [take_bind, bind_eq_ok, mark_eq_ok, name_eq_ok] at h
    obtain ⟨-, d, ⟨b, hd, hb⟩, x, d', ⟨rfl, hx⟩, -, d'', ⟨g, rfl, hg⟩, h⟩ := h
    cases hd
    cases h
    exact .of_closed (.read ht hb hx hg)
  · obtain ⟨t, r, n, rfl, ht⟩ := Cursor.exists_of_kind hk (by simp)
    exact afterName_readsTo ht h
  · obtain ⟨t, r, n, rfl, ht⟩ := Cursor.exists_of_kind hk (by simp)
    exact afterIf_readsTo hp ht h
  · obtain ⟨t, r, n, rfl, ht⟩ := Cursor.exists_of_kind hk (by simp)
    exact afterWhile_readsTo hp ht h
  · obtain ⟨t, r, n, rfl, ht⟩ := Cursor.exists_of_kind hk (by simp)
    exact afterRepeat_readsTo hp ht h
  · obtain ⟨t, r, n, rfl, ht⟩ := Cursor.exists_of_kind hk (by simp)
    exact afterFor_readsTo hp ht h
  · obtain ⟨ss, d, hss, h⟩ := bind_eq_ok.1 h
    cases h
    exact .of_closed (.compound (block_of_compound hp hss))
  · cases h

/-- A statement that a parser returns has been read. -/
theorem givesStmt_statement : statement.GivesStmt := by
  intro c s c' h
  exact fix_eq_ok (motive := fun _ c s c' => ReadsTo c s c')
    (fun self hself _ => givesStmt_statementWith fun c => hself () c) h

/-! ### Declarations and blocks -/

/-- Whether the successful runs of an action that gives a block are readings. Nothing is said about
runs that fail. -/
def GivesBlock (p : Parse Block) : Prop :=
  ∀ c b c', p c = .ok b c' → ReadsBlock c (.block b) c'

theorem typeName_eq_ok {c c' : Cursor} {ty : Ty} :
    typeName c = .ok ty c' ↔ ∃ t, c = ⟨t :: c'.rest, c'.nextId⟩ ∧ t.kind = .typeName ty := by
  rw [typeName, peek_bind]
  constructor
  · intro h
    cases hty : Ty.ofKind? c.kind with
    | none =>
      rw [hty] at h
      cases h
    | some d =>
      have hkind := Ty.ofKind?_eq_some_iff.1 hty
      obtain ⟨t, r, n, rfl, ht⟩ := Cursor.exists_of_kind hkind (by simp)
      rw [hty] at h
      cases h
      exact ⟨t, rfl, ht⟩
  · rintro ⟨t, rfl, ht⟩
    rw [Cursor.kind_cons, Ty.ofKind?_eq_some_iff.2 ht]
    rfl

theorem names_of_separated {c c' : Cursor} {ts : List Token}
    (h : separated .comma name c = .ok ts c') : ReadsBlock c (.names ts) c' := by
  refine fix_eq_ok (motive := fun _ c ts c' => ReadsBlock c (.names ts) c')
    (fun self hself _ c ts c' h => ?_) h
  simp only [bind_eq_ok, peek_bind, name_eq_ok] at h
  obtain ⟨t, d, ⟨rfl, ht⟩, h⟩ := h
  split at h
  · next hk =>
    obtain ⟨a, r, n, rfl, ha⟩ := Cursor.exists_of_kind hk (by simp)
    rw [take_bind, bind_eq_ok] at h
    obtain ⟨us, d, hus, h⟩ := h
    cases h
    exact .consName ht ha (hself _ _ _ _ hus)
  · cases h
    exact .lastName ht

theorem group_of_declaration {c c' : Cursor} {ds : List VarDecl}
    (h : declaration c = .ok ds c') : ReadsBlock c (.group ds) c' := by
  simp only [declaration, bind_eq_ok, mark_eq_ok, typeName_eq_ok] at h
  obtain ⟨ts, d, hts, -, d', ⟨a, rfl, ha⟩, ty, d'', ⟨b, hd, hb⟩, h⟩ := h
  subst hd
  cases h
  exact .group (names_of_separated hts) ha hb

theorem groups_of_separated {c c' : Cursor} {dss : List (List VarDecl)}
    (h : separated .comma declaration c = .ok dss c') :
    ReadsBlock c (.groups dss.flatten) c' := by
  refine fix_eq_ok (motive := fun _ c dss c' => ReadsBlock c (.groups dss.flatten) c')
    (fun self hself _ c dss c' h => ?_) h
  simp only [bind_eq_ok, peek_bind] at h
  obtain ⟨ds, d, hds, h⟩ := h
  split at h
  · next hk =>
    obtain ⟨a, r, n, rfl, ha⟩ := Cursor.exists_of_kind hk (by simp)
    rw [take_bind, bind_eq_ok] at h
    obtain ⟨ess, d, hess, h⟩ := h
    cases h
    exact .consGroup (group_of_declaration hds) ha (hself _ _ _ _ hess)
  · cases h
    -- the groups of a parameter list are put together once it is read
    rw [List.flatten_singleton]
    exact .lastGroup (group_of_declaration hds)

theorem params_of_parameters {c c' : Cursor} {ds : List VarDecl}
    (h : parameters c = .ok ds c') : ReadsBlock c (.params ds) c' := by
  simp only [parameters, parenthesized, bind_eq_ok, peek_bind, mark_eq_ok] at h
  obtain ⟨dss, d, ⟨-, d', ⟨a, rfl, ha⟩, h⟩, hds⟩ := h
  cases hds
  split at h
  · next hk =>
    obtain ⟨b, r, n, rfl, hb⟩ := Cursor.exists_of_kind hk (by simp)
    cases h
    exact .noParams ha hb
  · simp only [bind_eq_ok, mark_eq_ok] at h
    obtain ⟨dss', d'', hdss, -, d₁, ⟨b, rfl, hb⟩, h⟩ := h
    cases h
    exact .params ha (groups_of_separated hdss) hb

theorem lines_of_varLines {c c' : Cursor} {ds : List VarDecl} (h : varLines c = .ok ds c') :
    ReadsBlock c (.lines ds) c' := by
  refine fix_eq_ok (motive := fun _ c ds c' => ReadsBlock c (.lines ds) c')
    (fun self hself _ c ds c' h => ?_) h
  simp only [bind_eq_ok, peek_bind, mark_eq_ok] at h
  obtain ⟨es, d, hes, -, d', ⟨a, rfl, ha⟩, h⟩ := h
  split at h
  · obtain ⟨fs, d, hfs, h⟩ := bind_eq_ok.1 h
    cases h
    exact .consLine (group_of_declaration hes) ha (hself _ _ _ _ hfs)
  · cases h
    exact .lastLine (group_of_declaration hes) ha

theorem vars_of_variableSection {c c' : Cursor} {ds : List VarDecl}
    (h : variableSection c = .ok ds c') : ReadsBlock c (.vars ds) c' := by
  rw [variableSection, peek_bind] at h
  split at h
  · next hk =>
    obtain ⟨a, r, n, rfl, ha⟩ := Cursor.exists_of_kind hk (by simp)
    exact .vars ha (lines_of_varLines h)
  · cases h
    exact .noVars

theorem routine_of_afterProcedure {p : Parse Block} (hp : p.GivesBlock) {a : Token}
    (ha : a.kind = .keyword .procedure) {c c' : Cursor} {r : Routine}
    (h : afterProcedure p c = .ok r c') :
    ReadsBlock ⟨a :: c.rest, c.nextId⟩ (.routine r) c' := by
  simp only [afterProcedure, bind_eq_ok, name_eq_ok, mark_eq_ok] at h
  obtain ⟨t, d, ⟨rfl, ht⟩, ds, d₁, hds, -, d₂, ⟨b, rfl, hb⟩, block, d₃, hblock, -, d₄,
    ⟨g, rfl, hg⟩, h⟩ := h
  cases h
  exact .procedure ha ht (params_of_parameters hds) hb (hp _ _ _ hblock) hg

theorem routine_of_afterFunction {p : Parse Block} (hp : p.GivesBlock) {a : Token}
    (ha : a.kind = .keyword .function) {c c' : Cursor} {r : Routine}
    (h : afterFunction p c = .ok r c') :
    ReadsBlock ⟨a :: c.rest, c.nextId⟩ (.routine r) c' := by
  simp only [afterFunction, bind_eq_ok, name_eq_ok, mark_eq_ok, typeName_eq_ok] at h
  obtain ⟨t, d, ⟨rfl, ht⟩, ds, d₁, hds, -, d₂, ⟨b, rfl, hb⟩, ty, d₃, ⟨y, hd, hy⟩, -, d₄,
    ⟨x, hd', hx⟩, block, d₅, hblock, -, d₆, ⟨g, rfl, hg⟩, h⟩ := h
  subst hd hd'
  cases h
  exact .function ha ht (params_of_parameters hds) hb hy hx (hp _ _ _ hblock) hg

theorem routines_of_routines {p : Parse Block} (hp : p.GivesBlock) {c c' : Cursor}
    {rs : List Routine} (h : routines p c = .ok rs c') : ReadsBlock c (.routines rs) c' := by
  refine fix_eq_ok (motive := fun _ c rs c' => ReadsBlock c (.routines rs) c')
    (fun self hself _ c rs c' h => ?_) h
  rw [peek_bind] at h
  generalize hk : c.kind = k at h
  split at h
  · obtain ⟨a, r, n, rfl, ha⟩ := Cursor.exists_of_kind hk (by simp)
    simp only [take_bind, bind_eq_ok] at h
    obtain ⟨routine, d, hroutine, rs', d', hrs, h⟩ := h
    cases h
    exact .consRoutine (routine_of_afterProcedure hp ha hroutine) (hself _ _ _ _ hrs)
  · obtain ⟨a, r, n, rfl, ha⟩ := Cursor.exists_of_kind hk (by simp)
    simp only [take_bind, bind_eq_ok] at h
    obtain ⟨routine, d, hroutine, rs', d', hrs, h⟩ := h
    cases h
    exact .consRoutine (routine_of_afterFunction hp ha hroutine) (hself _ _ _ _ hrs)
  · cases h
    exact .noRoutines

/-- A block that a parser returns has been read. -/
theorem givesBlock_block : block.GivesBlock := by
  intro c b c' h
  refine fix_eq_ok (motive := fun _ c b c' => ReadsBlock c (.block b) c')
    (fun self hself _ c b c' h => ?_) h
  have hself : (self ()).GivesBlock := fun c => hself () c
  simp only [blockWith, bind_eq_ok] at h
  obtain ⟨ds, d, hds, rs, d', hrs, ss, d'', hss, h⟩ := h
  cases h
  exact .block (vars_of_variableSection hds) (routines_of_routines hself hrs)
    (block_of_compound givesStmt_statement hss)

/-- A program that a parser returns has been read, and nothing is left. -/
theorem readsProgram_of_program {c c' : Cursor} {p : Program} (h : program c = .ok p c') :
    ReadsProgram c p c' ∧ c'.kind = .eof := by
  simp only [program, bind_eq_ok, peek_bind, name_eq_ok, keyword_eq_ok, mark_eq_ok] at h
  obtain ⟨-, d, ⟨a, rfl, ha⟩, t, d₁, ⟨hd, ht⟩, -, d₂, ⟨b, rfl, hb⟩, block, d₃, hblock, -, d₄,
    ⟨g, rfl, hg⟩, h⟩ := h
  subst hd
  split at h
  · next hk =>
    cases h
    exact ⟨.program ha ht hb (givesBlock_block _ _ _ hblock) hg, hk⟩
  · cases h

end Parse

end MiniPascal
