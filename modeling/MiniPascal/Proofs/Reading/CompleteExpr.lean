import MiniPascal.Parse.Expr
import MiniPascal.Proofs.Reading.Expr

/-!
# What can be read as an expression is returned

A rule for expressions returns whatever can be read at its level, if the token behind it does not
go on. The proof follows the reading. Recursion through parentheses only goes to places where
fewer tokens are ahead, so the rule for whole expressions is first taken to be right below a bound
(`TakesBelow`), and the bound is removed at the end.

A chain of operators is not returned by one run but collected in a loop. What is shown of a reading
at such a level is that the rule comes to the state of its loop in which all of it is collected.
-/

namespace MiniPascal

namespace Parse

/-- Whether an action returns every expression that can be read where fewer than `m` tokens are
ahead. It is what the recursion of the rules may rely on. -/
def TakesBelow (m : Nat) (p : Parse Expr) : Prop :=
  ∀ c e c', c.rest.length < m → ReadsExpr c (.expr .equality e) c' →
    Level.equality.Ends c'.kind → p c = .ok e c'

/-- The rule of a level, given the rule for expressions in parentheses. The levels are data here, so
that one statement is about all rules. -/
def ofLevel (p : Parse Expr) : Level → Parse Expr
  | .equality => equality p
  | .comparison => comparison p
  | .term => term p
  | .factor => factor p
  | .unary => unary p
  | .primary => primary p

/-! ### Rules at a cursor -/

theorem chainRest_of_ne {ops : List Operator} {q : Parse Expr} {e : Expr} {c : Cursor}
    (h : ∀ op ∈ ops, c.kind ≠ .operator op) : chainRest ops q e c = .ok e c := by
  rw [chainRest, fix_eq, peek_bind]
  generalize hk : c.kind = k at h
  split
  · next op => rw [if_neg fun hop => h op hop rfl]; rfl
  · rfl

theorem chainRest_cons {ops : List Operator} {q : Parse Expr} {a b : Expr} {t : Token}
    {op : Operator} {r : List Token} {n : ExprId} {d : Cursor} (ht : t.kind = .operator op)
    (hop : op ∈ ops) (hb : q ⟨r, n⟩ = .ok b d) (hle : d.rest.length ≤ r.length) :
    chainRest ops q a ⟨t :: r, n⟩ =
      chainRest ops q (.binary d.nextId a t b) ⟨d.rest, d.nextId + 1⟩ := by
  rw [chainRest, fix_eq, peek_bind, Cursor.kind_cons, ht]
  simp only [if_pos hop]
  rw [take_bind, bind_of_ok hb]
  exact if_pos (Nat.lt_succ_of_le hle)

theorem single_of_ne {ops : List Operator} {q : Parse Expr} {e : Expr} {c d : Cursor}
    (he : q c = .ok e d) (h : ∀ op ∈ ops, d.kind ≠ .operator op) :
    single ops q c = .ok e d := by
  rw [single, bind_of_ok he, peek_bind]
  generalize hk : d.kind = k at h
  split
  · next op => rw [if_neg fun hop => h op hop rfl]; rfl
  · rfl

theorem single_of_eq {ops : List Operator} {q : Parse Expr} {a b : Expr} {t : Token}
    {op : Operator} {r : List Token} {n : ExprId} {c d : Cursor} (ha : q c = .ok a ⟨t :: r, n⟩)
    (ht : t.kind = .operator op) (hop : op ∈ ops) (hb : q ⟨r, n⟩ = .ok b d) :
    single ops q c = .ok (.binary d.nextId a t b) ⟨d.rest, d.nextId + 1⟩ := by
  rw [single, bind_of_ok ha, peek_bind, Cursor.kind_cons, ht]
  simp only [if_pos hop]
  rw [take_bind, bind_of_ok hb]
  rfl

theorem unary_of_sign {p : Parse Expr} {t : Token} {op : Operator} {r : List Token} {n : ExprId}
    {e : Expr} {d : Cursor} (ht : t.kind = .operator op) (hop : op = .plus ∨ op = .minus)
    (he : unary p ⟨r, n⟩ = .ok e d) :
    unary p ⟨t :: r, n⟩ = .ok (.unary d.nextId t e) ⟨d.rest, d.nextId + 1⟩ := by
  have hlt : r.length < (t :: r).length := Nat.lt_succ_self _
  rw [unary, fix_eq, peek_bind, Cursor.kind_cons, ht]
  rcases hop with rfl | rfl
  · simp only [take_bind]
    exact bind_of_ok ((if_pos hlt).trans he)
  · simp only [take_bind]
    exact bind_of_ok ((if_pos hlt).trans he)

theorem unary_of_not {p : Parse Expr} {t : Token} {r : List Token} {n : ExprId} {e : Expr}
    {d : Cursor} (ht : t.kind = .operator .not) (he : primary p ⟨r, n⟩ = .ok e d) :
    unary p ⟨t :: r, n⟩ = .ok (.unary d.nextId t e) ⟨d.rest, d.nextId + 1⟩ := by
  rw [unary, fix_eq, peek_bind, Cursor.kind_cons, ht]
  exact bind_of_ok he

theorem unary_of_ne {p : Parse Expr} {c : Cursor} (h : ∀ op, c.kind ≠ .operator op) :
    unary p c = primary p c := by
  rw [unary, fix_eq, peek_bind]
  generalize hk : c.kind = k at h
  split
  · exact absurd rfl (h _)
  · exact absurd rfl (h _)
  · exact absurd rfl (h _)
  · rfl

theorem primary_of_literal {p : Parse Expr} {t : Token} {ty : Ty} (ht : t.kind = .literal ty)
    (r : List Token) (n : ExprId) :
    primary p ⟨t :: r, n⟩ = .ok (.literal n t) ⟨r, n + 1⟩ := by
  rw [primary, peek_bind, Cursor.kind_cons, ht]
  rfl

theorem primary_of_name {p : Parse Expr} {t : Token} (ht : t.kind = .ident) {r : List Token}
    {n : ExprId} (h : (Cursor.mk r n).kind ≠ .mark .openParen) :
    primary p ⟨t :: r, n⟩ = .ok (.name n t) ⟨r, n + 1⟩ := by
  rw [primary, peek_bind, Cursor.kind_cons, ht]
  simp only [take_bind, peek_bind, if_neg h]
  rfl

theorem primary_of_call {p : Parse Expr} {t : Token} (ht : t.kind = .ident) {r : List Token}
    {n : ExprId} (h : (Cursor.mk r n).kind = .mark .openParen) {es : List Expr} {d : Cursor}
    (hes : parenthesized p ⟨r, n⟩ = .ok es d) :
    primary p ⟨t :: r, n⟩ = .ok (.call d.nextId t es) ⟨d.rest, d.nextId + 1⟩ := by
  rw [primary, peek_bind, Cursor.kind_cons, ht]
  simp only [take_bind, peek_bind, if_pos h]
  exact bind_of_ok hes

theorem primary_of_paren {p : Parse Expr} {a b : Token} {r r' : List Token} {n n' : ExprId}
    {e : Expr} (ha : a.kind = .mark .openParen) (he : p ⟨r, n⟩ = .ok e ⟨b :: r', n'⟩)
    (hb : b.kind = .mark .closeParen) : primary p ⟨a :: r, n⟩ = .ok e ⟨r', n'⟩ := by
  rw [primary, peek_bind, Cursor.kind_cons, ha]
  simp only [take_bind, bind_of_ok he, bind_of_ok (mark_cons hb r' n')]
  rfl

/-! ### Readings at a cursor -/

/-- What is shown of a reading where at most `m` tokens are ahead. At the two levels whose operators
chain, the rule comes to the state of its loop in which the whole expression is collected. -/
def Returns (m : Nat) (p : Parse Expr) (c : Cursor) : ExprPhrase → Cursor → Prop
  | .expr .term e, c' => c.rest.length ≤ m → Level.factor.Ends c'.kind →
    term p c = chainRest (Level.ops .term) (factor p) e c'
  | .expr .factor e, c' => c.rest.length ≤ m → Level.unary.Ends c'.kind →
    factor p c = chainRest (Level.ops .factor) (unary p) e c'
  | .expr level e, c' => c.rest.length ≤ m → level.Ends c'.kind → ofLevel p level c = .ok e c'
  | .items es, c' => c.rest.length < m → c'.kind ≠ .mark .comma → Level.equality.Ends c'.kind →
    separated .comma p c = .ok es c'
  | .args es, c' => c.rest.length ≤ m → parenthesized p c = .ok es c'

/-- At every level, what has been collected is returned where no operator of the level follows. -/
theorem Returns.eq_ok {m : Nat} {p : Parse Expr} {level : Level} {c c' : Cursor} {e : Expr}
    (h : Returns m p c (.expr level e) c') (hm : c.rest.length ≤ m) (hends : level.Ends c'.kind) :
    ofLevel p level c = .ok e c' := by
  have hne : ∀ op ∈ level.ops, c'.kind ≠ .operator op := fun op hop =>
    hends.2 op (Level.mem_binding_of_mem_ops hop)
  cases level with
  | term => exact (h hm hends.next).trans (chainRest_of_ne hne)
  | factor => exact (h hm hends.next).trans (chainRest_of_ne hne)
  | equality | comparison | unary | primary => exact h hm hends

/-- What is read at the next level is returned or collected at the level itself. -/
theorem Returns.tighter {m : Nat} {p : Parse Expr} {level : Level} {c c' : Cursor} {e : Expr}
    (hread : ReadsExpr c (.expr level.next e) c') (h : Returns m p c (.expr level.next e) c') :
    Returns m p c (.expr level e) c' := by
  cases level with
  | term => exact fun hm hends => bind_of_ok (h.eq_ok hm hends)
  | factor => exact fun hm hends => bind_of_ok (h.eq_ok hm hends)
  | equality =>
    exact fun hm hends => single_of_ne (h.eq_ok hm hends.next) fun op hop =>
      hends.2 op (Level.mem_binding_of_mem_ops hop)
  | comparison =>
    exact fun hm hends => single_of_ne (h.eq_ok hm hends.next) fun op hop =>
      hends.2 op (Level.mem_binding_of_mem_ops hop)
  | unary =>
    intro hm hends
    exact (unary_of_ne hread.kind_ne_operator).trans (h.eq_ok hm hends.next)
  | primary => exact h

/-- An operator between two operands is returned or collected. -/
theorem Returns.binary {m : Nat} {p : Parse Expr} {level : Level} {t : Token} {op : Operator}
    {r : List Token} {n : ExprId} {c c' : Cursor} {a b : Expr}
    (hleft : Returns m p c (.expr level.left a) ⟨t :: r, n⟩)
    (hlt : (Cursor.mk (t :: r) n).rest.length < c.rest.length)
    (ht : t.kind = .operator op) (hop : op ∈ level.ops)
    (hread : ReadsExpr ⟨r, n⟩ (.expr level.next b) c')
    (hright : Returns m p ⟨r, n⟩ (.expr level.next b) c') :
    Returns m p c (.expr level (.binary c'.nextId a t b)) ⟨c'.rest, c'.nextId + 1⟩ := by
  have hle : c'.rest.length ≤ r.length := hread.reaches.length_le
  have hr : c.rest.length ≤ m → r.length ≤ m := by
    simp only [List.length_cons] at hlt
    omega
  -- the left operand ends before the operator
  have hends : level.next.Ends (Cursor.mk (t :: r) n).kind := by
    rw [Cursor.kind_cons, ht]
    exact Level.ends_next_of_mem_ops hop
  cases level with
  | term =>
    exact fun hm hends' => (hleft hm hends).trans
      (chainRest_cons ht hop (hright.eq_ok (hr hm) hends') hle)
  | factor =>
    exact fun hm hends' => (hleft hm hends).trans
      (chainRest_cons ht hop (hright.eq_ok (hr hm) hends') hle)
  | equality =>
    exact fun hm hends' => single_of_eq (hleft.eq_ok hm hends) ht hop
      (hright.eq_ok (hr hm) hends'.next)
  | comparison =>
    exact fun hm hends' => single_of_eq (hleft.eq_ok hm hends) ht hop
      (hright.eq_ok (hr hm) hends'.next)
  | unary | primary => cases hop

/-- The closing parenthesis ends every expression and every list of arguments. -/
private theorem ends_closeParen : Level.equality.Ends (.mark .closeParen) := by
  decide

/-- The comma ends every expression. -/
private theorem ends_comma : Level.equality.Ends (.mark .comma) := by
  decide

/-- Every reading is returned, if the rule for what is in parentheses is right below the bound. -/
theorem returns_of_reads {m : Nat} {p : Parse Expr} (hp : TakesBelow m p) {c c' : Cursor}
    {phrase : ExprPhrase} (h : ReadsExpr c phrase c') : Returns m p c phrase c' := by
  induction h with
  | literal kind => exact fun _ _ => primary_of_literal kind _ _
  | name kind => exact fun _ hends => primary_of_name kind hends.1
  | call kind args ih =>
    intro hm _
    obtain ⟨hopen, hargs⟩ := args.opens, ih (Nat.le_of_succ_le hm)
    exact primary_of_call kind hopen hargs
  | paren opening inner closing =>
    intro hm _
    refine primary_of_paren opening (hp _ _ _ hm inner ?_) closing
    rw [Cursor.kind_cons, closing]
    exact ends_closeParen
  | sign kind isSign _ ih =>
    exact fun hm hends => unary_of_sign kind isSign (ih (Nat.le_of_succ_le hm) hends)
  | not kind _ ih =>
    exact fun hm hends => unary_of_not kind (ih (Nat.le_of_succ_le hm) hends.next)
  | tighter operand ih => exact .tighter operand ih
  | binary left kind mem right ih ih' => exact .binary ih left.length_lt kind mem right ih'
  | last item => exact fun hm hne hends => separated_of_ne (hp _ _ _ hm item hends) hne
  | cons item comma rest _ ih =>
    intro hm hne hends
    -- the first item takes a token at least, so the others are below the bound, too
    have hlt := item.length_lt
    refine separated_of_eq (hp _ _ _ hm item ?_) comma (Nat.lt_of_succ_lt hlt)
      (ih (Nat.lt_trans (Nat.lt_of_succ_lt hlt) hm) hne hends)
    rw [Cursor.kind_cons, comma]
    exact ends_comma
  | noArgs opening closing => exact fun _ => parenthesized_nil opening closing _ _
  | args opening inner closing ih =>
    intro hm
    refine parenthesized_cons opening ?_ (ih hm ?_ ?_) closing
    · -- there is an item, and no item begins with the closing parenthesis
      intro hk
      have hbegins := inner.beginsExpr
      rw [hk] at hbegins
      cases hbegins
    · rw [Cursor.kind_cons, closing]
      simp
    · rw [Cursor.kind_cons, closing]
      exact ends_closeParen

/-! ### Whole expressions -/

/-- What can be read as an expression is returned, if the token behind it does not go on. -/
theorem expression_of_reads {c c' : Cursor} {e : Expr} (h : ReadsExpr c (.expr .equality e) c')
    (hends : Level.equality.Ends c'.kind) : expression c = .ok e c' := by
  refine fix_takes (motive := fun _ c e c' => ReadsExpr c (.expr .equality e) c' ∧
    Level.equality.Ends c'.kind) (fun self _ c e c' hself h => ?_) ⟨h, hends⟩
  have hbelow : TakesBelow c.rest.length (self ()) :=
    fun d f d' hlt hf hends => hself () d f d' hlt ⟨hf, hends⟩
  exact (returns_of_reads hbelow h.1).eq_ok (Nat.le_refl _) h.2

/-- What can be read as arguments is returned. -/
theorem arguments_of_reads {c c' : Cursor} {es : List Expr} (h : ReadsExpr c (.args es) c') :
    arguments c = .ok es c' := by
  have hbelow : TakesBelow c.rest.length expression :=
    fun _ _ _ _ he hends => expression_of_reads he hends
  exact returns_of_reads hbelow h (Nat.le_refl _)

end Parse

end MiniPascal
