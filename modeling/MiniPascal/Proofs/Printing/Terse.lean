import MiniPascal.Proofs.Printing.Reread

/-!
# Expressions with few parentheses

`Expr.terse` writes an expression with parentheses around an operand exactly where the operand's own
**level** binds less than the level that the operator wants there (`Level.fit`). These tokens can be
read as the expression at its own level, and no shorter list of tokens can be read as the same tree,
so no pair of parentheses is too many.
-/

namespace MiniPascal

open Token

namespace Level

/-- The number of levels that bind less, by which levels are compared: a higher rank binds more. -/
def rank : Level → Nat
  | .equality => 0
  | .comparison => 1
  | .term => 2
  | .factor => 3
  | .unary => 4
  | .primary => 5

theorem rank_le_rank_primary (level : Level) : level.rank ≤ Level.primary.rank := by
  cases level <;> decide

theorem rank_equality_le (level : Level) : Level.equality.rank ≤ level.rank :=
  Nat.zero_le _

theorem rank_le_rank_next (level : Level) : level.rank ≤ level.next.rank := by
  cases level <;> decide

/-- No level lies between one and the next. -/
theorem rank_next_le {required own : Level} (hne : required ≠ own)
    (hle : required.rank ≤ own.rank) : required.rank < required.next.rank ∧
      required.next.rank ≤ own.rank := by
  revert hne hle
  cases required <;> cases own <;> decide

/-- An operand where a level is required: in parentheses if its own level binds less, and otherwise
as it is. -/
def fit (required own : Level) (ts : List Token) : List Token :=
  if own.rank < required.rank then inParens ts else ts

variable {required own : Level}

theorem fit_of_lt (h : own.rank < required.rank) (ts : List Token) :
    required.fit own ts = inParens ts :=
  if_pos h

theorem fit_of_le (h : required.rank ≤ own.rank) (ts : List Token) : required.fit own ts = ts :=
  if_neg (Nat.not_lt.2 h)

end Level

/-! ### The levels of operators -/

/-- The level of an operator that stands between two operands. The operator `not` does not, so what
it is given here does not matter. -/
def Operator.level : Operator → Level
  | .equal | .notEqual => .equality
  | .less | .lessEqual | .greater | .greaterEqual => .comparison
  | .plus | .minus | .or => .term
  | .times | .divide | .and | .mod => .factor
  | .not => .primary

/-- The operators of a level have this level. -/
theorem Operator.level_of_mem {level : Level} {op : Operator} (h : op ∈ level.ops) :
    op.level = level := by
  revert op
  cases level <;> decide

namespace Token

/-- The level of the binary operator that a token stands for. What it is for other tokens does not
matter. -/
def level (op : Token) : Level :=
  match op.kind with
  | .operator op => op.level
  | _ => .primary

/-- The level that a unary operator requires of its operand: `not` wants a primary, and a sign
another unary expression. -/
def operandLevel (op : Token) : Level :=
  if op.kind = .operator .not then .primary else .unary

theorem level_of_mem {op : Token} {level : Level} {o : Operator} (hmem : o ∈ level.ops)
    (hop : op.kind = .operator o) : op.level = level := by
  rw [Token.level, hop]
  exact Operator.level_of_mem hmem

theorem operandLevel_of_not {op : Token} (hop : op.kind = .operator .not) :
    op.operandLevel = .primary :=
  if_pos hop

theorem operandLevel_of_sign {op : Token} {o : Operator} (hop : op.kind = .operator o)
    (hsign : o = .plus ∨ o = .minus) : op.operandLevel = .unary := by
  refine if_neg ?_
  rw [hop]
  obtain rfl | rfl := hsign
  · exact nofun
  · exact nofun

end Token

namespace Expr

/-- The level of an expression that is not in parentheses: that of its topmost operator, or the
tightest if there is none. -/
def level : Expr → Level
  | .literal .. | .name .. | .call .. => .primary
  | .unary .. => .unary
  | .binary _ _ op _ => op.level

mutual

/-- The tokens of an expression with as few parentheses as the levels allow: an operand is enclosed
only where its level binds less than its place requires. -/
def terse : Expr → List Token
  | .literal _ value => [value]
  | .name _ token => [token]
  | .unary _ op operand => op :: op.operandLevel.fit operand.level operand.terse
  | .binary _ left op right =>
    op.level.left.fit left.level left.terse ++ op :: op.level.next.fit right.level right.terse
  | .call _ callee args => callee :: inParens (withCommas (terseList args))

/-- The tokens of each of the expressions of a list, to which commas and parentheses are still to be
added. -/
def terseList : List Expr → List (List Token)
  | [] => []
  | expr :: rest => expr.terse :: terseList rest

end

end Expr

/-! ### Reading -/

/-- What is read at a level can be an operand wherever no tighter level is required. -/
theorem ReadsExpr.loosen {c c' : Cursor} {e : Expr} {required own : Level}
    (h : ReadsExpr c (.expr own e) c') (hle : required.rank ≤ own.rank) :
    ReadsExpr c (.expr required e) c' := by
  obtain rfl | hne := eq_or_ne required own
  · exact h
  · have hnext := Level.rank_next_le hne hle
    exact .tighter (h.loosen hnext.2)
termination_by own.rank - required.rank
decreasing_by omega

/-- What is read at its own level can be read, perhaps in parentheses, at any level. -/
theorem ReadsExpr.fit {own : Level} {ts : List Token} {n n' : ExprId} {e : Expr}
    (h : ∀ rest, ReadsExpr ⟨ts ++ rest, n⟩ (.expr own e) ⟨rest, n'⟩) (required : Level)
    (rest : List Token) :
    ReadsExpr ⟨required.fit own ts ++ rest, n⟩ (.expr required e) ⟨rest, n'⟩ := by
  obtain hlt | hle := Nat.lt_or_ge own.rank required.rank
  · rw [Level.fit_of_lt hlt]
    have hinner := h (spelled (.mark .closeParen) :: rest)
    exact (Expr.reads_inParens hinner.to_equality).loosen required.rank_le_rank_primary
  · rw [Level.fit_of_le hle]
    exact (h rest).loosen hle

namespace Expr

theorem reads_terseArgs {es : List Expr} {n : ExprId} (rest : List Token)
    (h : es ≠ [] → ∀ rest, ReadsExpr ⟨withCommas (terseList es) ++ rest, n⟩
      (.items (numberList es n).1) ⟨rest, (numberList es n).2⟩) :
    ReadsExpr ⟨inParens (withCommas (terseList es)) ++ rest, n⟩ (.args (numberList es n).1)
      ⟨rest, (numberList es n).2⟩ := by
  rw [inParens_append]
  cases es with
  | nil => exact .noArgs rfl rfl
  | cons e es => exact .args rfl (h (List.cons_ne_nil e es) _) rfl

mutual

/-- An expression with few parentheses can be read at its own level. -/
theorem reads_terse (e : Expr) (h : e.Formed) (n : ExprId) (rest : List Token) :
    ReadsExpr ⟨e.terse ++ rest, n⟩ (.expr e.level (e.number n).1) ⟨rest, (e.number n).2⟩ := by
  cases e with
  | literal _ value =>
    obtain ⟨ty, hty⟩ := h
    exact .literal hty
  | name _ token => exact .name h
  | unary _ op operand =>
    obtain ⟨hop, hoperand⟩ := h
    have hread := ReadsExpr.fit (reads_terse operand hoperand n) op.operandLevel rest
    obtain hop | hop | hop := hop
    · rw [operandLevel_of_sign hop (.inl rfl)] at hread
      rw [terse, operandLevel_of_sign hop (.inl rfl)]
      exact ReadsExpr.sign (c := ⟨rest, (operand.number n).2⟩) hop (.inl rfl) hread
    · rw [operandLevel_of_sign hop (.inr rfl)] at hread
      rw [terse, operandLevel_of_sign hop (.inr rfl)]
      exact ReadsExpr.sign (c := ⟨rest, (operand.number n).2⟩) hop (.inr rfl) hread
    · rw [operandLevel_of_not hop] at hread
      rw [terse, operandLevel_of_not hop]
      exact ReadsExpr.not (c := ⟨rest, (operand.number n).2⟩) hop hread
  | binary _ left op right =>
    obtain ⟨⟨level, o, hmem, hop⟩, hleft, hright⟩ := h
    have hreadLeft := ReadsExpr.fit (reads_terse left hleft n) level.left
    have hreadRight := ReadsExpr.fit (reads_terse right hright (left.number n).2) level.next rest
    have hlevel : op.level = level := level_of_mem hmem hop
    rw [terse, Expr.level, hlevel, List.append_assoc, List.cons_append]
    exact .binary (hreadLeft _) hop hmem hreadRight
  | call _ callee args =>
    obtain ⟨hcallee, hargs⟩ := h
    exact .call hcallee (reads_terseArgs rest fun hne => reads_terseItems args hargs hne n)

/-- Expressions with few parentheses can be read in a list. -/
theorem reads_terseItems (es : List Expr) (h : FormedList es) (hne : es ≠ []) (n : ExprId)
    (rest : List Token) :
    ReadsExpr ⟨withCommas (terseList es) ++ rest, n⟩ (.items (numberList es n).1)
      ⟨rest, (numberList es n).2⟩ := by
  cases es with
  | nil => exact absurd rfl hne
  | cons e es =>
    obtain ⟨he, hes⟩ := h
    have hread := reads_terse e he n
    cases es with
    | nil =>
      rw [terseList, terseList, withCommas_singleton]
      exact .last (hread rest).to_equality
    | cons e' es =>
      have hrest := reads_terseItems (e' :: es) hes (List.cons_ne_nil e' es)
      rw [terseList, terseList, withCommas_cons_cons, ← terseList, List.append_assoc,
        List.cons_append]
      exact .cons (hread _).to_equality rfl (hrest _ rest)

end

/-- An expression with few parentheses can be read as a whole expression. -/
theorem reads_terse_whole (e : Expr) (h : e.Formed) (n : ExprId) (rest : List Token) :
    ReadsExpr ⟨e.terse ++ rest, n⟩ (.expr .equality (e.number n).1) ⟨rest, (e.number n).2⟩ :=
  (reads_terse e h n rest).to_equality

end Expr

/-! ### Chains -/

/-- Operands with operators between them, grouped from the left: each operator has all before it as
its left operand. The ids are all zero. -/
def Expr.chained (first : Expr) (rest : List (Token × Expr)) : Expr :=
  rest.foldl (fun left x => .binary 0 left x.1 x.2) first

/-- Operators of one level with the operands behind them, each as it stands to the right of an
operator of the level. -/
def Level.links (level : Level) (rest : List (Token × Expr)) : List Token :=
  rest.flatMap fun x => x.1 :: level.next.fit x.2.level x.2.terse

/-- Where operators chain, a chain that is grouped from the left needs no parentheses for it. -/
theorem Expr.terse_chained {level : Level} (hlevel : level.left = level) {first : Expr}
    (hfirst : first.level = level) {rest : List (Token × Expr)}
    (hrest : ∀ x ∈ rest, x.1.level = level) :
    (first.chained rest).terse = first.terse ++ level.links rest := by
  induction rest generalizing first with
  | nil => exact (List.append_nil _).symm
  | cons x rest ih =>
    obtain ⟨hx, hrest⟩ := List.forall_mem_cons.1 hrest
    have hstep : (Expr.binary 0 first x.1 x.2).terse =
        first.terse ++ x.1 :: level.next.fit x.2.level x.2.terse := by
      rw [Expr.terse, hx, hlevel, hfirst, Level.fit_of_le (Nat.le_refl _)]
    have hlevel : (Expr.binary 0 first x.1 x.2).level = level := hx
    rw [Expr.chained, List.foldl_cons, ← Expr.chained, ih hlevel hrest, hstep, Level.links,
      Level.links, List.flatMap_cons, List.append_assoc]

/-! ### No parentheses are too many -/

theorem length_inParens (ts : List Token) : (inParens ts).length = ts.length + 2 := by
  simp [inParens]

theorem length_withCommas_cons_le (ts : List Token) (tss : List (List Token)) :
    (withCommas (ts :: tss)).length ≤ ts.length + 1 + (withCommas tss).length := by
  cases tss with
  | nil =>
    rw [withCommas_singleton]
    omega
  | cons us tss =>
    rw [withCommas_cons_cons, List.length_append, List.length_cons]
    omega

namespace Level

/-- Where a tighter level is required, an operand takes no fewer tokens. -/
theorem length_fit_le {required tighter : Level} (hle : required.rank ≤ tighter.rank)
    (own : Level) (ts : List Token) :
    (required.fit own ts).length ≤ (tighter.fit own ts).length := by
  unfold fit
  split_ifs with h h'
  · exact Nat.le_refl _
  · omega
  · rw [length_inParens]
    omega
  · exact Nat.le_refl _

/-- An operand takes two tokens more than the expression at most. -/
theorem length_fit_le_add_two (required own : Level) (ts : List Token) :
    (required.fit own ts).length ≤ ts.length + 2 := by
  unfold fit
  split_ifs
  · exact (length_inParens ts).le
  · omega

end Level

/-- The least number of tokens that can be read as a part of an expression: those of the terse form,
where its level is required. -/
def ExprPhrase.least : ExprPhrase → Nat
  | .expr level e => (level.fit e.level e.terse).length
  | .items es => (withCommas (Expr.terseList es)).length
  | .args es => (inParens (withCommas (Expr.terseList es))).length

/-- A reading takes as many tokens as the phrase needs. -/
theorem ReadsExpr.least_le {c c' : Cursor} {p : ExprPhrase} (h : ReadsExpr c p c') :
    p.least + c'.rest.length ≤ c.rest.length := by
  induction h with
  | literal | name =>
    simp only [ExprPhrase.least, Level.fit_of_le (Nat.le_refl _), Expr.level, Expr.terse,
      List.length_cons, List.length_nil]
    omega
  | call _ _ ih =>
    simp only [ExprPhrase.least, Level.fit_of_le (Nat.le_refl _), Expr.level, Expr.terse,
      List.length_cons] at ih ⊢
    omega
  | @paren _ _ _ _ _ _ e _ _ _ ih =>
    -- the parentheses of the reading are the only ones that the level could want
    have hle := Level.length_fit_le_add_two .primary e.level e.terse
    simp only [ExprPhrase.least, Level.fit_of_le (Level.rank_equality_le _),
      List.length_cons] at ih ⊢
    omega
  | sign kind isSign _ ih =>
    simp only [ExprPhrase.least, Level.fit_of_le (Nat.le_refl _), Expr.level, Expr.terse,
      List.length_cons, operandLevel_of_sign kind isSign] at ih ⊢
    omega
  | not kind _ ih =>
    simp only [ExprPhrase.least, Level.fit_of_le (Nat.le_refl _), Expr.level, Expr.terse,
      List.length_cons, operandLevel_of_not kind] at ih ⊢
    omega
  | @tighter level _ _ e _ ih =>
    have hle := Level.length_fit_le level.rank_le_rank_next e.level e.terse
    simp only [ExprPhrase.least] at ih ⊢
    omega
  | binary _ kind mem _ ih ih' =>
    simp only [ExprPhrase.least, Expr.level, Expr.terse, level_of_mem mem kind,
      Level.fit_of_le (Nat.le_refl _), List.length_append, List.length_cons] at ih ih' ⊢
    omega
  | last _ ih =>
    simp only [ExprPhrase.least, Level.fit_of_le (Level.rank_equality_le _), Expr.terseList,
      withCommas_singleton] at ih ⊢
    omega
  | @cons _ _ _ _ _ e es _ _ _ ih ih' =>
    have hle := length_withCommas_cons_le e.terse (Expr.terseList es)
    simp only [ExprPhrase.least, Level.fit_of_le (Level.rank_equality_le _), Expr.terseList,
      List.length_cons] at ih ih' ⊢
    omega
  | noArgs =>
    simp only [ExprPhrase.least, Expr.terseList, withCommas, List.intercalate_nil, length_inParens,
      List.length_cons, List.length_nil]
    omega
  | args _ _ _ ih =>
    simp only [ExprPhrase.least, length_inParens, List.length_cons] at ih ⊢
    omega

/-- No shorter list of tokens can be read as the same expression. -/
theorem Expr.length_terse_le {ts rest : List Token} {n n' : ExprId} {e : Expr}
    (h : ReadsExpr ⟨ts ++ rest, n⟩ (.expr .equality e) ⟨rest, n'⟩) :
    e.terse.length ≤ ts.length := by
  have hle := h.least_le
  simp only [ExprPhrase.least, Level.fit_of_le (Level.rank_equality_le _),
    List.length_append] at hle
  omega

end MiniPascal
