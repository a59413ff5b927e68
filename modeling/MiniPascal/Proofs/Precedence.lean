import MiniPascal.Proofs.Grammar.FirstError
import MiniPascal.Proofs.Printing.Terse

/-!
# Precedence and associativity

A parser that is given an expression with few parentheses as the value of an assignment returns the
expression (`parse_terse`), so the levels of operators decide what an operator takes as its
operands. Three consequences show how. Where operators **chain**, they group from the left. Where
they do not, a second operator is a failure, and the parser stops at it. And `not` binds tighter
than a sign.
-/

namespace MiniPascal

open Token

/-! ### Programs that are a body only -/

/-- The tokens of a program without declarations, given those of its body. They have no positions,
and the name stands where it must. -/
def inProgram (name : Token) (body : List Token) : List Token :=
  spelled (.keyword .program) :: name :: spelled (.mark .semicolon) ::
    (inBlock body ++ [spelled (.mark .period)])

/-- The tokens of a program that is one assignment, given those of the value. It is the smallest
program in which an expression is read as a whole. -/
def assigning (name target : Token) (value : List Token) : List Token :=
  inProgram name (target :: spelled (.mark .assign) :: value)

/-- The program that is one assignment: what `assigning` reads as if the value is an expression. -/
def assignment (name target : Token) (value : Expr) : Program :=
  ⟨name, [], [], [.assign target value]⟩

/-- A parser returns what can be read up to the end of its tokens. -/
theorem Parser.parse_of_reads {ts : List Token} {p : Program} {n : ExprId}
    (h : ReadsProgram ⟨ts, 0⟩ p ⟨[], n⟩) : (ofTokens ts).parse.1 = .ok p := by
  have hrun := Parse.program_of_reads h rfl
  -- the tokens follow the grammar, so none of them is for the end
  obtain ⟨us, hus⟩ : ∃ us, Derives (.rule .program) us ∧ us = ts.map Token.kind := by
    have hfollows := Parse.follows_program ⟨ts, 0⟩
    rw [hrun] at hfollows
    obtain ⟨w, hw, hd⟩ := hfollows
    exact ⟨w, hd, by simpa [Cursor.kinds] using hw.symm⟩
  have hts : ∀ t ∈ ts, t.kind ≠ .eof := fun t ht =>
    (hus.1.ne_eof_and_ne_error (hus.2 ▸ List.mem_map_of_mem ht)).1
  refine parse_eq_ok_iff.2 ⟨⟨[], n⟩, ?_⟩
  rw [tokens_ofTokens hts]
  exact hrun

/-- A parser returns the statements of a body that can be read. -/
theorem Parser.parse_inProgram {name : Token} (hname : name.kind = .ident) {body : List Token}
    {ss : List Stmt} {n : ExprId}
    (h : ∀ rest, (Cursor.mk rest n).kind = .keyword .end →
      ReadsStmt ⟨body ++ rest, 0⟩ (.items ss) ⟨rest, n⟩) :
    (ofTokens (inProgram name body)).parse.1 = .ok ⟨name, [], [], ss⟩ := by
  refine parse_of_reads (n := n) ?_
  rw [inProgram, inBlock_append]
  exact .program rfl hname rfl (.block .noVars .noRoutines (.block rfl (h _ rfl) rfl)) rfl

/-- A parser that is given an assignment returns the value that can be read. -/
theorem Parser.parse_assigning {name target : Token} (hname : name.kind = .ident)
    (htarget : target.kind = .ident) {value : List Token} {e : Expr} {n : ExprId}
    (h : ∀ rest, ReadsExpr ⟨value ++ rest, 0⟩ (.expr .equality e) ⟨rest, n⟩) :
    (ofTokens (assigning name target value)).parse.1 = .ok (assignment name target e) :=
  parse_inProgram hname fun rest _ => .last (.assign htarget rfl (h rest))

/-- A parser stops at the first token where the rule for programs fails, whatever comes behind. -/
theorem Parser.parse_error_of_append {ts : List Token} {t : Token} {n : ExprId} {cause : Cause}
    (h : Parse.program ⟨ts ++ [t], 0⟩ = .error cause ⟨[t], n⟩) (ht : t.kind ≠ .eof)
    (rest : List Token) :
    ∃ d, (ofTokens (ts ++ t :: rest)).parse.1 = .error d ∧ d.pos = t.pos ∧
      d.message = cause.message t := by
  obtain ⟨us, hus⟩ := @Parse.exists_completion ts ⟨[t], n⟩ 0 cause h
  have hts : ∀ u ∈ ts ++ [t], u.kind ≠ .eof := by
    intro u hu
    obtain hu | hu := List.mem_append.1 hu
    · exact (hus.ne_eof_and_ne_error (List.mem_map_of_mem (List.mem_append_left us hu))).1
    · rwa [List.mem_singleton.1 hu]
  exact parse_error_of_withEnd (c := ⟨[t], n⟩) hts h rfl (List.append_assoc ts (t :: rest) _)

namespace Parse

/-! ### Failures in the value of an assignment -/

theorem keyword_of_ne {w : Keyword} {c : Cursor} (h : c.kind ≠ .keyword w) :
    keyword w c = .error (.expected [.keyword w]) c :=
  bind_of_error (expect_of_ne h)

variable {name target : Token} {r : List Token} {n : ExprId}

/-- The rule for programs goes through the heading of a program without declarations. -/
theorem program_of_compound_error (hname : name.kind = .ident) {cause : Cause} {c : Cursor}
    (h : compound statement ⟨spelled (.keyword .begin) :: r, n⟩ = .error cause c) :
    program ⟨spelled (.keyword .program) :: name :: spelled (.mark .semicolon) ::
      spelled (.keyword .begin) :: r, n⟩ = .error cause c := by
  have hblock : block ⟨spelled (.keyword .begin) :: r, n⟩ = .error cause c := by
    obtain ⟨self, hfix, -⟩ := fix_apply (fun self (_ : Unit) => blockWith (self ())) ()
      ⟨spelled (.keyword .begin) :: r, n⟩
    have hvars : variableSection ⟨spelled (.keyword .begin) :: r, n⟩ =
        .ok [] ⟨spelled (.keyword .begin) :: r, n⟩ := rfl
    rw [block, hfix, blockWith, bind_of_ok hvars, bind_of_ok (routines_of_begin rfl),
      bind_of_error h]
  rw [program, bind_of_ok (keyword_cons rfl _ n), bind_of_ok (name_cons hname _ n),
    bind_of_ok (mark_cons rfl _ n), bind_of_error hblock]

/-- A value behind which neither a semicolon nor `end` comes is a failure behind it. -/
theorem compound_of_expression_ok (htarget : target.kind = .ident) {e : Expr} {d : Cursor}
    (h : expression ⟨r, n⟩ = .ok e d) (hsemicolon : d.kind ≠ .mark .semicolon)
    (hend : d.kind ≠ .keyword .end) :
    compound statement ⟨spelled (.keyword .begin) :: target :: spelled (.mark .assign) :: r, n⟩ =
      .error (.expected [.keyword .end]) d := by
  have hstatement : statement ⟨target :: spelled (.mark .assign) :: r, n⟩ =
      .ok (.assign target e) d := by
    obtain ⟨self, hfix, -⟩ := fix_apply (fun self (_ : Unit) => statementWith (self ())) ()
      ⟨target :: spelled (.mark .assign) :: r, n⟩
    rw [statement, hfix, statementWith_of_ident htarget]
    exact afterName_of_assign rfl h
  have hstatements : statements .end statement ⟨target :: spelled (.mark .assign) :: r, n⟩ =
      .ok [.assign target e] d := statements_of_ne (by simp [htarget]) hstatement hsemicolon
  rw [compound, bind_of_ok (keyword_cons rfl _ n), bind_of_ok hstatements,
    bind_of_error (keyword_of_ne hend)]

/-- A failure in a value is a failure of the statement. -/
theorem compound_of_expression_error (htarget : target.kind = .ident) {cause : Cause} {d : Cursor}
    (h : expression ⟨r, n⟩ = .error cause d) :
    compound statement ⟨spelled (.keyword .begin) :: target :: spelled (.mark .assign) :: r, n⟩ =
      .error cause d := by
  have hstatement : statement ⟨target :: spelled (.mark .assign) :: r, n⟩ = .error cause d := by
    obtain ⟨self, hfix, -⟩ := fix_apply (fun self (_ : Unit) => statementWith (self ())) ()
      ⟨target :: spelled (.mark .assign) :: r, n⟩
    rw [statement, hfix, statementWith_of_ident htarget, afterName, peek_bind, Cursor.kind_cons,
      kind_spelled]
    simp only [take_bind]
    exact bind_of_error h
  have hstatements : statements .end statement ⟨target :: spelled (.mark .assign) :: r, n⟩ =
      .error cause d := by
    rw [statements, fix_eq, peek_bind, if_neg (by simp [htarget])]
    exact bind_of_error hstatement
  rw [compound, bind_of_ok (keyword_cons rfl _ n), bind_of_error hstatements]

/-! ### Operators that do not chain -/

/-- Where operators do not chain, an expression ends behind the second operand. -/
theorem expression_of_pair {level : Level} (hlevel : level.left = level.next) {t u : Token}
    {op op' : Operator} {r r' : List Token} {n n' : ExprId} {c : Cursor} {a b : Expr}
    (hleft : ReadsExpr c (.expr level.next a) ⟨t :: r, n⟩) (ht : t.kind = .operator op)
    (hop : op ∈ level.ops) (hright : ReadsExpr ⟨r, n⟩ (.expr level.next b) ⟨u :: r', n'⟩)
    (hu : u.kind = .operator op') (hop' : op' ∈ level.ops) :
    expression c = .ok (.binary n' a t b) ⟨u :: r', n' + 1⟩ := by
  obtain ⟨self, hfix, hself⟩ := fix_apply (fun self (_ : Unit) => equality (self ())) () c
  have hbelow : TakesBelow c.rest.length (self ()) := by
    intro d f d' hlt hf hends
    rw [hself, if_pos hlt]
    exact expression_of_reads hf hends
  have hle := hleft.reaches.tail.length_le
  have ha := (returns_of_reads hbelow hleft).eq_ok (Nat.le_refl _) (by
    rw [Cursor.kind_cons, ht]
    exact Level.ends_next_of_mem_ops hop)
  have hb := (returns_of_reads hbelow hright).eq_ok hle (by
    rw [Cursor.kind_cons, hu]
    exact Level.ends_next_of_mem_ops hop')
  rw [expression, hfix]
  cases level with
  | equality => exact single_of_eq ha ht hop hb
  | comparison =>
    -- the second operator belongs to no looser level, either
    refine single_of_ne (single_of_eq ha ht hop hb) fun oq hoq => ?_
    rw [Cursor.kind_cons, hu]
    rintro ⟨⟩
    revert hoq hop'
    cases op' <;> decide
  | term | factor => cases hlevel
  | unary | primary => cases hop

/-- The operand of `not` cannot begin with an operator. -/
theorem expression_of_not_operator {t u : Token} {op : Operator} (ht : t.kind = .operator .not)
    (hu : u.kind = .operator op) (r : List Token) (n : ExprId) :
    expression ⟨t :: u :: r, n⟩ = .error .operand ⟨u :: r, n⟩ := by
  obtain ⟨self, hfix, -⟩ := fix_apply (fun self (_ : Unit) => equality (self ())) ()
    ⟨t :: u :: r, n⟩
  have hprimary : primary (self ()) ⟨u :: r, n⟩ = .error .operand ⟨u :: r, n⟩ := by
    rw [primary, peek_bind, Cursor.kind_cons, hu]
    rfl
  have hunary : unary (self ()) ⟨t :: u :: r, n⟩ = .error .operand ⟨u :: r, n⟩ := by
    rw [unary, fix_eq, peek_bind, Cursor.kind_cons, ht]
    simp only [take_bind]
    exact bind_of_error hprimary
  rw [expression, hfix]
  exact bind_of_error (bind_of_error (bind_of_error (bind_of_error hunary)))

end Parse

/-! ### Expressions with few parentheses -/

/-- An operator of a level with an operand to its right: one more link of a chain of operators that
are grouped from the left. -/
def Level.IsLink (level : Level) (x : Token × Expr) : Prop :=
  (∃ op ∈ level.ops, x.1.kind = .operator op) ∧ x.2.Formed

theorem Level.IsLink.level_eq {level : Level} {x : Token × Expr} (h : level.IsLink x) :
    x.1.level = level := by
  obtain ⟨⟨op, hmem, hop⟩, -⟩ := h
  exact level_of_mem hmem hop

theorem Expr.formed_chained {level : Level} {first : Expr} (hfirst : first.Formed)
    {rest : List (Token × Expr)} (hrest : ∀ x ∈ rest, level.IsLink x) :
    (first.chained rest).Formed := by
  induction rest generalizing first with
  | nil => exact hfirst
  | cons x rest ih =>
    obtain ⟨⟨hop, hx⟩, hrest⟩ := List.forall_mem_cons.1 hrest
    have hstep : (Expr.binary 0 first x.1 x.2).Formed := ⟨⟨level, hop⟩, hfirst, hx⟩
    exact ih hstep hrest

/-- A failure behind a part of the value is found there, whatever comes behind it. -/
theorem exists_error_of_compound_error {name target : Token} (hname : name.kind = .ident)
    {value : List Token} {t : Token} {n : ExprId} {cause : Cause} (ht : t.kind ≠ .eof)
    (h : Parse.compound Parse.statement ⟨spelled (.keyword .begin) :: target ::
      spelled (.mark .assign) :: (value ++ [t]), 0⟩ = .error cause ⟨[t], n⟩) (rest : List Token) :
    ∃ d, (Parser.ofTokens (assigning name target (value ++ t :: rest))).parse.1 = .error d ∧
      d.pos = t.pos := by
  have hrun : Parse.program ⟨(spelled (.keyword .program) :: name :: spelled (.mark .semicolon) ::
      spelled (.keyword .begin) :: target :: spelled (.mark .assign) :: value) ++ [t], 0⟩ =
      .error cause ⟨[t], n⟩ := Parse.program_of_compound_error hname h
  obtain ⟨d, hd, hpos, -⟩ := Parser.parse_error_of_append hrun ht
    (rest ++ [spelled (.keyword .end), spelled (.mark .period)])
  refine ⟨d, ?_, hpos⟩
  rw [← hd, assigning, inProgram, inBlock_append]
  simp only [List.cons_append, List.append_assoc]

section

variable {name target : Token} (hname : name.kind = .ident) (htarget : target.kind = .ident)
include hname htarget

/-- What is written with few parentheses is returned as the value of an assignment. -/
theorem parse_assigning_terse {e : Expr} (he : e.Formed) :
    (Parser.ofTokens (assigning name target e.terse)).parse.1 =
      .ok (assignment name target (e.number 0).1) :=
  Parser.parse_assigning hname htarget (e.reads_terse_whole he 0)

/-- Where operators chain, they group from the left. -/
theorem parse_assigning_chained {level : Level} (hlevel : level.left = level) {first : Expr}
    (hfirst : first.Formed) {x : Token × Expr} {rest : List (Token × Expr)}
    (hrest : ∀ y ∈ x :: rest, level.IsLink y) :
    (Parser.ofTokens (assigning name target
        (level.fit first.level first.terse ++ level.links (x :: rest)))).parse.1 =
      .ok (assignment name target ((first.chained (x :: rest)).number 0).1) := by
  have hx := (hrest x List.mem_cons_self).level_eq
  -- the first operation has the level itself, so the rest of the chain goes on with it
  have hterse : (first.chained (x :: rest)).terse =
      level.fit first.level first.terse ++ level.links (x :: rest) := by
    have hstep : (Expr.binary 0 first x.1 x.2).level = level := hx
    have hfold := Expr.terse_chained hlevel hstep fun y hy =>
      (hrest y (List.mem_cons_of_mem x hy)).level_eq
    rw [Expr.terse, hx, hlevel, List.append_assoc, List.cons_append] at hfold
    exact hfold
  rw [← hterse]
  exact parse_assigning_terse hname htarget (Expr.formed_chained hfirst hrest)

/-- Where operators do not chain, a parser stops at a second one. -/
theorem exists_error_of_second_operator {level : Level} (hlevel : level.left = level.next)
    {first : Expr} (hfirst : first.Formed) {x : Token × Expr} (hx : level.IsLink x) {t : Token}
    {op : Operator} (hop : op ∈ level.ops) (ht : t.kind = .operator op) (rest : List Token) :
    ∃ d, (Parser.ofTokens (assigning name target
        (level.next.fit first.level first.terse ++ level.links [x] ++ t :: rest))).parse.1 =
      .error d ∧ d.pos = t.pos := by
  obtain ⟨⟨oq, hmem, hoq⟩, hformed⟩ := hx
  have hleft := ReadsExpr.fit (first.reads_terse hfirst 0) level.next
  have hright := ReadsExpr.fit (x.2.reads_terse hformed (first.number 0).2) level.next [t]
  have hvalue := Parse.expression_of_pair hlevel (hleft _) hoq hmem hright ht hop
  have htokens : level.next.fit first.level first.terse ++ level.links [x] ++ [t] =
      level.next.fit first.level first.terse ++
        x.1 :: (level.next.fit x.2.level x.2.terse ++ [t]) := by
    rw [Level.links, List.flatMap_singleton, List.append_assoc, List.cons_append]
  rw [← htokens] at hvalue
  have hcompound := Parse.compound_of_expression_ok htarget hvalue (by simp [ht]) (by simp [ht])
  exact exists_error_of_compound_error hname (by simp [ht]) hcompound rest

/-- A parser stops at an operator behind `not`. -/
theorem exists_error_of_not_operator {t u : Token} {op : Operator} (ht : t.kind = .operator .not)
    (hu : u.kind = .operator op) (rest : List Token) :
    ∃ d, (Parser.ofTokens (assigning name target (t :: u :: rest))).parse.1 = .error d ∧
      d.pos = u.pos := by
  have hvalue := Parse.expression_of_not_operator ht hu [] 0
  have hcompound : Parse.compound Parse.statement ⟨spelled (.keyword .begin) :: target ::
      spelled (.mark .assign) :: ([t] ++ [u]), 0⟩ = .error .operand ⟨[u], 0⟩ :=
    Parse.compound_of_expression_error htarget hvalue
  exact exists_error_of_compound_error hname (by simp [hu]) hcompound rest

/-- A sign takes what `not` makes of a primary as its operand. -/
theorem parse_assigning_sign_not {sign t : Token} (hsign : sign.kind = .operator .minus)
    (ht : t.kind = .operator .not) {e : Expr} (he : e.Formed) :
    (Parser.ofTokens (assigning name target
        (sign :: t :: Level.primary.fit e.level e.terse))).parse.1 =
      .ok (assignment name target ((Expr.unary 0 sign (.unary 0 t e)).number 0).1) := by
  have hterse : (Expr.unary 0 sign (.unary 0 t e)).terse =
      sign :: t :: Level.primary.fit e.level e.terse := by
    rw [Expr.terse, operandLevel_of_sign hsign (.inr rfl), Expr.level,
      Level.fit_of_le (Nat.le_refl _), Expr.terse, operandLevel_of_not ht]
  rw [← hterse]
  exact parse_assigning_terse hname htarget ⟨.inr (.inl hsign), .inr (.inr ht), he⟩

end

/-- An expression that is written with the fewest parentheses its levels allow, as the value of an
assignment, is returned with its ids renumbered in post-order. So a chain of operators of one level
groups from the left, a second operator stops the parser at the two levels that do not chain, and
`not` binds tighter than a minus sign. -/
theorem parse_by_levels {name target : Token} (hname : name.kind = .ident)
    (htarget : target.kind = .ident) :
    (∀ e : Expr, e.Formed → (Parser.ofTokens (assigning name target e.terse)).parse.1 =
      .ok (assignment name target (e.number 0).1)) ∧
    (∀ (level : Level) (first : Expr) (x : Token × Expr) (rest : List (Token × Expr)),
      level = .term ∨ level = .factor → first.Formed → (∀ y ∈ x :: rest, level.IsLink y) →
      (Parser.ofTokens (assigning name target
          (level.fit first.level first.terse ++ level.links (x :: rest)))).parse.1 =
        .ok (assignment name target ((first.chained (x :: rest)).number 0).1)) ∧
    (∀ (level : Level) (first : Expr) (x : Token × Expr) (t : Token) (op : Operator)
      (rest : List Token), level = .equality ∨ level = .comparison → first.Formed →
      level.IsLink x → op ∈ level.ops → t.kind = .operator op →
      ∃ d, (Parser.ofTokens (assigning name target
          (level.next.fit first.level first.terse ++ level.links [x] ++ t :: rest))).parse.1 =
        .error d ∧ d.pos = t.pos) ∧
    (∀ (sign t : Token) (e : Expr), sign.kind = .operator .minus → t.kind = .operator .not →
      e.Formed → (Parser.ofTokens (assigning name target
          (sign :: t :: Level.primary.fit e.level e.terse))).parse.1 =
        .ok (assignment name target ((Expr.unary 0 sign (.unary 0 t e)).number 0).1) ∧
      ∀ rest, ∃ d, (Parser.ofTokens (assigning name target (t :: sign :: rest))).parse.1 =
        .error d ∧ d.pos = sign.pos) := by
  refine ⟨fun e => parse_assigning_terse hname htarget, ?_, ?_, ?_⟩
  · intro level first x rest hlevel hfirst hrest
    have hchains : level.left = level := by
      obtain rfl | rfl := hlevel
      · rfl
      · rfl
    exact parse_assigning_chained hname htarget hchains hfirst hrest
  · intro level first x t op rest hlevel hfirst hx hop ht
    have hpair : level.left = level.next := by
      obtain rfl | rfl := hlevel
      · rfl
      · rfl
    exact exists_error_of_second_operator hname htarget hpair hfirst hx hop ht rest
  · intro sign t e hsign ht he
    exact ⟨parse_assigning_sign_not hname htarget hsign ht he,
      exists_error_of_not_operator hname htarget ht hsign⟩

/-- The value `-(a + b) * not c = d`. -/
theorem parse_by_levels_mixed :
    let var (text : String) : Token := ⟨.ident, text, .start⟩
    let op (op : Operator) : Token := spelled (.operator op)
    let sum := Expr.binary 0 (.name 0 (var "a")) (op .plus) (.name 0 (var "b"))
    let e := Expr.binary 0 (.binary 0 (.unary 0 (op .minus) sum) (op .times)
      (.unary 0 (op .not) (.name 0 (var "c")))) (op .equal) (.name 0 (var "d"))
    (var "p").kind = .ident ∧ (var "x").kind = .ident ∧ e.Formed ∧
      e.terse = [op .minus, spelled (.mark .openParen), var "a", op .plus, var "b",
        spelled (.mark .closeParen), op .times, op .not, var "c", op .equal, var "d"] ∧
      (Parser.ofTokens (assigning (var "p") (var "x") e.terse)).parse.1 =
        .ok (assignment (var "p") (var "x") (e.number 0).1) := by
  intro var op sum e
  have hsum : sum.Formed := ⟨⟨.term, .plus, by decide, rfl⟩, rfl, rfl⟩
  have hproduct : ∃ level : Level, ∃ o ∈ level.ops, (op .times).kind = .operator o :=
    ⟨.factor, .times, by decide, rfl⟩
  have he : e.Formed := ⟨⟨.equality, .equal, by decide, rfl⟩,
    ⟨hproduct, ⟨.inr (.inl rfl), hsum⟩, .inr (.inr rfl), rfl⟩, rfl⟩
  obtain ⟨hparse, -⟩ := @parse_by_levels (var "p") (var "x") rfl rfl
  exact ⟨rfl, rfl, he, rfl, hparse e he⟩

end MiniPascal
