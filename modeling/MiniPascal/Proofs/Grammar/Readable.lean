import Mathlib.Logic.Relation
import MiniPascal.Proofs.Grammar.Ebnf
import MiniPascal.Proofs.Reading.Program

/-!
# What can be derived can be read

A rule of the grammar can be understood as a relation between lists of tokens: the second list is
an end of the first, and the tokens before it are of the form that the rule describes. Whatever
relations are assigned to the rules, if they are closed under the right-hand sides then they hold
around every word that can be derived (`Derives.spans`). Readings are closed in this sense.

The decisive case is an `else` behind a statement that is open. A derivation may leave it to an
outer conditional statement; there is then another reading of the same tokens, in which the
innermost one takes it (`ReadsStmt.take_else`).
-/

namespace MiniPascal

/-- What the tokens between two lists have to be for a right-hand side, if a relation is assigned to
every rule. The second list is what is left of the first. -/
def Ebnf.Spans (R : Rule → List Token → List Token → Prop) : Ebnf → List Token → List Token → Prop
  | .token ks => fun ts ts' => ∃ t, ts = t :: ts' ∧ t.kind ∈ ks
  | .rule r => R r
  | .seq a b => fun ts ts' => ∃ us, a.Spans R ts us ∧ b.Spans R us ts'
  | .alt a b => fun ts ts' => a.Spans R ts ts' ∨ b.Spans R ts ts'
  | .opt a => fun ts ts' => ts = ts' ∨ a.Spans R ts ts'
  | .many a => Relation.ReflTransGen (a.Spans R)

/-- Relations that are closed under the right-hand sides of the rules hold around every word that
can be derived. -/
theorem Derives.spans {R : Rule → List Token → List Token → Prop}
    (hR : ∀ r ts ts', r.body.Spans R ts ts' → R r ts ts') {e : Ebnf} {w : List Kind}
    (h : Derives e w) {ts : List Token} {v : List Kind} (hts : ts.map Token.kind = w ++ v) :
    ∃ ts', e.Spans R ts ts' ∧ ts'.map Token.kind = v := by
  -- along the derivation, for every list whose kinds begin with the word
  induction h generalizing ts v with
  | token mem =>
    obtain _ | ⟨t, ts⟩ := ts
    · cases hts
    · obtain ⟨rfl, hv⟩ := List.cons.inj hts
      exact ⟨ts, ⟨t, rfl, mem⟩, hv⟩
  | rule _ ih =>
    obtain ⟨ts', hspan, hv⟩ := ih hts
    exact ⟨ts', hR _ _ _ hspan, hv⟩
  | seq _ _ ih ih' =>
    rw [List.append_assoc] at hts
    obtain ⟨us, hspan, hus⟩ := ih hts
    obtain ⟨ts', hspan', hv⟩ := ih' hus
    exact ⟨ts', ⟨us, hspan, hspan'⟩, hv⟩
  | left _ ih =>
    obtain ⟨ts', hspan, hv⟩ := ih hts
    exact ⟨ts', .inl hspan, hv⟩
  | right _ ih =>
    obtain ⟨ts', hspan, hv⟩ := ih hts
    exact ⟨ts', .inr hspan, hv⟩
  | none => exact ⟨ts, .inl rfl, hts⟩
  | some _ ih =>
    obtain ⟨ts', hspan, hv⟩ := ih hts
    exact ⟨ts', .inr hspan, hv⟩
  | nil => exact ⟨ts, .refl, hts⟩
  | cons _ _ ih ih' =>
    rw [List.append_assoc] at hts
    obtain ⟨us, hspan, hus⟩ := ih hts
    obtain ⟨ts', hspan', hv⟩ := ih' hus
    exact ⟨ts', .head hspan hspan', hv⟩

/-! ### Another reading for an `else` -/

/-- Behind an open statement or body, an `else` and a body can be read as a part of it. -/
theorem ReadsStmt.take_else {c d c' : Cursor} {p : StmtPhrase} {o : Bool} {ts : List Stmt}
    {x : Token} {r : List Token} {n : ExprId} (h : ReadsStmt c p d) (hd : d = ⟨x :: r, n⟩)
    (hx : x.kind = .keyword .else) (hts : ReadsStmt ⟨r, n⟩ (.body o ts) c') :
    (∀ s, p = .stmt true s → ∃ o' s', ReadsStmt c (.stmt o' s') c') ∧
      ∀ ss, p = .body true ss → ∃ o' ss', ReadsStmt c (.body o' ss') c' := by
  -- down the last parts of the statement, to the innermost condition without an `else`
  induction h with
  | @ifThen _ _ _ _ _ _ _ isOpen _ _ keyword condition hthen body ih =>
    refine ⟨fun _ _ => ?_, nofun⟩
    cases isOpen with
    | false => exact ⟨o, _, .ifElse keyword condition hthen (hd ▸ body) hx hts⟩
    | true =>
      -- a statement further inside takes it first
      obtain ⟨_, ss, hss⟩ := (ih hd).2 _ rfl
      exact ⟨true, _, .ifThen keyword condition hthen hss⟩
  | ifElse keyword condition hthen body helse _ _ ih =>
    refine ⟨?_, nofun⟩
    rintro _ ⟨⟩
    obtain ⟨o', ss, hss⟩ := (ih hd).2 _ rfl
    exact ⟨o', _, .ifElse keyword condition hthen body helse hss⟩
  | whileDo keyword condition hdo _ ih =>
    refine ⟨?_, nofun⟩
    rintro _ ⟨⟩
    obtain ⟨o', ss, hss⟩ := (ih hd).2 _ rfl
    exact ⟨o', _, .whileDo keyword condition hdo hss⟩
  | forLoop keyword counter assign first direction last hdo _ ih =>
    refine ⟨?_, nofun⟩
    rintro _ ⟨⟩
    obtain ⟨o', ss, hss⟩ := (ih hd).2 _ rfl
    exact ⟨o', _, .forLoop keyword counter assign first direction last hdo hss⟩
  | single _ notBlock ih =>
    refine ⟨nofun, ?_⟩
    rintro _ ⟨⟩
    obtain ⟨o', s, hs⟩ := (ih hd).1 _ rfl
    exact ⟨o', _, .single hs notBlock⟩
  | write | read | assign | bareCall | call | repeatUntil | compound | enclosed | block | nil | last
  | cons => exact ⟨nofun, nofun⟩

/-- A body, an `else` and another body after a condition can be read as one statement. -/
theorem ReadsStmt.exists_ifElse {a b d : Token} {r r' r'' : List Token} {n n' n'' : ExprId}
    {e : Expr} {o o' : Bool} {ss ts : List Stmt} {c : Cursor} (keyword : a.kind = .keyword .if)
    (condition : ReadsExpr ⟨r, n⟩ (.expr .equality e) ⟨b :: r', n'⟩)
    (hthen : b.kind = .keyword .then) (body : ReadsStmt ⟨r', n'⟩ (.body o ss) ⟨d :: r'', n''⟩)
    (helse : d.kind = .keyword .else) (otherwise : ReadsStmt ⟨r'', n''⟩ (.body o' ts) c) :
    ∃ o s, ReadsStmt ⟨a :: r, n⟩ (.stmt o s) c := by
  cases o with
  | false => exact ⟨o', _, .ifElse keyword condition hthen body helse otherwise⟩
  | true =>
    -- the `else` goes to a statement in the body, and this one keeps a single branch
    obtain ⟨_, us, hus⟩ := (body.take_else rfl helse otherwise).2 _ rfl
    exact ⟨true, _, .ifThen keyword condition hthen hus⟩

/-- A statement is a body, in one reading or the other if it stands between `begin` and `end`. -/
theorem ReadsStmt.exists_body {c c' : Cursor} {o : Bool} {s : Stmt}
    (h : ReadsStmt c (.stmt o s) c') : ∃ o ss, ReadsStmt c (.body o ss) c' := by
  by_cases hc : c.kind = .keyword .begin
  · cases h with
    | compound block => exact ⟨false, _, .enclosed block⟩
    | write kind =>
      have hword := Kind.keyword.inj (kind.symm.trans hc)
      split at hword <;> cases hword
    | read kind | assign kind | bareCall kind | call kind | ifThen kind | ifElse kind
    | whileDo kind | repeatUntil kind | forLoop kind => cases kind.symm.trans hc
  · exact ⟨o, [s], .single h hc⟩

/-! ### The rules -/

/-- Whether cursors are related when they are put before two lists of tokens. Ids are handed out
while reading, so they are not the same at the second cursor. -/
def Between (P : Cursor → Cursor → Prop) (ts ts' : List Token) : Prop :=
  ∀ n, ∃ n', P ⟨ts, n⟩ ⟨ts', n'⟩

/-- What is read for a rule: the tokens between the two lists can be read as a phrase of the tree
that belongs to the rule. -/
def Rule.Reads : Rule → List Token → List Token → Prop
  | .program => Between fun c c' => ∃ p, ReadsProgram c p c'
  | .block => Between fun c c' => ∃ b, ReadsBlock c (.block b) c'
  | .declarations => Between fun c c' =>
    ∃ d ds rs, ReadsBlock c (.vars ds) d ∧ ReadsBlock d (.routines rs) c'
  | .varDecl => Between fun c c' => ∃ ds, ReadsBlock c (.group ds) c'
  | .identList => Between fun c c' => ∃ ts, ReadsBlock c (.names ts) c'
  | .type => fun ts ts' => ∃ t ty, ts = t :: ts' ∧ t.kind = .typeName ty
  | .procDecl | .funcDecl => Between fun c c' => ∃ r, ReadsBlock c (.routine r) c'
  | .paramlist => Between fun c c' => ∃ ds, ReadsBlock c (.params ds) c'
  | .statement | .writeStmt | .readStmt | .assignStmt | .callStmt | .ifStmt | .whileStmt
  | .repeatStmt | .forStmt => Between fun c c' => ∃ o s, ReadsStmt c (.stmt o s) c'
  | .compoundStmt => Between fun c c' => ∃ ss, ReadsStmt c (.block ss) c'
  | .stmtOrBlock => Between fun c c' => ∃ o ss, ReadsStmt c (.body o ss) c'
  | .expression | .equality => Between fun c c' => ∃ e, ReadsExpr c (.expr .equality e) c'
  | .comparison => Between fun c c' => ∃ e, ReadsExpr c (.expr .comparison e) c'
  | .term => Between fun c c' => ∃ e, ReadsExpr c (.expr .term e) c'
  | .factor => Between fun c c' => ∃ e, ReadsExpr c (.expr .factor e) c'
  | .unary => Between fun c c' => ∃ e, ReadsExpr c (.expr .unary e) c'
  | .primary => Between fun c c' => ∃ e, ReadsExpr c (.expr .primary e) c'
  | .literal => fun ts ts' => ∃ t ty, ts = t :: ts' ∧ t.kind = .literal ty
  | .arglist => Between fun c c' => ∃ es, ReadsExpr c (.args es) c'

/-- What is read for a right-hand side, where each rule it refers to is read as `Rule.Reads`
says. -/
abbrev Ebnf.Reads (e : Ebnf) (ts ts' : List Token) : Prop :=
  e.Spans Rule.Reads ts ts'

variable {ts ts' : List Token}

/-- A list with marks between its items is one item, or one before a list. -/
theorem Ebnf.Reads.list_induction {m : Mark} {a : Ebnf} {P : List Token → Prop}
    (last : ∀ ts, a.Reads ts ts' → P ts)
    (cons : ∀ ts t us, a.Reads ts (t :: us) → t.kind = .mark m → P us → P ts)
    (h : (Ebnf.list m a).Reads ts ts') : P ts := by
  obtain ⟨us, hitem, hrest⟩ := h
  induction hrest using Relation.ReflTransGen.head_induction_on generalizing ts with
  | refl => exact last ts hitem
  | head hstep _ ih =>
    obtain ⟨vs, ⟨t, rfl, ht⟩, hitem'⟩ := hstep
    exact cons ts t vs hitem (List.mem_singleton.1 ht) (ih hitem')

/-! ### Expressions -/

theorem reads_items (h : (Ebnf.list .comma (.rule .expression)).Reads ts ts') :
    Between (fun c c' => ∃ es, ReadsExpr c (.items es) c') ts ts' := by
  refine h.list_induction (P := fun ts =>
    Between (fun c c' => ∃ es, ReadsExpr c (.items es) c') ts ts') ?_ ?_
  · intro ts h n
    obtain ⟨n', e, he⟩ := h n
    exact ⟨n', [e], .last he⟩
  · intro ts t us h ht ih n
    obtain ⟨n', e, he⟩ := h n
    obtain ⟨n'', es, hes⟩ := ih n'
    exact ⟨n'', e :: es, .cons he ht hes⟩

theorem reads_arglist (h : (Rule.body .arglist).Reads ts ts') : Rule.Reads .arglist ts ts' := by
  intro n
  obtain ⟨us, ⟨a, rfl, ha⟩, vs, hitems, b, rfl, hb⟩ := h
  rw [List.mem_singleton] at ha hb
  rcases hitems with rfl | hitems
  · exact ⟨n, [], .noArgs ha hb⟩
  · obtain ⟨n', es, hes⟩ := reads_items hitems n
    exact ⟨n', es, .args ha hes hb⟩

/-- An operator of a level, and what is read behind it. -/
theorem reads_operator {ops : List Operator} {r : Rule}
    (h : (Ebnf.inOrder (Ebnf.sign ops) [.rule r]).Reads ts ts') :
    ∃ t us op, ts = t :: us ∧ t.kind = .operator op ∧ op ∈ ops ∧ r.Reads us ts' := by
  obtain ⟨us, ⟨t, rfl, ht⟩, hr⟩ := h
  obtain ⟨op, hop, hk⟩ := List.mem_map.1 ht
  exact ⟨t, us, op, rfl, hk.symm, hop, hr⟩

/-- At a level whose operators group from the left, a chain is read operator by operator. -/
theorem reads_chain (level : Level) {r : Rule} (hleft : level.left = level)
    (hr : r.Reads = Between fun c c' => ∃ e, ReadsExpr c (.expr level.next e) c')
    (h : (Ebnf.inOrder (.rule r) [.many (.inOrder (Ebnf.sign level.ops) [.rule r])]).Reads ts ts') :
    Between (fun c c' => ∃ e, ReadsExpr c (.expr level e) c') ts ts' := by
  intro n
  obtain ⟨us, hfirst, hrest⟩ := h
  change r.Reads ts us at hfirst
  -- from the left: what has been read is the left operand of the next operator
  induction hrest with
  | refl =>
    rw [hr] at hfirst
    obtain ⟨n', e, he⟩ := hfirst n
    exact ⟨n', e, .tighter he⟩
  | tail _ hstep ih =>
    obtain ⟨n', a, ha⟩ := ih
    obtain ⟨t, vs, op, rfl, ht, hop, hoperand⟩ := reads_operator hstep
    rw [hr] at hoperand
    obtain ⟨n'', b, hb⟩ := hoperand n'
    exact ⟨n'' + 1, _, .binary (by rwa [hleft]) ht hop hb⟩

/-- At a level whose operators do not chain, there is one operator at most. -/
theorem reads_single (level : Level) {r : Rule} (hleft : level.left = level.next)
    (hr : r.Reads = Between fun c c' => ∃ e, ReadsExpr c (.expr level.next e) c')
    (h : (Ebnf.inOrder (.rule r) [.opt (.inOrder (Ebnf.sign level.ops) [.rule r])]).Reads ts ts') :
    Between (fun c c' => ∃ e, ReadsExpr c (.expr level e) c') ts ts' := by
  intro n
  obtain ⟨us, hfirst, hrest⟩ := h
  change r.Reads ts us at hfirst
  rw [hr] at hfirst
  obtain ⟨n', a, ha⟩ := hfirst n
  rcases hrest with rfl | hrest
  · exact ⟨n', a, .tighter ha⟩
  · obtain ⟨t, vs, op, rfl, ht, hop, hoperand⟩ := reads_operator hrest
    rw [hr] at hoperand
    obtain ⟨n'', b, hb⟩ := hoperand n'
    exact ⟨n'' + 1, _, .binary (by rwa [hleft]) ht hop hb⟩

theorem reads_unary (h : (Rule.body .unary).Reads ts ts') : Rule.Reads .unary ts ts' := by
  intro n
  rcases h with h | h | h
  · obtain ⟨t, us, op, rfl, ht, hop, h⟩ := reads_operator h
    obtain ⟨n', e, he⟩ := h n
    exact ⟨n' + 1, _, .sign ht (by simpa using hop) he⟩
  · obtain ⟨t, us, op, rfl, ht, hop, h⟩ := reads_operator h
    obtain ⟨n', e, he⟩ := h n
    rw [List.mem_singleton] at hop
    exact ⟨n' + 1, _, .not (hop ▸ ht) he⟩
  · obtain ⟨n', e, he⟩ := h n
    refine ⟨n', e, ?_⟩
    exact .tighter he

theorem reads_primary (h : (Rule.body .primary).Reads ts ts') : Rule.Reads .primary ts ts' := by
  intro n
  rcases h with ⟨us, ⟨t, rfl, ht⟩, hargs⟩ | ⟨t, ty, rfl, ht⟩ | ⟨us, ⟨a, rfl, ha⟩, vs, h, b, rfl, hb⟩
  · rw [List.mem_singleton] at ht
    rcases hargs with rfl | hargs
    · exact ⟨n + 1, _, .name ht⟩
    · obtain ⟨n', es, hes⟩ := hargs n
      exact ⟨n' + 1, _, .call ht hes⟩
  · exact ⟨n + 1, _, .literal ht⟩
  · rw [List.mem_singleton] at ha hb
    obtain ⟨n', e, he⟩ := h n
    exact ⟨n', e, .paren ha he hb⟩

/-! ### Statements -/

/-- Statements, and perhaps a semicolon behind the last one. -/
theorem reads_statements {us : List Token}
    (h : (Ebnf.list .semicolon (.rule .statement)).Reads ts us)
    (hlast : (Ebnf.opt (.mark .semicolon)).Reads us ts') :
    Between (fun c c' => ∃ ss, ss ≠ [] ∧ ReadsStmt c (.items ss) c') ts ts' := by
  refine h.list_induction (P := fun ts =>
    Between (fun c c' => ∃ ss, ss ≠ [] ∧ ReadsStmt c (.items ss) c') ts ts') ?_ ?_
  · intro ts h n
    obtain ⟨n', o, s, hs⟩ := h n
    rcases hlast with rfl | ⟨t, rfl, ht⟩
    · exact ⟨n', [s], by simp, .last hs⟩
    · exact ⟨n', [s], by simp, .cons hs (List.mem_singleton.1 ht) .nil⟩
  · intro ts t us h ht ih n
    obtain ⟨n', o, s, hs⟩ := h n
    obtain ⟨n'', ss, -, hss⟩ := ih n'
    exact ⟨n'', s :: ss, by simp, .cons hs ht hss⟩

theorem reads_compoundStmt (h : (Rule.body .compoundStmt).Reads ts ts') :
    Rule.Reads .compoundStmt ts ts' := by
  intro n
  obtain ⟨us, ⟨a, rfl, ha⟩, vs, hitems, b, rfl, hb⟩ := h
  rw [List.mem_singleton] at ha hb
  rcases hitems with rfl | ⟨xs, hitems, hlast⟩
  · exact ⟨n, [], .block ha .nil hb⟩
  · obtain ⟨n', ss, -, hss⟩ := reads_statements hitems hlast n
    exact ⟨n', ss, .block ha hss hb⟩

theorem reads_writeStmt (h : (Rule.body .writeStmt).Reads ts ts') :
    Rule.Reads .writeStmt ts ts' := by
  intro n
  obtain ⟨us, ⟨t, rfl, ht⟩, hargs⟩ := h
  obtain ⟨n', es, hes⟩ := hargs n
  simp only [List.mem_cons, List.not_mem_nil, or_false] at ht
  rcases ht with ht | ht
  · refine ⟨n', false, .write false es, .write ?_ hes⟩
    exact ht
  · refine ⟨n', false, .write true es, .write ?_ hes⟩
    exact ht

theorem reads_readStmt (h : (Rule.body .readStmt).Reads ts ts') : Rule.Reads .readStmt ts ts' := by
  intro n
  obtain ⟨us, ⟨a, rfl, ha⟩, vs, ⟨b, rfl, hb⟩, xs, ⟨t, rfl, ht⟩, d, rfl, hd⟩ := h
  rw [List.mem_singleton] at ha hb ht hd
  exact ⟨n, false, _, .read ha hb ht hd⟩

theorem reads_assignStmt (h : (Rule.body .assignStmt).Reads ts ts') :
    Rule.Reads .assignStmt ts ts' := by
  intro n
  obtain ⟨us, ⟨t, rfl, ht⟩, vs, ⟨a, rfl, ha⟩, he⟩ := h
  rw [List.mem_singleton] at ht ha
  obtain ⟨n', e, he⟩ := he n
  exact ⟨n', false, _, .assign ht ha he⟩

theorem reads_callStmt (h : (Rule.body .callStmt).Reads ts ts') : Rule.Reads .callStmt ts ts' := by
  intro n
  obtain ⟨us, ⟨t, rfl, ht⟩, rfl | hargs⟩ := h
  · exact ⟨n, false, _, .bareCall (List.mem_singleton.1 ht)⟩
  · obtain ⟨n', es, hes⟩ := hargs n
    exact ⟨n', false, _, .call (List.mem_singleton.1 ht) hes⟩

theorem reads_ifStmt (h : (Rule.body .ifStmt).Reads ts ts') : Rule.Reads .ifStmt ts ts' := by
  intro n
  obtain ⟨us, ⟨a, rfl, ha⟩, vs, he, xs, ⟨b, rfl, hb⟩, ys, hss, helse⟩ := h
  rw [List.mem_singleton] at ha hb
  obtain ⟨n', e, he⟩ := he n
  obtain ⟨n'', o, ss, hss⟩ := hss n'
  rcases helse with rfl | ⟨zs, ⟨d, rfl, hd⟩, hts⟩
  · exact ⟨n'', true, _, .ifThen ha he hb hss⟩
  · obtain ⟨m, o', us, hus⟩ := hts n''
    exact ⟨m, ReadsStmt.exists_ifElse ha he hb hss (List.mem_singleton.1 hd) hus⟩

theorem reads_whileStmt (h : (Rule.body .whileStmt).Reads ts ts') :
    Rule.Reads .whileStmt ts ts' := by
  intro n
  obtain ⟨us, ⟨a, rfl, ha⟩, vs, he, xs, ⟨b, rfl, hb⟩, hss⟩ := h
  rw [List.mem_singleton] at ha hb
  obtain ⟨n', e, he⟩ := he n
  obtain ⟨n'', o, ss, hss⟩ := hss n'
  exact ⟨n'', o, _, .whileDo ha he hb hss⟩

theorem reads_repeatStmt (h : (Rule.body .repeatStmt).Reads ts ts') :
    Rule.Reads .repeatStmt ts ts' := by
  intro n
  obtain ⟨us, ⟨a, rfl, ha⟩, vs, hitems, xs, hlast, ys, ⟨b, rfl, hb⟩, he⟩ := h
  rw [List.mem_singleton] at ha hb
  obtain ⟨n', ss, hne, hss⟩ := reads_statements hitems hlast n
  obtain ⟨n'', e, he⟩ := he n'
  exact ⟨n'', false, _, .repeatUntil ha hss hne hb he⟩

theorem reads_forStmt (h : (Rule.body .forStmt).Reads ts ts') : Rule.Reads .forStmt ts ts' := by
  intro n
  obtain ⟨_, ⟨a, rfl, ha⟩, _, ⟨t, rfl, ht⟩, _, ⟨b, rfl, hb⟩, _, he, _, ⟨d, rfl, hd⟩, _, hf, _,
    ⟨g, rfl, hg⟩, hss⟩ := h
  rw [List.mem_singleton] at ha ht hb hg
  obtain ⟨n', e, he⟩ := he n
  obtain ⟨n'', f, hf⟩ := hf n'
  obtain ⟨m, o, ss, hss⟩ := hss n''
  simp only [List.mem_cons, List.not_mem_nil, or_false] at hd
  rcases hd with hd | hd
  · refine ⟨m, o, .forLoop t e .to f ss, .forLoop ha ht hb he ?_ hf hg hss⟩
    exact hd
  · refine ⟨m, o, .forLoop t e .downto f ss, .forLoop ha ht hb he ?_ hf hg hss⟩
    exact hd

theorem reads_statement (h : (Rule.body .statement).Reads ts ts') :
    Rule.Reads .statement ts ts' := by
  -- all kinds of statements are read as such, only a compound one is a block before
  rcases h with h | h | h | h | h | h | h | h | h
  · exact h
  · exact h
  · exact h
  · exact h
  · exact h
  · exact h
  · exact h
  · exact h
  · intro n
    obtain ⟨n', ss, hss⟩ := h n
    exact ⟨n', false, _, .compound hss⟩

theorem reads_stmtOrBlock (h : (Rule.body .stmtOrBlock).Reads ts ts') :
    Rule.Reads .stmtOrBlock ts ts' := by
  intro n
  rcases h with h | h
  · obtain ⟨n', o, s, hs⟩ := h n
    exact ⟨n', hs.exists_body⟩
  · obtain ⟨n', ss, hss⟩ := h n
    exact ⟨n', false, ss, .enclosed hss⟩

/-! ### Declarations and programs -/

theorem reads_identList (h : (Rule.body .identList).Reads ts ts') :
    Rule.Reads .identList ts ts' := by
  refine h.list_induction (P := fun ts => Rule.Reads .identList ts ts') ?_ ?_
  · rintro _ ⟨t, rfl, ht⟩ n
    exact ⟨n, [t], .lastName (List.mem_singleton.1 ht)⟩
  · rintro _ t us ⟨x, rfl, hx⟩ ht ih n
    obtain ⟨n', xs, hxs⟩ := ih n
    exact ⟨n', x :: xs, .consName (List.mem_singleton.1 hx) ht hxs⟩

theorem reads_varDecl (h : (Rule.body .varDecl).Reads ts ts') : Rule.Reads .varDecl ts ts' := by
  intro n
  obtain ⟨us, hnames, vs, ⟨a, rfl, ha⟩, b, ty, rfl, hb⟩ := h
  obtain ⟨n', xs, hxs⟩ := hnames n
  exact ⟨n', _, .group hxs (List.mem_singleton.1 ha) hb⟩

theorem reads_groups (h : (Ebnf.list .comma (.rule .varDecl)).Reads ts ts') :
    Between (fun c c' => ∃ ds, ReadsBlock c (.groups ds) c') ts ts' := by
  refine h.list_induction (P := fun ts =>
    Between (fun c c' => ∃ ds, ReadsBlock c (.groups ds) c') ts ts') ?_ ?_
  · intro ts h n
    obtain ⟨n', ds, hds⟩ := h n
    exact ⟨n', ds, .lastGroup hds⟩
  · intro ts t us h ht ih n
    obtain ⟨n', ds, hds⟩ := h n
    obtain ⟨n'', es, hes⟩ := ih n'
    exact ⟨n'', ds ++ es, .consGroup hds ht hes⟩

theorem reads_paramlist (h : (Rule.body .paramlist).Reads ts ts') :
    Rule.Reads .paramlist ts ts' := by
  intro n
  obtain ⟨us, ⟨a, rfl, ha⟩, vs, hgroups, b, rfl, hb⟩ := h
  rw [List.mem_singleton] at ha hb
  rcases hgroups with rfl | hgroups
  · exact ⟨n, [], .noParams ha hb⟩
  · obtain ⟨n', ds, hds⟩ := reads_groups hgroups n
    exact ⟨n', ds, .params ha hds hb⟩

/-- The lines of a `var` section. -/
theorem reads_lines {us : List Token}
    (h : (Ebnf.inOrder (.rule .varDecl) [.mark .semicolon]).Reads ts us)
    (hrest : (Ebnf.many (.inOrder (.rule .varDecl) [.mark .semicolon])).Reads us ts') :
    Between (fun c c' => ∃ ds, ReadsBlock c (.lines ds) c') ts ts' := by
  induction hrest using Relation.ReflTransGen.head_induction_on generalizing ts with
  | refl =>
    intro n
    obtain ⟨vs, hgroup, a, rfl, ha⟩ := h
    obtain ⟨n', ds, hds⟩ := hgroup n
    exact ⟨n', ds, .lastLine hds (List.mem_singleton.1 ha)⟩
  | head hstep _ ih =>
    intro n
    obtain ⟨vs, hgroup, a, rfl, ha⟩ := h
    obtain ⟨n', ds, hds⟩ := hgroup n
    obtain ⟨n'', es, hes⟩ := ih hstep n'
    exact ⟨n'', ds ++ es, .consLine hds (List.mem_singleton.1 ha) hes⟩

theorem reads_procDecl (h : (Rule.body .procDecl).Reads ts ts') : Rule.Reads .procDecl ts ts' := by
  intro n
  obtain ⟨_, ⟨a, rfl, ha⟩, _, ⟨t, rfl, ht⟩, _, hparams, _, ⟨b, rfl, hb⟩, _, hblock, d, rfl, hd⟩ := h
  rw [List.mem_singleton] at ha ht hb hd
  obtain ⟨n', ds, hds⟩ := hparams n
  obtain ⟨n'', block, hblock⟩ := hblock n'
  exact ⟨n'', _, .procedure ha ht hds hb hblock hd⟩

theorem reads_funcDecl (h : (Rule.body .funcDecl).Reads ts ts') : Rule.Reads .funcDecl ts ts' := by
  intro n
  obtain ⟨_, ⟨a, rfl, ha⟩, _, ⟨t, rfl, ht⟩, _, hparams, _, ⟨b, rfl, hb⟩, _, ⟨y, ty, rfl, hy⟩, _,
    ⟨d, rfl, hd⟩, _, hblock, g, rfl, hg⟩ := h
  rw [List.mem_singleton] at ha ht hb hd hg
  obtain ⟨n', ds, hds⟩ := hparams n
  obtain ⟨n'', block, hblock⟩ := hblock n'
  exact ⟨n'', _, .function ha ht hds hb hy hd hblock hg⟩

theorem reads_routines
    (h : (Ebnf.many (.oneOf (.rule .procDecl) [.rule .funcDecl])).Reads ts ts') :
    Between (fun c c' => ∃ rs, ReadsBlock c (.routines rs) c') ts ts' := by
  induction h using Relation.ReflTransGen.head_induction_on with
  | refl => exact fun n => ⟨n, [], .noRoutines⟩
  | head hstep _ ih =>
    intro n
    obtain ⟨n', r, hr⟩ := hstep.elim id id n
    obtain ⟨n'', rs, hrs⟩ := ih n'
    exact ⟨n'', r :: rs, .consRoutine hr hrs⟩

theorem reads_declarations (h : (Rule.body .declarations).Reads ts ts') :
    Rule.Reads .declarations ts ts' := by
  intro n
  obtain ⟨us, hvars, hroutines⟩ := h
  rcases hvars with rfl | ⟨vs, ⟨a, rfl, ha⟩, xs, hline, hrest⟩
  · obtain ⟨n', rs, hrs⟩ := reads_routines hroutines n
    exact ⟨n', _, [], rs, .noVars, hrs⟩
  · obtain ⟨n', ds, hds⟩ := reads_lines hline hrest n
    obtain ⟨n'', rs, hrs⟩ := reads_routines hroutines n'
    exact ⟨n'', _, ds, rs, .vars (List.mem_singleton.1 ha) hds, hrs⟩

theorem reads_block (h : (Rule.body .block).Reads ts ts') : Rule.Reads .block ts ts' := by
  intro n
  obtain ⟨us, hdeclarations, hbody⟩ := h
  obtain ⟨n', d, ds, rs, hds, hrs⟩ := hdeclarations n
  obtain ⟨n'', ss, hss⟩ := hbody n'
  exact ⟨n'', _, .block hds hrs hss⟩

theorem reads_program (h : (Rule.body .program).Reads ts ts') : Rule.Reads .program ts ts' := by
  intro n
  obtain ⟨_, ⟨a, rfl, ha⟩, _, ⟨t, rfl, ht⟩, _, ⟨b, rfl, hb⟩, _, hblock, d, rfl, hd⟩ := h
  rw [List.mem_singleton] at ha ht hb hd
  obtain ⟨n', block, hblock⟩ := hblock n
  exact ⟨n', _, .program ha ht hb hblock hd⟩

/-- Readings are closed under the right-hand sides of the rules. -/
theorem reads_of_body (r : Rule) (ts ts' : List Token) (h : r.body.Reads ts ts') :
    r.Reads ts ts' := by
  cases r with
  | program => exact reads_program h
  | block => exact reads_block h
  | declarations => exact reads_declarations h
  | varDecl => exact reads_varDecl h
  | identList => exact reads_identList h
  | type =>
    obtain ⟨t, rfl, ht⟩ := h
    obtain ⟨ty, -, hty⟩ := List.mem_map.1 ht
    exact ⟨t, ty, rfl, hty.symm⟩
  | procDecl => exact reads_procDecl h
  | funcDecl => exact reads_funcDecl h
  | paramlist => exact reads_paramlist h
  | statement => exact reads_statement h
  | compoundStmt => exact reads_compoundStmt h
  | writeStmt => exact reads_writeStmt h
  | readStmt => exact reads_readStmt h
  | assignStmt => exact reads_assignStmt h
  | callStmt => exact reads_callStmt h
  | ifStmt => exact reads_ifStmt h
  | whileStmt => exact reads_whileStmt h
  | repeatStmt => exact reads_repeatStmt h
  | forStmt => exact reads_forStmt h
  | stmtOrBlock => exact reads_stmtOrBlock h
  | expression => exact h
  | equality => exact reads_single .equality (r := .comparison) rfl rfl h
  | comparison => exact reads_single .comparison (r := .term) rfl rfl h
  | term => exact reads_chain .term (r := .factor) rfl rfl h
  | factor => exact reads_chain .factor (r := .unary) rfl rfl h
  | unary => exact reads_unary h
  | primary => exact reads_primary h
  | literal =>
    obtain ⟨t, rfl, ht⟩ := h
    obtain ⟨ty, -, hty⟩ := List.mem_map.1 ht
    exact ⟨t, ty, rfl, hty.symm⟩
  | arglist => exact reads_arglist h

/-- Tokens whose kinds can be derived can be read as a program. -/
theorem readsProgram_of_derives {ts : List Token}
    (h : Derives (.rule .program) (ts.map Token.kind)) (n : ExprId) :
    ∃ p n', ReadsProgram ⟨ts, n⟩ p ⟨[], n'⟩ := by
  obtain ⟨ts', hreads, hnil⟩ := h.spans reads_of_body (List.append_nil _).symm
  obtain ⟨n', p, hp⟩ := hreads n
  rw [List.map_eq_nil_iff] at hnil
  exact ⟨p, n', hnil ▸ hp⟩

end MiniPascal
