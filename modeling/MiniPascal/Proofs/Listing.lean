import MiniPascal.Parse.Parser
import MiniPascal.Proofs.Reading.Sound
import MiniPascal.Syntax.Listing

/-!
# No name, literal or operator is lost

A tree **stores** names, literals and operators; it has no token for keywords, names of types and
punctuation marks, and leaves parentheses out. The tokens that a tree stores are, in the order of
`Program.tokens`, the names, literals and operators among the tokens it was read from: none is lost,
doubled, moved or replaced by another.
-/

namespace MiniPascal

/-- Whether tokens of this kind are stored in a tree: names, literals and operators are. All others
leave a trace in its shape only, or none. -/
def Kind.isStored : Kind → Bool
  | .ident | .literal _ | .operator _ => true
  | .typeName _ | .keyword _ | .mark _ | .eof | .error => false

/-- The tokens of a list that a tree stores, in their order. Of the source of a program, they are
the tokens of its tree. -/
def storedTokens (ts : List Token) : List Token :=
  ts.filter fun t => t.kind.isStored

theorem storedTokens_append (ts us : List Token) :
    storedTokens (ts ++ us) = storedTokens ts ++ storedTokens us :=
  List.filter_append ..

theorem storedTokens_cons_of_stored {t : Token} {k : Kind} (ht : t.kind = k)
    (hk : k.isStored = true) (ts : List Token) : storedTokens (t :: ts) = t :: storedTokens ts :=
  List.filter_cons_of_pos (by rw [ht, hk])

theorem storedTokens_cons_of_not_stored {t : Token} {k : Kind} (ht : t.kind = k)
    (hk : k.isStored = false) (ts : List Token) : storedTokens (t :: ts) = storedTokens ts :=
  List.filter_cons_of_neg (by rw [ht, hk]; exact Bool.false_ne_true)

/-! ### Phrases -/

/-- The tokens that a part of an expression stores, from left to right: those of its expressions. -/
def ExprPhrase.tokens : ExprPhrase → List Token
  | .expr _ e => e.tokens
  | .items es | .args es => Expr.tokensList es

/-- The tokens that statements store, from left to right. How they are enclosed makes no
difference. -/
def StmtPhrase.tokens : StmtPhrase → List Token
  | .stmt _ s => s.tokens
  | .body _ ss | .block ss | .items ss => Stmt.tokensList ss

/-- The tokens that a part of a block stores, from left to right. Of declarations, these are the
names and not the types. -/
def BlockPhrase.tokens : BlockPhrase → List Token
  | .names ts => ts
  | .group ds | .groups ds | .params ds | .lines ds | .vars ds => ds.map VarDecl.name
  | .routine r => r.tokens
  | .routines rs => Routine.tokensList rs
  | .block b => b.tokens

/-- What is read as a part of an expression is stored in it. -/
theorem ReadsExpr.storedTokens_eq {c c' : Cursor} {p : ExprPhrase} (h : ReadsExpr c p c') :
    storedTokens c.rest = p.tokens ++ storedTokens c'.rest := by
  -- along the reading: a stored token goes to its tree, the others are passed over
  induction h with
  | literal kind | name kind => exact storedTokens_cons_of_stored kind rfl _
  | call kind _ ih | sign kind _ _ ih | not kind _ ih =>
    exact (storedTokens_cons_of_stored kind rfl _).trans (congrArg _ ih)
  | paren opening _ closing ih | args opening _ closing ih =>
    rw [storedTokens_cons_of_not_stored opening rfl, ih,
      storedTokens_cons_of_not_stored closing rfl]
    rfl
  | tighter _ ih => exact ih
  | binary _ kind _ _ ih ih' =>
    rw [ih, storedTokens_cons_of_stored kind rfl, ih']
    simp only [ExprPhrase.tokens, Expr.tokens, List.append_assoc, List.cons_append]
  | last _ ih =>
    rw [ih]
    simp only [ExprPhrase.tokens, Expr.tokensList, List.append_nil]
  | cons _ comma _ ih ih' =>
    rw [ih, storedTokens_cons_of_not_stored comma rfl, ih']
    simp only [ExprPhrase.tokens, Expr.tokensList, List.append_assoc]
  | noArgs opening closing =>
    rw [storedTokens_cons_of_not_stored opening rfl, storedTokens_cons_of_not_stored closing rfl]
    rfl

/-- What is read as statements is stored in them. -/
theorem ReadsStmt.storedTokens_eq {c c' : Cursor} {p : StmtPhrase} (h : ReadsStmt c p c') :
    storedTokens c.rest = p.tokens ++ storedTokens c'.rest := by
  induction h with
  | write kind args =>
    rw [storedTokens_cons_of_not_stored kind rfl]
    exact args.storedTokens_eq
  | read keyword opening target closing =>
    rw [storedTokens_cons_of_not_stored keyword rfl, storedTokens_cons_of_not_stored opening rfl,
      storedTokens_cons_of_stored target rfl, storedTokens_cons_of_not_stored closing rfl]
    rfl
  | assign target assign value =>
    rw [storedTokens_cons_of_stored target rfl, storedTokens_cons_of_not_stored assign rfl]
    exact congrArg _ value.storedTokens_eq
  | bareCall callee => exact storedTokens_cons_of_stored callee rfl _
  | call callee args =>
    exact (storedTokens_cons_of_stored callee rfl _).trans (congrArg _ args.storedTokens_eq)
  | ifThen keyword condition separator _ ih | whileDo keyword condition separator _ ih =>
    rw [storedTokens_cons_of_not_stored keyword rfl, condition.storedTokens_eq,
      storedTokens_cons_of_not_stored separator rfl, ih]
    simp only [StmtPhrase.tokens, Stmt.tokens, ExprPhrase.tokens, List.append_assoc]
  | ifElse keyword condition hthen _ helse _ ih ih' =>
    rw [storedTokens_cons_of_not_stored keyword rfl, condition.storedTokens_eq,
      storedTokens_cons_of_not_stored hthen rfl, ih, storedTokens_cons_of_not_stored helse rfl, ih']
    simp only [StmtPhrase.tokens, Stmt.tokens, ExprPhrase.tokens, List.append_assoc]
  | repeatUntil keyword _ _ huntil condition ih =>
    rw [storedTokens_cons_of_not_stored keyword rfl, ih, storedTokens_cons_of_not_stored huntil rfl,
      condition.storedTokens_eq]
    simp only [StmtPhrase.tokens, Stmt.tokens, ExprPhrase.tokens, List.append_assoc]
  | forLoop keyword counter assign first direction last hdo _ ih =>
    rw [storedTokens_cons_of_not_stored keyword rfl, storedTokens_cons_of_stored counter rfl,
      storedTokens_cons_of_not_stored assign rfl, first.storedTokens_eq,
      storedTokens_cons_of_not_stored direction rfl, last.storedTokens_eq,
      storedTokens_cons_of_not_stored hdo rfl, ih]
    simp only [StmtPhrase.tokens, Stmt.tokens, ExprPhrase.tokens, List.append_assoc,
      List.cons_append]
  | compound _ ih | enclosed _ ih => exact ih
  | block hbegin _ hend ih =>
    rw [storedTokens_cons_of_not_stored hbegin rfl, ih, storedTokens_cons_of_not_stored hend rfl]
    rfl
  | nil => rfl
  | single _ _ ih | last _ ih =>
    rw [ih]
    simp only [StmtPhrase.tokens, Stmt.tokensList, List.append_nil]
  | cons _ semicolon _ ih ih' =>
    rw [ih, storedTokens_cons_of_not_stored semicolon rfl, ih']
    simp only [StmtPhrase.tokens, Stmt.tokensList, List.append_assoc]

/-- What is read as a block or as a part of its declarations is stored in it. -/
theorem ReadsBlock.storedTokens_eq {c c' : Cursor} {p : BlockPhrase} (h : ReadsBlock c p c') :
    storedTokens c.rest = p.tokens ++ storedTokens c'.rest := by
  induction h with
  | lastName kind => exact storedTokens_cons_of_stored kind rfl _
  | consName kind comma _ ih =>
    rw [storedTokens_cons_of_stored kind rfl, storedTokens_cons_of_not_stored comma rfl, ih]
    rfl
  | group _ colon typeName ih =>
    rw [ih, storedTokens_cons_of_not_stored colon rfl,
      storedTokens_cons_of_not_stored typeName rfl]
    simp only [BlockPhrase.tokens, List.map_map, Function.comp_def, List.map_id']
  | lastGroup _ ih => exact ih
  | consGroup _ separator _ ih ih' | consLine _ separator _ ih ih' =>
    rw [ih, storedTokens_cons_of_not_stored separator rfl, ih']
    simp only [BlockPhrase.tokens, List.map_append, List.append_assoc]
  | noParams opening closing =>
    rw [storedTokens_cons_of_not_stored opening rfl, storedTokens_cons_of_not_stored closing rfl]
    rfl
  | params opening _ closing ih =>
    rw [storedTokens_cons_of_not_stored opening rfl, ih,
      storedTokens_cons_of_not_stored closing rfl]
    rfl
  | lastLine _ semicolon ih =>
    rw [ih, storedTokens_cons_of_not_stored semicolon rfl]
    rfl
  | noVars | noRoutines => rfl
  | vars keyword _ ih => exact (storedTokens_cons_of_not_stored keyword rfl _).trans ih
  | procedure keyword name _ heading _ ending ih ih' =>
    rw [storedTokens_cons_of_not_stored keyword rfl, storedTokens_cons_of_stored name rfl, ih,
      storedTokens_cons_of_not_stored heading rfl, ih', storedTokens_cons_of_not_stored ending rfl]
    simp only [BlockPhrase.tokens, Routine.tokens, List.append_assoc, List.cons_append]
  | function keyword name _ colon result heading _ ending ih ih' =>
    rw [storedTokens_cons_of_not_stored keyword rfl, storedTokens_cons_of_stored name rfl, ih,
      storedTokens_cons_of_not_stored colon rfl, storedTokens_cons_of_not_stored result rfl,
      storedTokens_cons_of_not_stored heading rfl, ih', storedTokens_cons_of_not_stored ending rfl]
    simp only [BlockPhrase.tokens, Routine.tokens, List.append_assoc, List.cons_append]
  | consRoutine _ _ ih ih' =>
    rw [ih, ih']
    simp only [BlockPhrase.tokens, Routine.tokensList, List.append_assoc]
  | block _ _ body ih ih' =>
    rw [ih, ih', body.storedTokens_eq]
    simp only [BlockPhrase.tokens, StmtPhrase.tokens, Block.tokens, List.append_assoc]

/-- What is read as a program is stored in it. -/
theorem ReadsProgram.storedTokens_eq {c c' : Cursor} {p : Program} (h : ReadsProgram c p c') :
    storedTokens c.rest = p.tokens ++ storedTokens c'.rest := by
  obtain ⟨keyword, name, semicolon, body, period⟩ := h
  rw [storedTokens_cons_of_not_stored keyword rfl, storedTokens_cons_of_stored name rfl,
    storedTokens_cons_of_not_stored semicolon rfl, body.storedTokens_eq,
    storedTokens_cons_of_not_stored period rfl]
  rfl

/-! ### Programs -/

/-- A program that a fresh parser returns stores the names, literals and operators among the tokens
that it has pulled from its source, in their order, and the parser is then at the end. -/
theorem tokens_eq_storedTokens_of_parse {source : TokenSource} {p : Program} {parser : Parser}
    (h : (Parser.ofSource source).parse = (.ok p, parser)) :
    ∃ count, p.tokens = storedTokens (source.take count).1 ∧
      parser.feed = (source.take count).2.feed ∧
      ∀ t ∈ parser.feed.tokens.head?, t.kind = .eof := by
  rw [Parser.parse] at h
  split at h
  · next q c hrun =>
    cases h
    obtain ⟨hreads, hend⟩ := Parse.readsProgram_of_program hrun
    obtain ⟨ts, hts⟩ := hreads.reaches
    -- the parser has pulled from its source exactly the tokens that it has read
    obtain ⟨htake, hfeed⟩ := TokenSource.take_of_feed hts.symm
    refine ⟨ts.length, ?_, hfeed.symm, ?_⟩
    · rw [htake]
      have hstored := hreads.storedTokens_eq
      rw [← hts, storedTokens_append] at hstored
      exact (List.append_cancel_right hstored).symm
    · intro t ht
      obtain ⟨_ | ⟨u, r⟩, n⟩ := c
      · cases ht
      · cases ht
        exact hend
  · cases h

/-- Two branches, a sign and a pair of parentheses. -/
theorem tokens_eq_storedTokens_of_parse_branches :
    let source := TokenSource.lexer
      (Lexer.ofText "program p; begin if a then b else c := -(1) end." "p.pas")
    ∃ p parser, (Parser.ofSource source).parse = (.ok p, parser) ∧
      ∃ count, p.tokens = storedTokens (source.take count).1 := by
  intro source
  have hrun : (Parser.ofSource source).parse.1.toOption.isSome = true := by decide +kernel
  rcases h : (Parser.ofSource source).parse with ⟨_ | p, parser⟩
  · rw [h] at hrun
    cases hrun
  · obtain ⟨count, htokens, -, -⟩ := tokens_eq_storedTokens_of_parse h
    exact ⟨p, parser, rfl, count, htokens⟩

end MiniPascal
