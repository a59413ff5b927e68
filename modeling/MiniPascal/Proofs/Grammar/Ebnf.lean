import MiniPascal.Proofs.Action

/-!
# The grammar

The grammar of the language as a table of rules, and the words that can be **derived** from it. A
word is a list of kinds of tokens: texts and positions play no part.

The grammar says which words there are and not how they are told apart. In particular it does not
say to which of several conditional statements an `else` belongs.
-/

namespace MiniPascal

/-- The names of the rules of the grammar, as the table of rules has them. Their right-hand sides
are in `Rule.body`. They stand for themselves in a right-hand side. -/
inductive Rule where
  | program
  | block
  | declarations
  | varDecl
  | identList
  | type
  | procDecl
  | funcDecl
  | paramlist
  | statement
  | compoundStmt
  | writeStmt
  | readStmt
  | assignStmt
  | callStmt
  | ifStmt
  | whileStmt
  | repeatStmt
  | forStmt
  | stmtOrBlock
  | expression
  | equality
  | comparison
  | term
  | factor
  | unary
  | primary
  | literal
  | arglist
deriving DecidableEq, Repr

/-- The right-hand sides of rules, in the usual notation: tokens, rules, sequences, alternatives,
options and repetitions. They are data, so that a table of rules can be one function. -/
inductive Ebnf where
  /-- A token of one of these kinds. -/
  | token (kinds : List Kind)
  | rule (r : Rule)
  | seq (a b : Ebnf)
  | alt (a b : Ebnf)
  /-- The expression or nothing. -/
  | opt (a : Ebnf)
  /-- The expression any number of times. -/
  | many (a : Ebnf)

namespace Ebnf

/-- A name as it stands in a right-hand side: a token of the one kind that all names have. -/
def ident : Ebnf :=
  .token [.ident]

/-- A keyword as it stands in a right-hand side: a token of the kind that this keyword has. -/
def word (w : Keyword) : Ebnf :=
  .token [.keyword w]

/-- One of some operators, as it stands in a right-hand side. Which one it is makes no difference to
what follows. Each level of expressions has a list of these. -/
def sign (ops : List Operator) : Ebnf :=
  .token (ops.map .operator)

/-- A punctuation mark as it stands in a right-hand side: a token of the kind that this mark has. -/
def mark (m : Mark) : Ebnf :=
  .token [.mark m]

/-- Two or more parts one after the other. It stands for nested sequences, so that a right-hand side
reads like a line of the grammar. -/
def inOrder (a : Ebnf) : List Ebnf → Ebnf
  | [] => a
  | b :: bs => .seq a (inOrder b bs)

/-- One of two or more parts. It stands for nested alternatives, so that a right-hand side reads
like a line of the grammar. -/
def oneOf (a : Ebnf) : List Ebnf → Ebnf
  | [] => a
  | b :: bs => .alt a (oneOf b bs)

/-- A part one or more times, with a mark between any two. A mark behind the last one is no part of
it. -/
def list (m : Mark) (a : Ebnf) : Ebnf :=
  .seq a (.many (.seq (mark m) a))

end Ebnf

open Ebnf in
/-- The right-hand side of a rule. A semicolon may stand behind the last of several statements, and
a call statement may do without its arguments. -/
def Rule.body : Rule → Ebnf
  | .program =>
    inOrder (word .program) [ident, mark .semicolon, .rule .block, mark .period]
  | .block => inOrder (.rule .declarations) [.rule .compoundStmt]
  | .declarations =>
    inOrder
      (.opt (inOrder (word .var) [inOrder (.rule .varDecl) [mark .semicolon],
        .many (inOrder (.rule .varDecl) [mark .semicolon])]))
      [.many (oneOf (.rule .procDecl) [.rule .funcDecl])]
  | .varDecl => inOrder (.rule .identList) [mark .colon, .rule .type]
  | .identList => list .comma ident
  | .type => .token (Ty.all.map .typeName)
  | .procDecl =>
    inOrder (word .procedure)
      [ident, .rule .paramlist, mark .semicolon, .rule .block, mark .semicolon]
  | .funcDecl =>
    inOrder (word .function)
      [ident, .rule .paramlist, mark .colon, .rule .type, mark .semicolon, .rule .block,
        mark .semicolon]
  | .paramlist =>
    inOrder (mark .openParen) [.opt (list .comma (.rule .varDecl)), mark .closeParen]
  | .statement =>
    oneOf (.rule .writeStmt)
      [.rule .readStmt, .rule .assignStmt, .rule .callStmt, .rule .ifStmt, .rule .whileStmt,
        .rule .repeatStmt, .rule .forStmt, .rule .compoundStmt]
  | .compoundStmt =>
    inOrder (word .begin)
      [.opt (inOrder (list .semicolon (.rule .statement)) [.opt (mark .semicolon)]), word .end]
  | .writeStmt => inOrder (.token [.keyword .write, .keyword .writeln]) [.rule .arglist]
  | .readStmt => inOrder (word .read) [mark .openParen, ident, mark .closeParen]
  | .assignStmt => inOrder ident [mark .assign, .rule .expression]
  | .callStmt => inOrder ident [.opt (.rule .arglist)]
  | .ifStmt =>
    inOrder (word .if)
      [.rule .expression, word .then, .rule .stmtOrBlock,
        .opt (inOrder (word .else) [.rule .stmtOrBlock])]
  | .whileStmt => inOrder (word .while) [.rule .expression, word .do, .rule .stmtOrBlock]
  | .repeatStmt =>
    inOrder (word .repeat)
      [list .semicolon (.rule .statement), .opt (mark .semicolon), word .until,
        .rule .expression]
  | .forStmt =>
    inOrder (word .for)
      [ident, mark .assign, .rule .expression, .token [.keyword .to, .keyword .downto],
        .rule .expression, word .do, .rule .stmtOrBlock]
  | .stmtOrBlock => oneOf (.rule .statement) [.rule .compoundStmt]
  | .expression => .rule .equality
  | .equality =>
    inOrder (.rule .comparison) [.opt (inOrder (sign [.equal, .notEqual]) [.rule .comparison])]
  | .comparison =>
    inOrder (.rule .term)
      [.opt (inOrder (sign [.less, .lessEqual, .greater, .greaterEqual]) [.rule .term])]
  | .term =>
    inOrder (.rule .factor) [.many (inOrder (sign [.plus, .minus, .or]) [.rule .factor])]
  | .factor =>
    inOrder (.rule .unary) [.many (inOrder (sign [.times, .divide, .and, .mod]) [.rule .unary])]
  | .unary =>
    oneOf (inOrder (sign [.plus, .minus]) [.rule .unary])
      [inOrder (sign [.not]) [.rule .primary], .rule .primary]
  | .primary =>
    oneOf (inOrder ident [.opt (.rule .arglist)])
      [.rule .literal, inOrder (mark .openParen) [.rule .expression, mark .closeParen]]
  | .literal => .token (Ty.all.map .literal)
  | .arglist =>
    inOrder (mark .openParen) [.opt (list .comma (.rule .expression)), mark .closeParen]

/-- The word can be derived from the right-hand side of a rule. There is one constructor for each
way to go on; a repetition is unfolded once more at its front. It knows nothing about the parser. -/
inductive Derives : Ebnf → List Kind → Prop where
  | token {k : Kind} {ks : List Kind} (mem : k ∈ ks) : Derives (.token ks) [k]
  | rule {r : Rule} {w : List Kind} (body : Derives r.body w) : Derives (.rule r) w
  | seq {a b : Ebnf} {u v : List Kind} (first : Derives a u) (second : Derives b v) :
    Derives (.seq a b) (u ++ v)
  | left {a b : Ebnf} {w : List Kind} (h : Derives a w) : Derives (.alt a b) w
  | right {a b : Ebnf} {w : List Kind} (h : Derives b w) : Derives (.alt a b) w
  | none {a : Ebnf} : Derives (.opt a) []
  | some {a : Ebnf} {w : List Kind} (h : Derives a w) : Derives (.opt a) w
  | nil {a : Ebnf} : Derives (.many a) []
  | cons {a : Ebnf} {u v : List Kind} (first : Derives a u) (rest : Derives (.many a) v) :
    Derives (.many a) (u ++ v)

/-! ### Kinds in words -/

/-- The kinds that a right-hand side names itself. What the rules that it refers to name is left to
them. -/
def Ebnf.kinds : Ebnf → List Kind
  | .token ks => ks
  | .rule _ => []
  | .seq a b | .alt a b => a.kinds ++ b.kinds
  | .opt a | .many a => a.kinds

/-- A derived word is made of kinds that the right-hand side or some rule names. -/
theorem Derives.mem_kinds {e : Ebnf} {w : List Kind} (h : Derives e w) {k : Kind} (hk : k ∈ w) :
    k ∈ e.kinds ∨ ∃ r : Rule, k ∈ r.body.kinds := by
  induction h with
  | token mem =>
    rw [List.mem_singleton] at hk
    exact .inl (hk ▸ mem)
  | @rule r w _ ih => exact .inr ((ih hk).elim (fun h => ⟨r, h⟩) id)
  | seq _ _ ih ih' =>
    rcases List.mem_append.1 hk with hk | hk
    · exact (ih hk).imp_left (List.mem_append_left _)
    · exact (ih' hk).imp_left (List.mem_append_right _)
  | left _ ih => exact (ih hk).imp_left (List.mem_append_left _)
  | right _ ih => exact (ih hk).imp_left (List.mem_append_right _)
  | none | nil => cases hk
  | some _ ih => exact ih hk
  | cons _ _ ih ih' => exact (List.mem_append.1 hk).elim ih ih'

/-- No rule names the end of the input or a lexical error. -/
private theorem Rule.not_mem_kinds (r : Rule) : .eof ∉ r.body.kinds ∧ .error ∉ r.body.kinds := by
  cases r <;> decide

/-- No word that can be derived from a rule goes past the end of the input or over a lexical
error. -/
theorem Derives.ne_eof_and_ne_error {r : Rule} {w : List Kind} (h : Derives (.rule r) w) {k : Kind}
    (hk : k ∈ w) : k ≠ .eof ∧ k ≠ .error := by
  obtain hr | ⟨r, hr⟩ := h.mem_kinds hk
  · cases hr
  · constructor
    · rintro rfl
      exact r.not_mem_kinds.1 hr
    · rintro rfl
      exact r.not_mem_kinds.2 hr

end MiniPascal
