import Mathlib.Data.List.TakeWhile
import MiniPascal.Parse.Parser
import MiniPascal.Proofs.Grammar.Readable
import MiniPascal.Proofs.Grammar.RulesFollow
import MiniPascal.Proofs.Reading.CompleteProgram

/-!
# The language of the parser

A parser that is given tokens returns a program exactly if their kinds can be derived from the
grammar (`Parser.accepts_iff`). It never goes back, so at each choice the way it takes
must lead to a program if any way does; that this is so is the content of the direction from
derivations to runs, which goes through readings: what can be derived can be read, and what can be
read is returned. In the other direction, a run follows the grammar.
-/

namespace MiniPascal

namespace Parse

/-- Up to the end of the tokens, the rule for programs accepts what can be derived. -/
theorem exists_program_iff_derives {ts : List Token} (hts : ∀ t ∈ ts, t.kind ≠ .eof) (n : ExprId) :
    (∃ p c', program ⟨ts, n⟩ = .ok p c') ↔ Derives (.rule .program) (ts.map Token.kind) := by
  constructor
  · rintro ⟨p, c', h⟩
    obtain ⟨hreads, hend⟩ := readsProgram_of_program h
    have hfollows := follows_program ⟨ts, n⟩
    rw [h] at hfollows
    obtain ⟨w, hw, hd⟩ := hfollows
    -- no token is for the end, so none is left
    have hnil : c'.rest = [] := by
      obtain ⟨_ | ⟨t, r⟩, n'⟩ := c'
      · rfl
      · exact absurd hend (hts t (hreads.reaches.subset List.mem_cons_self))
    rw [Cursor.kinds, Cursor.kinds, hnil, List.map_nil, List.append_nil] at hw
    exact hw ▸ hd
  · intro h
    obtain ⟨p, n', hreads⟩ := readsProgram_of_derives h n
    exact ⟨p, _, program_of_reads hreads (Cursor.kind_nil n')⟩

end Parse

/-- A token of which only the kind matters: it has no text, and stands at the start. It is put where
any token of that kind would do. -/
def Token.bare (kind : Kind) : Token :=
  ⟨kind, "", .start⟩

namespace Parser

/-- A fresh parser over a stream of tokens that are given. The stream makes the end token for
itself. It gives out ids from zero. -/
def ofTokens (ts : List Token) : Parser :=
  .ofSource (.stream (.ofTokens ts))

/-- Whether a fresh parser over a stream of the tokens returns a program. Only the kinds of the
tokens matter to that (`accepts_iff`). All of the tokens up to the first end must have been used. -/
def Accepts (ts : List Token) : Prop :=
  ∃ p, (ofTokens ts).parse.1 = .ok p

/-- The tokens ahead of a fresh parser are those that it was given, up to an end token. -/
theorem tokens_ofTokens {ts : List Token} (hts : ∀ t ∈ ts, t.kind ≠ .eof) :
    (ofTokens ts).feed.tokens = ts :=
  List.takeWhile_eq_self_iff.2 fun t ht => decide_eq_true (hts t ht)

/-- Tokens none of which is for the end are accepted if their kinds can be derived. -/
theorem accepts_iff {ts : List Token} (hts : ∀ t ∈ ts, t.kind ≠ .eof) :
    Accepts ts ↔ Derives (.rule .program) (ts.map Token.kind) := by
  simp only [Accepts, parse_eq_ok_iff, tokens_ofTokens hts]
  exact Parse.exists_program_iff_derives hts _

/-- A fresh parser over tokens none of which is for the end returns a program exactly if their kinds
can be derived from the grammar, and then none of them is a lexical error. -/
theorem accepts_iff_derives_and_no_error {ts : List Token} (hts : ∀ t ∈ ts, t.kind ≠ .eof) :
    (Accepts ts ↔ Derives (.rule .program) (ts.map Token.kind)) ∧
      (Accepts ts → ∀ t ∈ ts, t.kind ≠ .error) := by
  refine ⟨accepts_iff hts, fun h t ht => ?_⟩
  exact (((accepts_iff hts).1 h).ne_eof_and_ne_error (List.mem_map_of_mem ht)).2

/-- In two conditional statements, one in the other, there may be one `else`. -/
theorem accepts_iff_derives_and_no_error_else :
    let ts := ([.keyword .program, .ident, .mark .semicolon, .keyword .begin, .keyword .if, .ident,
      .keyword .then, .keyword .if, .ident, .keyword .then, .ident, .keyword .else, .ident,
      .keyword .end, .mark .period] : List Kind).map Token.bare
    (∀ t ∈ ts, t.kind ≠ .eof) ∧ Derives (.rule .program) (ts.map Token.kind) := by
  intro ts
  have hts : ∀ t ∈ ts, t.kind ≠ .eof := by decide
  have hrun : (ofTokens ts).parse.1.toOption.isSome = true := by decide +kernel
  refine ⟨hts, (accepts_iff_derives_and_no_error hts).1.1 ?_⟩
  cases h : (ofTokens ts).parse.1 with
  | ok p => exact ⟨p, h⟩
  | error e =>
    rw [h] at hrun
    cases hrun

end Parser

end MiniPascal
