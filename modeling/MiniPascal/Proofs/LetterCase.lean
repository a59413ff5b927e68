import MiniPascal.Parse.Parser
import MiniPascal.Proofs.Lexing.LetterCase
import MiniPascal.Proofs.Natural

/-!
# Letter case does not matter

A text in lower case has the same tokens in lower case, and no rule of the parser looks at the text
of a token. So it holds the same program, with the texts of its tokens in lower case and the same
ids, or it is rejected at the same place (`scan_and_parseText_toLower`).

Only the letters from `A` to `Z` are made small. Other letters may be in names, too, and two names
that differ in such letters are different ones.
-/

namespace MiniPascal

/-- Whether two results of parsing are the same but for letter case: the second is the program of
the first with its texts in lower case, or a failure at the same line and column. -/
inductive SameButCase : Except Diagnostic Program → Except Diagnostic Program → Prop where
  | ok (p : Program) : SameButCase (.ok p) (.ok (p.map Token.toLower fun id => id))
  | error {d e : Diagnostic} (pos : e.pos = d.pos) : SameButCase (.error d) (.error e)

/-- A parser that sees the tokens in lower case gives the same result but for letter case. -/
theorem Parser.sameButCase_parse {p q : Parser} (hid : q.nextId = p.nextId)
    (htokens : q.feed.tokens = p.feed.tokens.map Token.toLower) (heof : q.feed.eof = p.feed.eof) :
    SameButCase p.parse.1 q.parse.1 := by
  have hhead : ∀ ts : List Token,
      ((ts.map Token.toLower).headD q.feed.eof).pos = (ts.headD p.feed.eof).pos := by
    intro ts
    cases ts with
    | nil => exact congrArg Token.pos heof
    | cons t ts => exact t.pos_toLower
  rw [parse, parse, hid, htokens]
  cases hrun : Parse.program ⟨p.feed.tokens, p.nextId⟩ with
  | ok program c =>
    obtain ⟨rest, n⟩ := c
    have hlower : Parse.program ⟨p.feed.tokens.map Token.toLower, p.nextId⟩ =
        .ok (program.map Token.toLower fun id => id) ⟨rest.map Token.toLower, n⟩ :=
      Natural.program_eq_ok (.relabelling Token.toLower Token.kind_toLower) rfl rfl hrun
    rw [hlower]
    exact .ok program
  | error cause c =>
    obtain ⟨rest, n⟩ := c
    have hlower : Parse.program ⟨p.feed.tokens.map Token.toLower, p.nextId⟩ =
        .error cause ⟨rest.map Token.toLower, n⟩ :=
      Natural.program_eq_error (.relabelling Token.toLower Token.kind_toLower) rfl rfl hrun
    rw [hlower]
    exact .error (hhead rest)

/-- A text in lower case is scanned to the same tokens with their texts in lower case, and it holds
the same program with its texts in lower case, or is rejected at the same line and column. -/
theorem scan_and_parseText_toLower (file text : String) :
    scan text.toLower = (scan text).map Token.toLower ∧
      SameButCase (parseText file text) (parseText file text.toLower) :=
  ⟨scan_toLower text, Parser.sameButCase_parse rfl (Lexer.tokens_toLower text file)
    (Lexer.eof_toLower text file)⟩

end MiniPascal
