import MiniPascal.Diagnostic
import MiniPascal.Parse.Program
import MiniPascal.Source.Basic

/-!
# Parsers

A **parser** stands somewhere in the feed of a token source. Each call of `Parser.parse` reads one
program from where the parser stands, and leaves it at the token where it stopped, after a failure
as after a success. The ids of expressions go on from call to call.
-/

namespace MiniPascal

/-- A place in a feed, and the next id. It can be called again after a program or a failure, and
goes on from where it stands. It is a value: calling it gives the parser as it is afterwards. -/
structure Parser where
  feed : Feed
  nextId : ExprId
deriving DecidableEq, Repr

namespace Parser

/-- A parser at the beginning of a source, which gives out ids from zero. It looks at the feed only,
so where tokens come from makes no difference. -/
def ofSource (source : TokenSource) : Parser :=
  ⟨source.feed, 0⟩

/-- Where a parser stands after an action that ended at the cursor: the tokens ahead and the next id
are those of the cursor, and the rest of the feed stays. -/
def moveTo (parser : Parser) (cursor : Cursor) : Parser :=
  ⟨{ parser.feed with tokens := cursor.rest }, cursor.nextId⟩

/-- The diagnostic for a failure at the next token: it is placed where that token stands, or at the
end if none is left. File and number of lines come from the feed. -/
def diagnose (parser : Parser) (cause : Cause) : Diagnostic :=
  let found := parser.feed.head
  ⟨parser.feed.file, parser.feed.lineCount, found.pos, cause.message found⟩

/-- Reads one program, and gives the parser behind it. If that fails, the parser stands at the token
that the diagnostic is about. The next call goes on from there, with ids that go on, too. -/
def parse (parser : Parser) : Except Diagnostic Program × Parser :=
  match Parse.program ⟨parser.feed.tokens, parser.nextId⟩ with
  | .ok program cursor => (.ok program, parser.moveTo cursor)
  | .error cause cursor =>
    let parser := parser.moveTo cursor
    (.error (parser.diagnose cause), parser)

/-- A parser returns a program if the rule for programs does. -/
theorem parse_eq_ok_iff {parser : Parser} {p : Program} :
    parser.parse.1 = .ok p ↔
      ∃ c, Parse.program ⟨parser.feed.tokens, parser.nextId⟩ = .ok p c := by
  rw [parse]
  cases Parse.program ⟨parser.feed.tokens, parser.nextId⟩ with
  | ok q c => simp
  | error cause c => simp

/-- Reads programs one after the other, as many as asked for, whether or not those before were read.
Each call goes on from where the one before ended. -/
def parseTimes : Nat → Parser → List (Except Diagnostic Program)
  | 0, _ => []
  | count + 1, parser =>
    let (result, parser) := parser.parse
    result :: parseTimes count parser

end Parser

/-- The program that a source text holds. Diagnostics refer to the text by the name of a file. It is
one call of a fresh parser over the lexer of the text, and what is left of the parser is dropped. -/
def parseText (file text : String) : Except Diagnostic Program :=
  (Parser.ofSource (.lexer (Lexer.ofText text file))).parse.1

/-- A text holds a program if the rule for programs returns it for the tokens of the text. -/
theorem parseText_eq_ok_iff {file text : String} {p : Program} : parseText file text = .ok p ↔
    ∃ c, Parse.program ⟨(Lexer.ofText text file).feed.tokens, 0⟩ = .ok p c :=
  Parser.parse_eq_ok_iff

end MiniPascal
