import MiniPascal.Token.Basic

/-!
# Segments of a source text

A source text falls into **segments**: single blanks, comments, lexemes and faulty stretches. A
segment knows its characters, of which there is at least one, but not where it stands. Lexemes and
faults give rise to tokens, blanks and comments do not.

A fault that ends with the line leaves the rest of the text readable. The one fault that does not is
a comment that is never closed: it takes all the rest.
-/

namespace MiniPascal

/-- What is wrong with a faulty stretch of text: a comment or a literal that is not closed, a
character literal of the wrong length, or a character that begins no lexeme. -/
inductive LexicalError where
  | openComment
  | openString
  | openChar
  | emptyChar
  | longChar
  | unknownSymbol (c : Char)
deriving DecidableEq, Repr

/-- The message for a faulty stretch of text, which is the text of the token that stands for it. An
unknown character is quoted as it is. -/
def LexicalError.message : LexicalError → String
  | .openComment => "Unterminated comment"
  | .openString => "Unterminated string literal"
  | .openChar => "Unterminated char literal"
  | .emptyChar => "Empty char literal"
  | .longChar => "Char literal must hold exactly one character"
  | .unknownSymbol c => "Unknown symbol '" ++ String.singleton c ++ "'"

/-- What a segment is: one of the two kinds of trivia, which leave no token, a lexeme, or a stretch
of text that is faulty. -/
inductive Form where
  | blank
  | comment
  /-- A lexeme with the kind and the text of its token. -/
  | lexeme (kind : Kind) (text : String)
  | fault (error : LexicalError)
deriving DecidableEq, Repr

/-- A stretch of source text: its form, its first character and the further ones. A segment is never
empty, since it has a first character. -/
structure Segment where
  form : Form
  first : Char
  more : List Char
deriving DecidableEq, Repr

namespace Segment

/-- The characters of a segment, the first and the further ones. Those of all segments, one after
the other, are the text (`flatMap_chars_ofText`). -/
def chars (segment : Segment) : List Char :=
  segment.first :: segment.more

/-- The token of a segment that stands at the given position: none for trivia, and an error with its
message for a faulty stretch. -/
def token? (segment : Segment) (pos : Position) : Option Token :=
  match segment.form with
  | .blank | .comment => none
  | .lexeme kind text => some ⟨kind, text, pos⟩
  | .fault error => some ⟨.error, error.message, pos⟩

/-- Whether the end of the segment is where the input can be said to end. Trivia are passed over,
and so is a comment that is not closed, although it is an error. -/
def isEnding (segment : Segment) : Bool :=
  match segment.form with
  | .blank | .comment | .fault .openComment => false
  | .lexeme _ _ | .fault _ => true

end Segment

end MiniPascal
