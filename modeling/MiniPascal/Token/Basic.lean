import MiniPascal.Token.Kind
import MiniPascal.Token.Position

/-!
# Tokens

A token has a kind, a text and the position of its first character. The text of a literal is its
value without quotes, that of a lexical error is the message, that of the end of input is empty,
and any other token keeps its lexeme as it was written.

`Token.display` writes a token back: it puts the quotes around a string or a character again and
doubles a quote character that stands between single quotes.
-/

namespace MiniPascal

/-- A classified lexeme: its kind, its text as it stands in the source, less the quotes of a
literal, and the position where it begins. The text of an error is its message. -/
structure Token where
  kind : Kind
  text : String
  pos : Position
deriving DecidableEq, Repr

namespace Token

/-- Doubles every single quote of a text. This is how the value of a character literal stands
between its own quotes, and the only escape of the language. -/
def doubleQuotes (text : List Char) : List Char :=
  text.flatMap fun c => if c = '\'' then [c, c] else [c]

/-- A token as it is written: its text, with its quotes around it if it is a string or a character
literal. The end of the input has no text and goes by the name of its kind. -/
def display (token : Token) : String :=
  match token.kind with
  | .literal .string => "\"" ++ token.text ++ "\""
  | .literal .char => "'" ++ String.ofList (doubleQuotes token.text.toList) ++ "'"
  | .eof => Kind.eof.display
  | _ => token.text

/-- A token without its position, which is replaced by the first of a text. Two tokens are the same
word of the language if they are equal after this (`same_iff`). -/
def unplaced (token : Token) : Token :=
  { token with pos := .start }

/-- Whether two tokens are the same word of the language: kind and text are compared, and where they
stand does not matter. Trees are compared by this, too. -/
def same (a b : Token) : Bool :=
  a.kind = b.kind && a.text = b.text

/-- Sameness is equality but for positions. -/
theorem same_iff {a b : Token} : a.same b = true ↔ a.unplaced = b.unplaced := by
  simp [same, unplaced]

end Token

end MiniPascal
