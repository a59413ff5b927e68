import MiniPascal.Token.Basic

/-!
# Feeds

A **feed** is all that a parser will ever see of a token source: the tokens up to the end of the
input, then one end token again and again. With them come the name of the file and the number of
its lines, which diagnostics quote.
-/

namespace MiniPascal

/-- The tokens of a source up to its end, together with what diagnostics say about the source. A
parser takes the end token for granted and never passes it. -/
structure Feed where
  file : String
  lineCount : Nat
  /-- The tokens before the end. -/
  tokens : List Token
  /-- The token that stands for the end. -/
  eof : Token
deriving DecidableEq, Repr

namespace Feed

/-- The name of a source that is no file, which diagnostics then give in place of one. -/
def anonymous : String := "<input>"

/-- The next token of a feed, which is the end token when no other is left. -/
def head (feed : Feed) : Token :=
  feed.tokens.headD feed.eof

/-- A feed without its next token; the end stays, so that there is a next token again. -/
def tail (feed : Feed) : Feed :=
  { feed with tokens := feed.tokens.tail }

end Feed

end MiniPascal
