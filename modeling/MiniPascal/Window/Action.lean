import MiniPascal.Diagnostic
import MiniPascal.Parse.Basic
import MiniPascal.Source.Basic
import MiniPascal.Token.Lookback

/-!
# Parsing with a window

A parser can do with little memory: it pulls one token after the other from a source, has the next
one in hand, and keeps the two that it took last in a lookback window. A rule learns from the window
which token it has just taken.

The actions here are those from which such a parser is built. An action that fails stops where it
stands, with the finished diagnostic for the token in hand. To look further back than the window is
wide would be a mistake of the parser and not of its input, and has an outcome of its own.
-/

namespace MiniPascal

/-- A source, the token in hand, the tokens taken last, and the next id. It is all that such a
parser remembers; the tokens ahead stay in the source. -/
structure WindowParser where
  /-- The tokens that are not pulled yet. -/
  source : TokenSource
  token : Token
  window : Lookback 2
  nextId : ExprId

/-- Why an action ends without a value: it looks back too far, which would be a mistake of the
parser, or it fails at a token of the input. -/
inductive Halt where
  | lookback (error : LookbackError)
  | failure (diagnostic : Diagnostic)
deriving DecidableEq, Repr

namespace WindowParser

/-- A parser at the beginning of a source, with the first token in hand. The window is filled with
that token. So looking back is never undefined, not even before the first token has been taken. -/
def ofSource (source : TokenSource) : WindowParser where
  source := source.next.2
  token := source.next.1
  window := .ofSeed source.next.1 (by decide)
  nextId := 0

/-- Takes the token in hand, which the window then remembers, and pulls the next one. The end of the
input could be taken, too; no rule does so. -/
def advance (parser : WindowParser) : WindowParser where
  source := parser.source.next.2
  token := parser.source.next.1
  window := parser.window.push parser.token
  nextId := parser.nextId

/-- The tokens ahead, up to the end of the input: the one in hand and those of the feed behind it.
No action looks at it, but `fix` counts by it. -/
def ahead (parser : WindowParser) : List Token :=
  if parser.token.kind = .eof then [] else parser.token :: parser.source.feed.tokens

/-- The diagnostic for the token in hand, where it stands. A lexical error replaces the message by
its own. File and number of lines come from the source. -/
def diagnostic (parser : WindowParser) (message : String) : Diagnostic where
  file := parser.source.file
  lineCount := parser.source.lineCount
  pos := parser.token.pos
  message := if parser.token.kind = .error then parser.token.text else message

end WindowParser

/-- An action of a parser with a window: it changes the parser and gives a value, or halts and
leaves the parser where it stands. It is `Parse` for a parser that sees one token ahead and two
behind. -/
abbrev Windowed := EStateM Halt WindowParser

namespace Windowed

variable {α ι : Type}

/-- Whether the token in hand is of one of these kinds. Nothing is taken. It is how a rule decides
without changing anything. -/
def peek (kinds : List Kind) : Windowed Bool := fun parser =>
  .ok (decide (parser.token.kind ∈ kinds)) parser

/-- Takes the token in hand if it is of one of these kinds, and tells whether it did. The token
itself is asked of the window (`prev`). -/
def accept (kinds : List Kind) : Windowed Bool := fun parser =>
  if parser.token.kind ∈ kinds then .ok true parser.advance else .ok false parser

/-- The token that was taken the given number of tokens before the latest. The window is two tokens
wide, so only the last two can be asked for. -/
def back (steps : Nat) : Windowed Token := fun parser =>
  match parser.window.back steps with
  | .ok token => .ok token parser
  | .error e => .error (.lookback e) parser

/-- The token that was taken last: the one that an `accept` has just found. It gives the token back
that `accept` only reports. -/
def prev : Windowed Token :=
  back 0

/-- The token that was taken before the last. An assignment asks for its target by this, after the
sign has been taken. It is as far as any rule looks back. -/
def prevPrev : Windowed Token :=
  back 1

/-- Fails at the token in hand, with a message about it, and leaves the parser where it is. -/
def fail (message : Token → String) : Windowed α := fun parser =>
  .error (.failure (parser.diagnostic (message parser.token))) parser

/-- The message for a token that is of none of these kinds: what should be there, and how the one
that is there is described. It is the message of `Cause.expected`. -/
def expecting (kinds : List Kind) (found : Token) : String :=
  "Expecting " ++ " or ".intercalate (kinds.map Kind.display) ++ ", found " ++ found.describe

/-- Takes a token of one of these kinds, and fails at any other one. The token is given back by way
of the window. A failure names all of the kinds. -/
def expect (kinds : List Kind) : Windowed Token := do
  if ← accept kinds then
    prev
  else
    fail (expecting kinds)

/-- Hands out the next id. After the last one they begin again, as the width of an id demands. It
takes no token, and a rule does it when a node is finished. -/
def freshId : Windowed ExprId := fun parser =>
  .ok parser.nextId { parser with nextId := parser.nextId + 1 }

/-- The message for a token that should not be there, whatever else might: it says only what was
found. It is the message of `Cause.unexpected`. -/
def unexpected (found : Token) : String :=
  "Unexpected " ++ found.describe

/-- The action that a rule describes in terms of itself. A reference is followed only where fewer
tokens are ahead than there were at the beginning of the rule. -/
def fix (rule : (ι → Windowed α) → ι → Windowed α) (i : ι) (start : WindowParser) :
    EStateM.Result Halt WindowParser α :=
  rule (fun j parser =>
    if parser.ahead.length < start.ahead.length then fix rule j parser
    else fail unexpected parser) i start
termination_by start.ahead.length

/-- A recursive action is its rule, with references to itself where fewer tokens are ahead. -/
theorem fix_eq (rule : (ι → Windowed α) → ι → Windowed α) (i : ι) (start : WindowParser) :
    fix rule i start =
      rule (fun j parser =>
        if parser.ahead.length < start.ahead.length then fix rule j parser
        else fail unexpected parser) i start := by
  rw [fix]

/-- One or more items with commas between them. A comma that stands behind an item calls for another
item. The list is not empty. -/
def separated (item : Windowed α) : Windowed (List α) :=
  fix (fun self (_ : Unit) => do
    let first ← item
    if ← accept [.mark .comma] then
      return first :: (← self ())
    else
      return [first]) ()

/-- Items up to a closing parenthesis, which stays. If it is there at once, there are none;
otherwise there is at least one. A parameter list and the arguments of a call are read like this. -/
def itemsBefore (item : Windowed α) : Windowed (List α) := do
  if ← peek [.mark .closeParen] then
    return []
  else
    separated item

/-- Any number of items in parentheses, with commas between them. Both parentheses are taken. -/
def parenthesized (item : Windowed α) : Windowed (List α) := do
  let _ ← expect [.mark .openParen]
  let items ← itemsBefore item
  let _ ← expect [.mark .closeParen]
  return items

end Windowed

end MiniPascal
