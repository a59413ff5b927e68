import MiniPascal.Syntax.Expr

/-!
# Parsing actions

A parsing action reads tokens from the left and hands out ids for expressions. It decides by the
kind of the next token alone and never gives a token back. If it fails, it stops where it stands:
the failure is a **cause**, and the token at fault is the next one.

Recursion goes through `Parse.fix`. A rule that refers to itself may do so once it has taken a
token, which makes every chain of references end; `Parse.fix_eq` is its one equation.
-/

namespace MiniPascal

/-- What a parsing action reads: the tokens ahead, up to the end of the input, and the next id. When
no token is left, the kind of the next one is the end. -/
structure Cursor where
  rest : List Token
  nextId : ExprId
deriving DecidableEq, Repr

/-- Why an action failed at a token. It does not mention the token: that is the one at which the
cursor stands. Message and position are made of both by the parser (`Parser.diagnose`). -/
inductive Cause where
  /-- A token of one of these kinds should be there. -/
  | expected (kinds : List Kind)
  /-- A statement should begin there. -/
  | statement
  /-- An operand should be there. -/
  | operand
  /-- Nothing should be there. -/
  | unexpected
deriving DecidableEq, Repr

/-- How a message refers to a token that was found: names and literals with what they are, other
lexemes as they stand in the source. It is the second half of most messages. -/
def Token.describe (token : Token) : String :=
  match token.kind with
  | .eof => token.kind.display
  | .ident => token.kind.display ++ " '" ++ token.text ++ "'"
  | .literal _ => token.kind.display ++ " " ++ token.display
  | _ => "'" ++ token.text ++ "'"

/-- The message for a failure at a token: what should be there, and what was found. A lexical error
speaks for itself. -/
def Cause.message (cause : Cause) (found : Token) : String :=
  if found.kind = .error then found.text
  else
    match cause with
    | .expected kinds =>
      "Expecting " ++ " or ".intercalate (kinds.map Kind.display) ++ ", found " ++ found.describe
    | .statement => "Expecting statement, found " ++ found.describe
    | .operand => "Expecting identifier or literal, found " ++ found.describe
    | .unexpected => "Unexpected " ++ found.describe

/-- The message of a lexical error is its text. -/
theorem Cause.message_of_error (cause : Cause) {found : Token} (h : found.kind = .error) :
    cause.message found = found.text :=
  if_pos h

/-- A parsing action: from a cursor to a value and the cursor behind what it has taken, or to a
cause and the cursor where it failed. The cursor is the state, so that a failure tells how far the
input was read. -/
abbrev Parse := EStateM Cause Cursor

namespace Parse

/-- The kind of the next token, which stays. Behind the last one it is the end of the input, so
there always is one. -/
def peek : Parse Kind := fun cursor =>
  match cursor.rest with
  | [] => .ok .eof cursor
  | token :: _ => .ok token.kind cursor

/-- Takes the next token, of whatever kind. The end of the input is never taken: to try so is a
failure, which no rule provokes. Rules look at the kind first and take the token then. -/
def take : Parse Token := fun cursor =>
  match cursor.rest with
  | [] => .error .unexpected cursor
  | token :: rest => .ok token { cursor with rest }

/-- Takes a token of the given kind, and fails at any other one with the kind that should be there.
Names, keywords and marks are taken by it. -/
def expect (kind : Kind) : Parse Token := do
  if (← peek) = kind then take else throw (.expected [kind])

/-- Takes a name, that is, a word that is not reserved. The token is kept, since a tree stores
it. -/
def name : Parse Token :=
  expect .ident

/-- Takes a keyword, in whatever letter case it is written. Nothing of it is kept. The tree says by
its shape where it stood. -/
def keyword (word : Keyword) : Parse Unit := do
  let _ ← expect (.keyword word)

/-- Takes a punctuation mark. Nothing of it is kept, since there is only one way to write it. -/
def mark (mark : Mark) : Parse Unit := do
  let _ ← expect (.mark mark)

/-- Hands out the next id. After the last one they begin again, as the width of an id demands. It
takes no token, and a rule does it when a node is finished. -/
def freshId : Parse ExprId := fun cursor =>
  .ok cursor.nextId { cursor with nextId := cursor.nextId + 1 }

/-! ### Recursion and lists -/

/-- The action that a rule describes in terms of itself. A reference is followed only where fewer
tokens are ahead than there were at the beginning of the rule. -/
def fix {ι α : Type} (rule : (ι → Parse α) → ι → Parse α) (i : ι) (start : Cursor) :
    EStateM.Result Cause Cursor α :=
  rule (fun j cursor =>
    if cursor.rest.length < start.rest.length then fix rule j cursor
    else .error .unexpected cursor) i start
termination_by start.rest.length

/-- A recursive action is its rule, with references to itself where fewer tokens are ahead. -/
theorem fix_eq {ι α : Type} (rule : (ι → Parse α) → ι → Parse α) (i : ι) (start : Cursor) :
    fix rule i start =
      rule (fun j cursor =>
        if cursor.rest.length < start.rest.length then fix rule j cursor
        else .error .unexpected cursor) i start := by
  rw [fix]

/-- One or more items with a punctuation mark between them. A mark that stands behind an item calls
for another item. The list is not empty, and no mark is taken behind its last item. -/
def separated {α : Type} (separator : Mark) (item : Parse α) : Parse (List α) :=
  fix (fun self (_ : Unit) => do
    let first ← item
    if (← peek) = .mark separator then
      let _ ← take
      return first :: (← self ())
    else
      return [first]) ()

/-- Any number of items in parentheses, with commas between them. Nothing may stand between the
parentheses, but a comma only between two items. -/
def parenthesized {α : Type} (item : Parse α) : Parse (List α) := do
  mark .openParen
  if (← peek) = .mark .closeParen then
    let _ ← take
    return []
  else
    let items ← separated .comma item
    mark .closeParen
    return items

end Parse

end MiniPascal
