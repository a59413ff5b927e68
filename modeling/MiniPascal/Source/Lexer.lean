import MiniPascal.Segment.OfText
import MiniPascal.Source.Feed
import MiniPascal.Text.Lines

/-!
# Lexers

A **lexer** walks along the segments of a source text and gives its tokens one by one. It keeps two
positions: where it stands, and where the input can be said to end, which is right after the latest
token. White space and comments at the end of a text thus do not move the end token, and neither
does a comment that is never closed, although it is reported as an error where it begins.

`Lexer.feed` gives at once what a lexer gives step by step: the next token is the head of the feed
and leaves its tail (`feed_next`).
-/

namespace MiniPascal

/-- A walk along the segments of a text. It keeps two positions, since the input ends where the last
token does, and trivia may lie between the two. -/
structure Lexer where
  file : String
  /-- The number of lines of the whole text. -/
  lineCount : Nat
  /-- The segments ahead. -/
  rest : List Segment
  /-- Where the segments ahead begin. -/
  pos : Position
  /-- Where the input ends if no token is ahead. -/
  stop : Position
deriving DecidableEq, Repr

namespace Lexer

/-- A lexer at the beginning of a text, which is cut into segments at once; positions are counted as
the lexer passes them. -/
def ofText (text : String) (file : String := Feed.anonymous) : Lexer where
  file := file
  lineCount := MiniPascal.lineCount text.toList
  rest := Segment.ofText text.toList
  pos := .start
  stop := .start

/-- The token for the end of the input, if no other token is ahead. It has no text and stands right
behind the last token that was passed. -/
def eof (lexer : Lexer) : Token :=
  ⟨.eof, "", lexer.stop⟩

/-- Passes a segment, after which other segments are ahead. The position always moves on, and the
end of the input only if the segment says so. -/
def pass (lexer : Lexer) (segment : Segment) (rest : List Segment) : Lexer :=
  let there := lexer.pos.after segment.chars
  { lexer with
    rest := rest
    pos := there
    stop := if segment.isEnding then there else lexer.stop }

/-- The next token, and the lexer after it: segments without a token are passed over. At the end the
lexer stays where it is. -/
def next (lexer : Lexer) : Token × Lexer :=
  match _ : lexer.rest with
  | [] => (lexer.eof, lexer)
  | segment :: rest =>
    match segment.token? lexer.pos with
    | some token => (token, lexer.pass segment rest)
    | none => (lexer.pass segment rest).next
termination_by lexer.rest.length
decreasing_by simp_all [pass]

/-! ### What is ahead -/

/-- The tokens of a list of segments that begins at the given position: what `next` gives one by one
until the end, as one list. -/
def tokensFrom (pos : Position) : List Segment → List Token
  | [] => []
  | segment :: rest =>
    (segment.token? pos).toList ++ tokensFrom (pos.after segment.chars) rest

/-- Where the input ends that has the given segments ahead: right behind the last of them that is an
ending, or at `stop` if there is none. -/
def stopFrom (pos stop : Position) : List Segment → Position
  | [] => stop
  | segment :: rest =>
    let there := pos.after segment.chars
    stopFrom there (if segment.isEnding then there else stop) rest

/-- All that is ahead of a lexer: the tokens of its segments, and the end of the input behind the
last of them. `feed_next` ties it to pulling one by one. -/
def feed (lexer : Lexer) : Feed where
  file := lexer.file
  lineCount := lexer.lineCount
  tokens := tokensFrom lexer.pos lexer.rest
  eof := ⟨.eof, "", stopFrom lexer.pos lexer.stop lexer.rest⟩

/-- Passing a segment takes its token, if it has one, from the feed. -/
theorem feed_of_rest_eq_cons {lexer : Lexer} {segment : Segment} {rest : List Segment}
    (h : lexer.rest = segment :: rest) :
    lexer.feed = { (lexer.pass segment rest).feed with
      tokens := (segment.token? lexer.pos).toList ++ (lexer.pass segment rest).feed.tokens } := by
  simp [feed, pass, h, tokensFrom, stopFrom]

/-- The next token is the head of the feed and leaves its tail. -/
theorem feed_next (lexer : Lexer) :
    lexer.next.1 = lexer.feed.head ∧ lexer.next.2.feed = lexer.feed.tail := by
  fun_induction next lexer with
  | case1 lexer h =>
    simp [feed, Feed.head, Feed.tail, eof, h, tokensFrom, stopFrom]
  | case2 lexer segment rest h token htoken =>
    simp [feed_of_rest_eq_cons h, htoken, Feed.head, Feed.tail]
  | case3 lexer segment rest h htoken ih =>
    simp [feed_of_rest_eq_cons h, htoken, ih]

end Lexer

/-- All tokens of a text, the one for its end included, which is the last one. Errors are among
them, so every text has a scan. -/
def scan (text : String) : List Token :=
  let feed := (Lexer.ofText text).feed
  feed.tokens ++ [feed.eof]

end MiniPascal
