import MiniPascal.Source.Lexer
import MiniPascal.Source.Stream

/-!
# Token sources

A parser reads from either of two **token sources**: a lexer over a source text, or a stream of
tokens that were made elsewhere. Both give one token at a time and never run dry. What a parser
sees of a source is its feed.
-/

namespace MiniPascal

/-- Where tokens come from: the text of a program, or a list of tokens made elsewhere. A parser does
not tell the two apart, apart from the position of the end. -/
inductive TokenSource where
  | lexer (lexer : Lexer)
  | stream (stream : TokenStream)
deriving DecidableEq, Repr

namespace TokenSource

/-- The next token, and the source after it. At its end a source gives the end token again and
again, so there always is a next one. -/
def next : TokenSource → Token × TokenSource
  | .lexer l => (l.next.1, .lexer l.next.2)
  | .stream s => (s.next.1, .stream s.next.2)

/-- The name that diagnostics give the source: that of a file, or `Feed.anonymous` if nothing else
is known. -/
def file : TokenSource → String
  | .lexer l => l.file
  | .stream s => s.file

/-- The number of lines that diagnostics quote. A lexer counts those of its text, a stream only
those that its tokens stand on. -/
def lineCount : TokenSource → Nat
  | .lexer l => l.lineCount
  | .stream s => s.lineCount

/-- The next tokens, as many as asked for, and the source after them: the same as to ask for the
next one again and again. -/
def take : Nat → TokenSource → List Token × TokenSource
  | 0, source => ([], source)
  | count + 1, source =>
    let (token, source) := source.next
    let (tokens, source) := take count source
    (token :: tokens, source)

/-- What a parser sees of the source: the tokens up to the first end, and that end. It does not pull
any token. -/
def feed : TokenSource → Feed
  | .lexer l => l.feed
  | .stream s => s.feed

/-- The next token is the head of the feed. -/
theorem next_fst (source : TokenSource) : source.next.1 = source.feed.head := by
  cases source with
  | lexer l => exact l.feed_next.1
  | stream s => exact s.next_fst

/-- A token that is not for the end leaves the tail of the feed. -/
theorem feed_next {source : TokenSource} (h : source.feed.head.kind ≠ .eof) :
    source.next.2.feed = source.feed.tail := by
  cases source with
  | lexer l => exact l.feed_next.2
  | stream s => exact TokenStream.feed_next h

/-- As long as the feed has tokens, pulling one leaves the tail of the feed. -/
theorem feed_next_of_cons {source : TokenSource} {t : Token} {ts : List Token}
    (h : source.feed.tokens = t :: ts) :
    source.next.1 = t ∧ source.next.2.feed = { source.feed with tokens := ts } := by
  have hhead : source.feed.head = t := by rw [Feed.head, h, List.headD_cons]
  have htail : source.feed.tail = { source.feed with tokens := ts } := by
    rw [Feed.tail, h, List.tail_cons]
  refine ⟨source.next_fst.trans hhead, ?_⟩
  rw [← htail]
  cases source with
  | lexer l => exact l.feed_next.2
  | stream s => exact TokenStream.feed_next (hhead ▸ s.kind_ne_eof_of_cons h)

/-- The first tokens of the feed are what pulling gives, and the others are still to come. -/
theorem take_of_feed {source : TokenSource} {ts rest : List Token}
    (h : source.feed.tokens = ts ++ rest) :
    (source.take ts.length).1 = ts ∧
      (source.take ts.length).2.feed = { source.feed with tokens := rest } := by
  induction ts generalizing source with
  | nil => exact ⟨rfl, by rw [← List.nil_append rest, ← h]; rfl⟩
  | cons t ts ih =>
    obtain ⟨hfst, hfeed⟩ := feed_next_of_cons h
    have hnext : source.next.2.feed.tokens = ts ++ rest := by rw [hfeed]; rfl
    obtain ⟨htokens, hleft⟩ := ih hnext
    refine ⟨?_, ?_⟩
    · change source.next.1 :: (source.next.2.take ts.length).1 = t :: ts
      rw [hfst, htokens]
    · change (source.next.2.take ts.length).2.feed = _
      rw [hleft, hfeed]

end TokenSource

end MiniPascal
