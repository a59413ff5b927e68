import MiniPascal.Source.Feed

/-!
# Token streams

A **token stream** gives tokens that were made elsewhere. It repeats an end token when it has run
out: the latest one among the tokens given, or else one of its own, which it places right behind the
last token. An end token among the tokens given is passed on like any other, and so are the tokens
after it; a parser stops at the first one and never sees those.
-/

namespace MiniPascal

/-- A queue of tokens, and what follows it. The queue is taken as it is: it may hold errors and even
end tokens. -/
structure TokenStream where
  file : String
  lineCount : Nat
  queue : List Token
  /-- The token that is repeated when the queue is empty. -/
  eof : Token
deriving DecidableEq, Repr

namespace TokenStream

/-- The end token that a stream makes for itself: right behind the last token, if there is one. The
text of a token stands for its width, which is one at least. -/
def eofAfter (tokens : List Token) : Token :=
  match tokens.getLast? with
  | none => ⟨.eof, "", .start⟩
  | some last => ⟨.eof, "", last.pos.line, last.pos.column + max 1 last.text.length⟩

/-- The token that a stream makes for the end is an end token. -/
theorem kind_eofAfter (tokens : List Token) : (eofAfter tokens).kind = .eof := by
  rw [eofAfter]
  split <;> rfl

/-- A stream of the given tokens, which ends right behind the last of them. It has as many lines as
the lowest token says. -/
def ofTokens (tokens : List Token) (file : String := Feed.anonymous) : TokenStream where
  file := file
  lineCount := (tokens.map fun token => token.pos.line).max?.getD 1
  queue := tokens
  eof := eofAfter tokens

/-- The next token, and the stream after it. An end token of the queue takes the place of the one
that is repeated behind the queue. -/
def next (stream : TokenStream) : Token × TokenStream :=
  match stream.queue with
  | [] => (stream.eof, stream)
  | token :: queue =>
    (token, { stream with queue, eof := if token.kind = .eof then token else stream.eof })

/-- What is ahead of a stream, up to the first end token: one of the queue if it has any, and
otherwise the one that the stream repeats. -/
def feed (stream : TokenStream) : Feed where
  file := stream.file
  lineCount := stream.lineCount
  tokens := stream.queue.takeWhile fun token => token.kind ≠ .eof
  eof := (stream.queue.find? fun token => token.kind = .eof).getD stream.eof

/-- The next token is the head of the feed. -/
theorem next_fst (stream : TokenStream) : stream.next.1 = stream.feed.head := by
  cases h : stream.queue with
  | nil => simp [next, feed, Feed.head, h]
  | cons token queue =>
    by_cases eof : token.kind = .eof <;> simp [next, feed, Feed.head, h, eof]

/-- No token of the feed is for the end. -/
theorem kind_ne_eof_of_cons {stream : TokenStream} {token : Token} {tokens : List Token}
    (h : stream.feed.tokens = token :: tokens) : token.kind ≠ .eof := by
  have hhead : stream.feed.tokens.head? = some token := by rw [h, List.head?_cons]
  rw [feed, List.head?_takeWhile, Option.filter_eq_some_iff] at hhead
  simpa using hhead.2

/-- A token that is not for the end leaves the tail of the feed. -/
theorem feed_next {stream : TokenStream} (h : stream.feed.head.kind ≠ .eof) :
    stream.next.2.feed = stream.feed.tail := by
  cases hq : stream.queue with
  | nil => simp [next, feed, Feed.tail, hq]
  | cons token queue =>
    by_cases eof : token.kind = .eof
    · simp [feed, Feed.head, hq, eof] at h
    · simp [next, feed, Feed.tail, hq, eof]

end TokenStream

end MiniPascal
