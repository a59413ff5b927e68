import MiniPascal.Proofs.Lexing.Places
import MiniPascal.Proofs.Window.Calls

/-!
# A text and the list of its tokens

The tokens of a text may be pulled from a lexer or from a stream to which they were given as a list.
Both give the same tokens, and the one for the end again and again (`TokenSource.take_lexer`,
`TokenSource.take_stream`). A parser cannot tell the two sources apart but by the number of lines
that they announce, which goes into diagnostics only: the stream takes it from the lowest token, so
it may be smaller than the number of lines of the text.
-/

namespace MiniPascal

/-! ### Pulling -/

namespace TokenSource

/-- A lexer gives the tokens of its feed, and then the end again and again. -/
theorem take_lexer (l : Lexer) (count : Nat) : ((lexer l).take count).1 =
    (l.feed.tokens ++ List.replicate count l.feed.eof).take count := by
  induction count generalizing l with
  | zero => rfl
  | succ count ih =>
    obtain ⟨hhead, htail⟩ := l.feed_next
    change l.next.1 :: ((lexer l.next.2).take count).1 = _
    rw [ih, hhead, htail, Feed.head, Feed.tail]
    cases l.feed.tokens with
    | nil => simp [List.replicate_succ]
    | cons t ts => simp [List.replicate_succ', List.take_append]

/-- A stream that has run out gives its end token again and again. -/
theorem take_stream_of_nil {s : TokenStream} (h : s.queue = []) (count : Nat) :
    ((stream s).take count).1 = List.replicate count s.eof := by
  induction count with
  | zero => rfl
  | succ count ih =>
    have hnext : s.next = (s.eof, s) := by rw [TokenStream.next, h]
    change s.next.1 :: ((stream s.next.2).take count).1 = _
    rw [hnext, ih, List.replicate_succ]

/-- A stream that is given an end token in the last place gives the tokens before it, and then the
end again and again. -/
theorem take_stream {s : TokenStream} {ts : List Token} {eof : Token} (heof : eof.kind = .eof)
    (hts : ∀ t ∈ ts, t.kind ≠ .eof) (h : s.queue = ts ++ [eof]) (count : Nat) :
    ((stream s).take count).1 = (ts ++ List.replicate count eof).take count := by
  induction count generalizing s ts with
  | zero => rfl
  | succ count ih =>
    change s.next.1 :: ((stream s.next.2).take count).1 = _
    cases ts with
    | nil =>
      -- from the end token on, the stream repeats it
      have hnext : s.next = (eof, { s with queue := [], eof }) := by
        rw [TokenStream.next, h]
        simp [heof]
      rw [hnext, take_stream_of_nil rfl]
      simp [List.replicate_succ]
    | cons t ts =>
      obtain ⟨ht, hts⟩ := List.forall_mem_cons.1 hts
      have hnext : s.next = (t, { s with queue := ts ++ [eof] }) := by
        rw [TokenStream.next, h]
        simp [ht]
      rw [hnext, ih hts rfl]
      simp [List.replicate_succ', List.take_append]

end TokenSource

/-- What is ahead of a stream that is given tokens and then an end token, or nothing any more. -/
theorem TokenStream.feed_of_queue {s : TokenStream} {ts back : List Token}
    (hts : ∀ t ∈ ts, t.kind ≠ .eof) (hback : ∀ t ∈ back.head?, t.kind = .eof)
    (h : s.queue = ts ++ back) : s.feed = ⟨s.file, s.lineCount, ts, back.headD s.eof⟩ := by
  have htake : ∀ t ∈ ts, decide (t.kind ≠ .eof) = true := fun t ht => decide_eq_true (hts t ht)
  have hfind : ts.find? (fun t => t.kind = .eof) = none :=
    List.find?_eq_none.2 fun t ht => by simpa using hts t ht
  rw [feed, h, List.takeWhile_append_of_pos htake, List.find?_append, hfind]
  cases back with
  | nil => simp
  | cons eof back => simp [hback eof rfl]

/-! ### Line counts -/

/-- A stream does not announce more lines than a number that no token exceeds. -/
theorem TokenStream.lineCount_ofTokens_le {ts : List Token} {n : Nat} (hn : 1 ≤ n)
    (h : ∀ t ∈ ts, t.pos.line ≤ n) (file : String) : (ofTokens ts file).lineCount ≤ n := by
  change (ts.map fun t => t.pos.line).max?.getD 1 ≤ n
  cases hmax : (ts.map fun t => t.pos.line).max? with
  | none => exact hn
  | some line =>
    obtain ⟨t, ht, rfl⟩ := List.mem_map.1 (List.max?_mem hmax)
    exact h t ht

/-- A stream of the tokens of a text announces no more lines than the text has. -/
theorem TokenStream.lineCount_scan_le (text file : String) :
    (ofTokens (scan text) file).lineCount ≤ MiniPascal.lineCount text.toList := by
  refine lineCount_ofTokens_le (one_le_lineCount _) (fun t ht => ?_) file
  obtain ht | ht := List.mem_append.1 ht
  · obtain ⟨before, chars, behind, hstands⟩ := Lexer.exists_standsIn ht
    exact hstands.line_le_lineCount
  · obtain rfl := List.mem_singleton.1 ht
    exact Lexer.line_eof_le_lineCount

/-! ### Parsing -/

/-- Whether two calls have the same **outcome**: the same program, ids and positions included, or
failures that differ at most in the number of lines, which is not greater the second time. -/
inductive SameOutcome : Except Diagnostic Program → Except Diagnostic Program → Prop where
  | ok (p : Program) : SameOutcome (.ok p) (.ok p)
  | error {d d' : Diagnostic} (file : d'.file = d.file) (pos : d'.pos = d.pos)
      (message : d'.message = d.message) (lineCount : d'.lineCount ≤ d.lineCount) :
    SameOutcome (.error d) (.error d')

namespace Parser

/-- Whether two parsers stand at the same place of feeds that differ at most in the number of
lines, which is not greater in the second one. -/
structure Alike (p q : Parser) : Prop where
  file : q.feed.file = p.feed.file
  tokens : q.feed.tokens = p.feed.tokens
  eof : q.feed.eof = p.feed.eof
  nextId : q.nextId = p.nextId
  lineCount : q.feed.lineCount ≤ p.feed.lineCount

namespace Alike

variable {p q : Parser}

/-- Calls of parsers at the same place have the same outcome and lead to the same place. -/
theorem parse (h : p.Alike q) : SameOutcome p.parse.1 q.parse.1 ∧ p.parse.2.Alike q.parse.2 := by
  have hmove : ∀ c : Cursor, (p.moveTo c).Alike (q.moveTo c) := fun c =>
    ⟨h.file, rfl, h.eof, rfl, h.lineCount⟩
  rw [Parser.parse, Parser.parse, h.tokens, h.nextId]
  cases Parse.program ⟨p.feed.tokens, p.nextId⟩ with
  | ok a c => exact ⟨.ok a, hmove c⟩
  | error cause c =>
    have hhead : (q.moveTo c).feed.head = (p.moveTo c).feed.head :=
      congrArg (List.headD c.rest) h.eof
    exact ⟨.error h.file (congrArg Token.pos hhead) (congrArg cause.message hhead) h.lineCount,
      hmove c⟩

/-- Any number of calls have the same outcomes. -/
theorem parseTimes (h : p.Alike q) (count : Nat) :
    List.Forall₂ SameOutcome (p.parseTimes count) (q.parseTimes count) := by
  induction count generalizing p q with
  | zero => exact .nil
  | succ count ih => exact .cons h.parse.1 (ih h.parse.2)

end Alike

end Parser

/-- Parsers at the beginning of a text and of the list of its tokens stand at the same place. -/
theorem Parser.alike_scan (text file : String) :
    (ofSource (.lexer (Lexer.ofText text file))).Alike
      (ofSource (.stream (TokenStream.ofTokens (scan text) file))) := by
  let lexer := Lexer.ofText text file
  have hqueue : (TokenStream.ofTokens (scan text) file).queue =
      lexer.feed.tokens ++ [lexer.feed.eof] := rfl
  have hend : ∀ t ∈ [lexer.feed.eof].head?, t.kind = .eof := by
    rintro t ⟨⟩
    rfl
  have hfeed := TokenStream.feed_of_queue
    (fun t ht => Segment.kind_ne_eof_of_mem_tokensFrom ht) hend hqueue
  have htokens := congrArg Feed.tokens hfeed
  have heof := congrArg Feed.eof hfeed
  exact ⟨rfl, htokens, heof, rfl, TokenStream.lineCount_scan_le text file⟩

namespace WindowParser

/-- Parsers with a window that are seen at the same place are so after any number of calls, whatever
their windows hold. -/
theorem alike_after {m m' : WindowParser} (hm : m.source.Ends) (hm' : m'.source.Ends)
    (h : m.view.Alike m'.view) (calls : Nat) : (m.after calls).view.Alike (m'.after calls).view := by
  induction calls with
  | zero => exact h
  | succ calls ih =>
    obtain ⟨-, hview, -⟩ := parse_view (later_after hm calls).ends
    obtain ⟨-, hview', -⟩ := parse_view (later_after hm' calls).ends
    have hsucc : ∀ m : WindowParser, m.after (calls + 1) = (m.after calls).parse.2 :=
      fun m => Function.iterate_succ_apply' ..
    rw [hsucc, hsucc, hview, hview']
    exact ih.parse.2

/-- After any number of calls, parsers with a window that began at the same place have the same
outcome of the next call. -/
theorem exists_sameOutcome {source source' : TokenSource} (h : source.Made) (h' : source'.Made)
    (halike : (Parser.ofSource source).Alike (Parser.ofSource source')) (calls : Nat) :
    ∃ r r', SameOutcome r r' ∧ ((ofSource source).after calls).parse.1 = r.mapError .failure ∧
      ((ofSource source').after calls).parse.1 = r'.mapError .failure := by
  rw [← view_ofSource h.ends, ← view_ofSource h'.ends] at halike
  have hafter := alike_after h.ends.next h'.ends.next halike calls
  have later := later_after (m := ofSource source) h.ends.next calls
  have later' := later_after (m := ofSource source') h'.ends.next calls
  exact ⟨_, _, hafter.parse.1, (parse_view later.ends).1, (parse_view later'.ends).1⟩

end WindowParser

/-- A lexer over a text and a stream of the tokens of the text give the same tokens, however many
are pulled, and in the end the end token for ever. So parsers over them give the same programs and
the same failures, however often they are called, but for the number of lines in failures, which the
stream may count lower. -/
theorem take_lexer_eq_take_stream (text file : String) :
    let lexer := TokenSource.lexer (Lexer.ofText text file)
    let stream := TokenSource.stream (TokenStream.ofTokens (scan text) file)
    (∃ ts eof, scan text = ts ++ [eof] ∧ eof.kind = .eof ∧ ∀ count,
      (lexer.take count).1 = (stream.take count).1 ∧
      (stream.take count).1 = (ts ++ List.replicate count eof).take count) ∧
    (∀ count, List.Forall₂ SameOutcome ((Parser.ofSource lexer).parseTimes count)
      ((Parser.ofSource stream).parseTimes count)) ∧
    (∀ calls, ∃ r r', SameOutcome r r' ∧
      ((WindowParser.ofSource lexer).after calls).parse.1 = r.mapError .failure ∧
      ((WindowParser.ofSource stream).after calls).parse.1 = r'.mapError .failure) := by
  intro lexer stream
  have halike := Parser.alike_scan text file
  have hts : ∀ t ∈ (Lexer.ofText text file).feed.tokens, t.kind ≠ .eof :=
    fun t ht => Segment.kind_ne_eof_of_mem_tokensFrom ht
  refine ⟨⟨_, (Lexer.ofText text file).feed.eof, rfl, rfl, fun count => ?_⟩, halike.parseTimes,
    WindowParser.exists_sameOutcome (.text text file) (.tokens (scan text) file) halike⟩
  have hqueue : (TokenStream.ofTokens (scan text) file).queue =
      (Lexer.ofText text file).feed.tokens ++ [(Lexer.ofText text file).feed.eof] := rfl
  have hpulled := TokenSource.take_stream rfl hts hqueue count
  exact ⟨(TokenSource.take_lexer _ count).trans hpulled.symm, hpulled⟩

end MiniPascal
