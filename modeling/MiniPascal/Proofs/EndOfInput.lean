import MiniPascal.Proofs.Lexing.Lossless
import MiniPascal.Proofs.Lexing.Writing
import MiniPascal.Proofs.Sources

/-!
# Where the input ends

Each token of a text stands behind the one before it, and the token for the end stands behind all of
them, with one exception: a comment that is never closed is reported where it begins, but it does not
move the end, which then stands at the error or in front of it (`Lexer.before_eof_iff`).

A stream that is given the tokens without the one for the end places an end of its own, as far behind
the last token as the text of that token is long. A token in quotes is longer than its text. So the
stream ends where the text does, unless the last token is in quotes
(`TokenStream.eofAfter_tokens_eq_iff`).
-/

namespace MiniPascal

/-! ### The order of positions -/

namespace Position

variable {a b c : Position}

/-- Whether a position comes **before** another one: in a higher line, or further left in the same
line. It is the order in which a text is read. -/
def Before (a b : Position) : Prop :=
  a.line < b.line ∨ a.line = b.line ∧ a.column < b.column

instance (a b : Position) : Decidable (a.Before b) :=
  inferInstanceAs (Decidable (_ ∨ _))

theorem Before.trans (h : a.Before b) (h' : b.Before c) : a.Before c := by
  unfold Before at *
  omega

theorem Before.asymm (h : a.Before b) : ¬b.Before a := by
  unfold Before at *
  omega

theorem before_step (pos : Position) (c : Char) : pos.Before (pos.step c) := by
  unfold step
  split
  · exact .inl (Nat.lt_succ_self _)
  · exact .inr ⟨rfl, Nat.lt_succ_self _⟩

theorem Before.after (h : a.Before b) (text : List Char) : a.Before (b.after text) := by
  induction text generalizing b with
  | nil => exact h
  | cons c text ih => exact ih (h.trans (before_step b c))

theorem before_after_cons (pos : Position) (c : Char) (text : List Char) :
    pos.Before (pos.after (c :: text)) :=
  (before_step pos c).after text

/-- No text leads back. -/
theorem not_before_of_after (pos : Position) (text : List Char) : ¬(pos.after text).Before pos := by
  cases text with
  | nil => exact fun h => h.asymm h
  | cons c text => exact (before_after_cons pos c text).asymm

end Position

/-! ### The tokens of a text -/

namespace Segment

variable {text : List Char} {front back : List Segment} {segment : Segment} {pos : Position}
  {t : Token}

/-- The input can be said to end behind any token but the error for an open comment, and nothing
follows that one. -/
theorem isEnding_or_isOpenComment (hcut : ofText text = front ++ segment :: back)
    (h : segment.token? pos = some t) : segment.isEnding = true ∧ ¬t.IsOpenComment ∨
      ¬segment.isEnding = true ∧ t.IsOpenComment ∧ back = [] := by
  have hcuts := cuts_of_append hcut
  generalize hcs : segment.more ++ back.flatMap chars = cs at hcuts
  generalize segment.more = more at hcuts hcs
  generalize hform : segment.form = form at hcuts
  rw [token?, hform] at h
  rw [isEnding, hform]
  cases hcuts with
  | blank | comment => cases h
  | lexeme lexeme =>
    cases h
    exact .inl ⟨rfl, fun hopen => lexeme.kind_ne.1 hopen.1⟩
  | toEnd =>
    cases h
    rw [List.append_right_eq_self, List.flatMap_eq_nil_iff] at hcs
    refine .inr ⟨Bool.false_ne_true, ⟨rfl, rfl⟩, List.eq_nil_iff_forall_not_mem.2 fun s hs => ?_⟩
    exact List.cons_ne_nil _ _ (hcs s hs)
  | @fault _ e other =>
    cases h
    refine .inl ⟨?_, fun hopen => LexicalError.message_ne other hopen.2⟩
    cases e with
    | openComment => exact absurd rfl other
    | openString | openChar | emptyChar | longChar | unknownSymbol => rfl

end Segment

namespace Lexer

open Segment Position

/-- The tokens of a text stand one behind the other. -/
theorem pairwise_before_tokensFrom (pos : Position) (segments : List Segment) :
    (tokensFrom pos segments).Pairwise fun a b => a.pos.Before b.pos := by
  induction segments generalizing pos with
  | nil => exact .nil
  | cons segment rest ih =>
    rw [tokensFrom, List.pairwise_append]
    refine ⟨?_, ih _, fun a ha b hb => ?_⟩
    · cases segment.token? pos with
      | none => exact .nil
      | some t => exact List.pairwise_singleton _ _
    · -- a later token stands behind all characters of the first segment
      obtain ⟨us, vs, htokens⟩ := List.append_of_mem hb
      obtain ⟨front, s, back, -, htoken, -⟩ := exists_segment_of_tokensFrom htokens
      rw [pos_of_token? (Option.mem_toList.1 ha), pos_of_token? htoken]
      exact (before_after_cons pos segment.first segment.more).after _

/-- The end comes behind every token but the error for a comment that is never closed. -/
theorem before_eof_iff {text file : String} {t : Token} (h : t ∈ (ofText text file).feed.tokens) :
    t.pos.Before (ofText text file).feed.eof.pos ↔ ¬t.IsOpenComment := by
  obtain ⟨us, vs, htokens⟩ := List.append_of_mem h
  obtain ⟨front, segment, back, hcut, htoken, -⟩ := exists_segment_of_tokensFrom htokens
  change t.pos.Before (stopFrom .start .start (ofText text file).rest) ↔ _
  rw [pos_of_token? htoken, hcut, stopFrom_append, stopFrom]
  obtain ⟨hending, hclosed⟩ | ⟨hending, hopen, rfl⟩ := isEnding_or_isOpenComment hcut htoken
  · -- the end is right behind the token, or it has moved on from there
    refine iff_of_true ?_ hclosed
    have hthere := before_after_cons (start.after (front.flatMap chars)) segment.first segment.more
    rw [if_pos hending]
    obtain hstop | ⟨front', s, back', -, -, hstop⟩ := stopFrom_cases _ _ back
    · rw [hstop]
      exact hthere
    · rw [hstop]
      exact hthere.after _
  · -- the end is where it was in front of the comment
    refine iff_of_false ?_ (not_not_intro hopen)
    rw [if_neg hending, stopFrom]
    obtain hstop | ⟨front', s, back', rfl, -, hstop⟩ := stopFrom_cases .start .start front
    · rw [hstop]
      exact not_before_of_after _ _
    · rw [hstop, List.flatMap_append, List.flatMap_cons, ← List.append_assoc,
        after_append _ (front'.flatMap chars ++ s.chars)]
      exact not_before_of_after _ _

end Lexer

/-- The tokens of a text stand one behind the other, and the end comes behind each of them but the
error for a comment that is never closed. So all tokens are in order, the one for the end included,
exactly if no comment is left open. -/
theorem pairwise_before_scan (text : String) :
    ∃ ts eof, scan text = ts ++ [eof] ∧ eof.kind = .eof ∧
      ts.Pairwise (fun a b => a.pos.Before b.pos) ∧
      (∀ t ∈ ts, t.pos.Before eof.pos ↔ ¬t.IsOpenComment) ∧
      ((scan text).Pairwise (fun a b => a.pos.Before b.pos) ↔ ∀ t ∈ scan text, ¬t.IsOpenComment) := by
  have hpairwise := Lexer.pairwise_before_tokensFrom .start (Segment.ofText text.toList)
  have hbefore : ∀ t ∈ (Lexer.ofText text).feed.tokens,
      t.pos.Before (Lexer.ofText text).feed.eof.pos ↔ ¬t.IsOpenComment :=
    fun t => Lexer.before_eof_iff
  have heof : ¬(Lexer.ofText text).feed.eof.IsOpenComment := fun hopen => nomatch hopen.1
  refine ⟨_, _, rfl, rfl, hpairwise, hbefore, ?_⟩
  rw [scan, List.pairwise_append, List.forall_mem_append, List.forall_mem_singleton]
  constructor
  · rintro ⟨-, -, hend⟩
    exact ⟨fun t ht => (hbefore t ht).1 (hend t ht _ (List.mem_singleton_self _)), heof⟩
  · rintro ⟨hclosed, -⟩
    refine ⟨hpairwise, List.pairwise_singleton _ _, fun t ht => List.forall_mem_singleton.2 ?_⟩
    exact (hbefore t ht).2 (hclosed t ht)

/-- A comment that is never closed is reported behind the end. -/
theorem scan_openComment_not_pairwise_before :
    scan "x \x7b" = [⟨.ident, "x", ⟨1, 1⟩⟩, ⟨.error, "Unterminated comment", ⟨1, 3⟩⟩,
      ⟨.eof, "", ⟨1, 2⟩⟩] ∧
      ¬(scan "x \x7b").Pairwise fun a b => a.pos.Before b.pos := by
  decide +kernel

/-! ### The end of a stream -/

/-- Whether tokens of this kind are written in quotes, which are no part of their text. Their texts
are shorter than what stands in the source. -/
def Kind.isQuoted : Kind → Bool
  | .literal .string | .literal .char => true
  | _ => false

namespace Token

variable {t : Token}

/-- Doubling leaves no character out. -/
theorem length_le_length_doubleQuotes (text : List Char) :
    text.length ≤ (doubleQuotes text).length := by
  induction text with
  | nil => exact Nat.le_refl 0
  | cons c text ih =>
    change text.length + 1 ≤ ((if c = '\'' then [c, c] else [c]) ++ doubleQuotes text).length
    split <;> simp <;> omega

/-- A token in quotes is wider than its text, even if it had no text. -/
theorem lt_length_display (h : t.kind.isQuoted = true) :
    max 1 t.text.length < t.display.length := by
  unfold display
  unfold Kind.isQuoted at h
  split at h
  · next hkind =>
    have hquote : "\"".length = 1 := rfl
    rw [hkind]
    dsimp only
    rw [String.length_append, String.length_append, hquote]
    omega
  · next hkind =>
    have hquote : "'".length = 1 := rfl
    have hdoubled := length_le_length_doubleQuotes t.text.toList
    rw [String.length_toList] at hdoubled
    rw [hkind]
    dsimp only
    rw [String.length_append, String.length_append, hquote, String.length_ofList]
    omega
  · cases h

/-- A token without quotes is its text. -/
theorem display_of_not_isQuoted (h : t.kind.isQuoted = false) (heof : t.kind ≠ .eof) :
    t.display = t.text := by
  unfold display
  split
  · next hkind => rw [hkind] at h; cases h
  · next hkind => rw [hkind] at h; cases h
  · next hkind => exact absurd hkind heof
  · rfl

/-- The text of a token is as wide as the token, unless that is written in quotes. -/
theorem IsLexeme.length_display_eq_iff (h : t.IsLexeme) :
    max 1 t.text.length = t.display.length ↔ t.kind.isQuoted = false := by
  obtain ⟨c, more, hdisplay, hlexeme⟩ := h.toList_display
  constructor
  · intro hlength
    by_contra hquoted
    rw [Bool.not_eq_false] at hquoted
    exact absurd hlength (lt_length_display hquoted).ne
  · intro hquoted
    have hpos : 1 ≤ t.display.length := by
      rw [← String.length_toList, hdisplay]
      exact Nat.le_add_left 1 _
    rw [← display_of_not_isQuoted hquoted hlexeme.kind_ne.2]
    exact Nat.max_eq_right hpos

end Token

/-- A text ends as far behind its last token as that token is wide, if it is no error. -/
theorem Lexer.eof_pos_eq {text file : String} {us : List Token} {t : Token}
    (h : (ofText text file).feed.tokens = us ++ [t]) (ht : t.kind ≠ .error) :
    (ofText text file).feed.eof.pos = ⟨t.pos.line, t.pos.column + t.display.length⟩ := by
  obtain ⟨before, chars, behind, hstands, heof⟩ := eof_pos_of_append h ht
  obtain ⟨c, more, rfl, hlexeme⟩ := hstands.exists_isLexeme ht
  have hlength : t.display.length = (c :: more).length := by
    rw [← hlexeme.display t.pos, String.length_toList]
  rw [heof, Position.after_append, Position.after_of_not_mem _ hlexeme.newline_not_mem,
    ← hstands.pos_eq, hlength]

namespace TokenStream

/-- The end token that a stream makes for itself is as far behind the last token as the text of that
token is long. -/
theorem eofAfter_concat (us : List Token) (t : Token) :
    eofAfter (us ++ [t]) =
      ⟨.eof, "", ⟨t.pos.line, t.pos.column + max 1 t.text.length⟩⟩ := by
  rw [eofAfter, List.getLast?_concat]

/-- What is ahead of a stream that is given the tokens of a text without the one for the end. -/
theorem feed_ofTokens_tokens (text file : String) :
    let ts := (Lexer.ofText text file).feed.tokens
    (ofTokens ts file).feed = ⟨file, (ofTokens ts file).lineCount, ts, eofAfter ts⟩ := by
  intro ts
  have hts : ∀ t ∈ ts, t.kind ≠ .eof := fun t ht => Segment.kind_ne_eof_of_mem_tokensFrom ht
  have hqueue : (ofTokens ts file).queue = ts ++ [] := (List.append_nil ts).symm
  have hback : ∀ t ∈ ([] : List Token).head?, t.kind = .eof := nofun
  exact feed_of_queue hts hback hqueue

/-- A stream of the tokens of a text ends where the text does, unless the last token is in quotes. -/
theorem eofAfter_tokens_eq_iff {text file : String}
    (h : ∀ t ∈ (Lexer.ofText text file).feed.tokens, t.kind ≠ .error) :
    eofAfter (Lexer.ofText text file).feed.tokens = (Lexer.ofText text file).feed.eof ↔
      ∀ last ∈ (Lexer.ofText text file).feed.tokens.getLast?, last.kind.isQuoted = false := by
  have heof : (Lexer.ofText text file).feed.eof =
      ⟨.eof, "", (Lexer.ofText text file).feed.eof.pos⟩ := rfl
  rw [heof]
  obtain hts | ⟨us, t, hts⟩ := List.eq_nil_or_concat' (Lexer.ofText text file).feed.tokens
  · rw [Lexer.eof_pos_of_nil hts, hts]
    exact iff_of_true rfl nofun
  · have hmem : t ∈ (Lexer.ofText text file).feed.tokens := hts ▸ List.mem_concat_self
    obtain ⟨before, chars, behind, hstands⟩ := Lexer.exists_standsIn hmem
    obtain ⟨c, more, -, hlexeme⟩ := hstands.exists_isLexeme (h t hmem)
    have hwidth := Token.IsLexeme.length_display_eq_iff ⟨c, more, hlexeme⟩
    rw [Lexer.eof_pos_eq hts (h t hmem), hts, eofAfter_concat, List.getLast?_concat]
    simp [hwidth]

end TokenStream

/-- Parsers over a text and over a stream of its tokens without the end stand at the same place, if
the stream ends where the text does. -/
theorem Parser.alike_ofTokens {text file : String}
    (h : TokenStream.eofAfter (Lexer.ofText text file).feed.tokens =
      (Lexer.ofText text file).feed.eof) :
    (ofSource (.lexer (Lexer.ofText text file))).Alike
      (ofSource (.stream (.ofTokens (Lexer.ofText text file).feed.tokens file))) := by
  have hfeed := TokenStream.feed_ofTokens_tokens text file
  have htokens := congrArg Feed.tokens hfeed
  have heof := (congrArg Feed.eof hfeed).trans h
  refine ⟨rfl, htokens, heof, rfl, ?_⟩
  refine TokenStream.lineCount_ofTokens_le (one_le_lineCount text.toList) (fun t ht => ?_) file
  obtain ⟨before, chars, behind, hstands⟩ := Lexer.exists_standsIn ht
  exact hstands.line_le_lineCount

/-- A stream that is given the tokens of a text without errors, but not the one for the end, makes
an end token in the line of the last token, as far behind its beginning as its text is long. The
text itself ends right behind that token. The two are the same exactly if the last token is not in
quotes, and then parsers over the text and over the stream have the same outcomes. -/
theorem eof_ofTokens_dropLast_scan (text file : String) (h : ∀ t ∈ scan text, t.kind ≠ .error) :
    let lexer := TokenSource.lexer (.ofText text file)
    let given := (scan text).dropLast
    let stream := TokenSource.stream (.ofTokens given file)
    scan text = given ++ [lexer.feed.eof] ∧ stream.feed.tokens = given ∧
      (∀ last ∈ given.getLast?,
        lexer.feed.eof.pos = ⟨last.pos.line, last.pos.column + last.display.length⟩ ∧
        stream.feed.eof.pos = ⟨last.pos.line, last.pos.column + max 1 last.text.length⟩) ∧
      (stream.feed.eof = lexer.feed.eof ↔ ∀ last ∈ given.getLast?, last.kind.isQuoted = false) ∧
      ((∀ last ∈ given.getLast?, last.kind.isQuoted = false) → ∀ count,
        List.Forall₂ SameOutcome ((Parser.ofSource lexer).parseTimes count)
          ((Parser.ofSource stream).parseTimes count)) := by
  intro lexer given stream
  have hgiven : given = lexer.feed.tokens := List.dropLast_concat
  have hstream : stream = .stream (.ofTokens lexer.feed.tokens file) :=
    congrArg (fun ts => TokenSource.stream (.ofTokens ts file)) hgiven
  have hfeed : stream.feed = ⟨file, _, lexer.feed.tokens, TokenStream.eofAfter lexer.feed.tokens⟩ :=
    (congrArg TokenSource.feed hstream).trans (TokenStream.feed_ofTokens_tokens text file)
  have herror : ∀ t ∈ lexer.feed.tokens, t.kind ≠ .error :=
    fun t ht => h t (List.mem_append_left _ ht)
  have hsame : TokenStream.eofAfter lexer.feed.tokens = lexer.feed.eof ↔
      ∀ last ∈ given.getLast?, last.kind.isQuoted = false := by
    rw [hgiven]
    exact TokenStream.eofAfter_tokens_eq_iff herror
  refine ⟨?_, ?_, fun last hlast => ?_, ?_, fun hlast count => ?_⟩
  · rw [hgiven]
    rfl
  · rw [hfeed, hgiven]
  · rw [hgiven] at hlast
    obtain ⟨us, hts⟩ := List.getLast?_eq_some_iff.1 hlast
    refine ⟨Lexer.eof_pos_eq hts (herror last (List.mem_of_getLast? hlast)), ?_⟩
    rw [hfeed, hts, TokenStream.eofAfter_concat]
  · rw [hfeed]
    exact hsame
  · rw [hstream]
    exact (Parser.alike_ofTokens (hsame.2 hlast)).parseTimes count

/-- Behind a name, a stream ends where the text does. -/
theorem eof_ofTokens_dropLast_scan_name :
    let text := "program p; begin x"
    let lexer := TokenSource.lexer (.ofText text "p")
    let stream := TokenSource.stream (.ofTokens (scan text).dropLast "p")
    (∀ t ∈ scan text, t.kind ≠ .error) ∧ lexer.feed.eof.pos = ⟨1, 19⟩ ∧
      stream.feed.eof = lexer.feed.eof ∧ List.Forall₂ SameOutcome
        ((Parser.ofSource lexer).parseTimes 1) ((Parser.ofSource stream).parseTimes 1) := by
  intro text lexer stream
  have h : ∀ t ∈ scan text, t.kind ≠ .error := by decide +kernel
  have hlast : ∀ last ∈ (scan text).dropLast.getLast?, last.kind.isQuoted = false := by
    decide +kernel
  obtain ⟨-, -, -, hsame, houtcomes⟩ := eof_ofTokens_dropLast_scan text "p" h
  exact ⟨h, by decide +kernel, hsame.2 hlast, houtcomes hlast 1⟩

/-- Behind a string, a stream ends too early, by the width of the quotes. -/
theorem eof_ofTokens_ne_eof_string :
    (∀ t ∈ scan "\"a\"", t.kind ≠ .error) ∧
      scan "\"a\"" = [⟨.literal .string, "a", ⟨1, 1⟩⟩, ⟨.eof, "", ⟨1, 4⟩⟩] ∧
      (TokenSource.stream (.ofTokens (scan "\"a\"").dropLast)).feed.eof = ⟨.eof, "", ⟨1, 2⟩⟩ := by
  decide +kernel

end MiniPascal
