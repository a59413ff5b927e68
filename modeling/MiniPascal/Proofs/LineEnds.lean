import MiniPascal.Proofs.Lexing.Lookahead
import MiniPascal.Proofs.Lexing.Lossless

/-!
# Errors end with their line

A lexical error takes nothing of the lines below its own, unless it is a comment that is never closed.
So if no comment is left open, a text can be continued with another line: its tokens stay what and
where they are, and what follows is scanned like a text of its own (`ofText_append_newline`).

A fault is told from what its line holds: a line feed, with all that follows it, is to the scanner
what the end of the text is (`EndsWithLine`). Anything else settles before a line feed as it does
before any white space.
-/

namespace MiniPascal

namespace Segment

/-! ### The end of a line -/

/-- Whether a function of a text **ends with the line**: a line feed with all that follows it is to
the function what the end of the text is. -/
def EndsWithLine {α : Type} (f : List Char → α) : Prop :=
  ∀ cs rest, f (cs ++ '\n' :: rest) = f cs

theorem endsWithLine_upTo (quote : Char) : EndsWithLine (upTo quote) := by
  intro cs rest
  unfold upTo
  induction cs with
  | nil => simp
  | cons c cs ih => rw [List.cons_append, List.takeWhile_cons, List.takeWhile_cons, ih]

/-- What is left behind the text up to a quote character. -/
private theorem drop_upTo (quote : Char) (cs rest : List Char) :
    (cs ++ '\n' :: rest).drop (upTo quote cs).length =
      cs.drop (upTo quote cs).length ++ '\n' :: rest :=
  List.drop_append_of_le_length (List.takeWhile_prefix _).length_le

theorem endsWithLine_string : EndsWithLine string := by
  intro cs rest
  simp only [string, endsWithLine_upTo '"' cs rest, drop_upTo]
  cases cs.drop (upTo '"' cs).length with
  | nil => rfl
  | cons c ds => by_cases hc : c = '"' <;> simp [hc]

theorem endsWithLine_charEnd (c : Char) : EndsWithLine (charEnd c) := by
  intro cs rest
  cases cs with
  | nil => rfl
  | cons d cs =>
    by_cases hd : d = '\''
    · simp [charEnd, hd]
    · have hupTo := endsWithLine_upTo '\'' (d :: cs) rest
      have hdrop := drop_upTo '\'' (d :: cs) rest
      rw [List.cons_append] at hupTo hdrop
      simp only [charEnd, List.cons_append, hupTo, hdrop]
      cases (d :: cs).drop (upTo '\'' (d :: cs)).length with
      | nil => simp [hd]
      | cons e ds => by_cases he : e = '\'' <;> simp [hd, he]

theorem endsWithLine_char : EndsWithLine char := by
  intro cs rest
  cases cs with
  | nil => rfl
  | cons c cs =>
    by_cases hc : c = '\''
    · cases cs with
      | nil => simp [char, hc]
      | cons d cs =>
        by_cases hd : d = '\''
        · simp [char, hc, hd, endsWithLine_charEnd '\'' cs rest]
        · simp [char, hc, hd]
    · by_cases hline : c = '\n'
      · simp [char, hline]
      · simp [char, hc, endsWithLine_charEnd c cs rest]

theorem endsWithLine_symbol (c : Char) : EndsWithLine (symbol c) := by
  intro cs rest
  cases cs with
  | nil =>
    have hnewline : Kind.ofSymbol? [c, '\n'] = none :=
      ofSymbol?_of_opensTrivia c (.inl isWhiteSpace_newline)
    simp only [List.nil_append, symbol, hnewline]
  | cons d cs => rfl

private theorem comment_ne_fault {e : LexicalError} (he : e ≠ .openComment)
    (closing cs : List Char) : (comment closing cs).1 ≠ .fault e := by
  unfold comment
  split
  · nofun
  · rintro ⟨⟩
    exact he rfl

private theorem symbol_paren_ne_fault (cs : List Char) (e : LexicalError) :
    (symbol '(' cs).1 ≠ .fault e := by
  intro h
  unfold symbol at h
  split at h
  · cases h
  split at h <;> cases h

/-- What begins neither trivia nor a word nor a numeral stands in quotes or is a symbol. -/
private theorem leading_eq {c : Char} (hblank : ¬isWhiteSpace c = true) (hbrace : ¬c = '\x7b')
    (hparen : c ≠ '(') (hname : ¬isNameStart c = true) (hdigit : ¬c.isDigit = true) :
    leading c = if c = '"' then string else if c = '\'' then char else symbol c := by
  funext cs
  rw [leading, if_neg hblank, if_neg hbrace, if_neg fun h => hparen h.1, if_neg hname,
    if_neg hdigit]
  split
  · rfl
  split <;> rfl

/-- What begins with a fault ends with the line, unless that is a comment. -/
theorem endsWithLine_leading {c : Char} {cs : List Char} {e : LexicalError}
    (h : (leading c cs).1 = .fault e) (he : e ≠ .openComment) : EndsWithLine (leading c) := by
  -- one class of segments after the other, in the order in which the scanner tries them
  unfold leading at h
  split at h
  · cases h
  next hblank =>
  split at h
  · exact absurd h (comment_ne_fault he _ _)
  next hbrace =>
  split at h
  · exact absurd h (comment_ne_fault he _ _)
  split at h
  · cases h
  next hname =>
  split at h
  · cases h
  next hdigit =>
  have hparen : c ≠ '(' := by
    rintro rfl
    exact symbol_paren_ne_fault cs e h
  rw [leading_eq hblank hbrace hparen hname hdigit]
  split
  · exact endsWithLine_string
  split
  · exact endsWithLine_char
  · exact endsWithLine_symbol c

/-- What is cut off from the beginning of a text stays what it is if the text goes on with another
line, unless it is a comment that is never closed. -/
theorem leading_append_newline {c : Char} {cs : List Char}
    (h : (leading c cs).1 ≠ .fault .openComment) (rest : List Char) :
    leading c (cs ++ '\n' :: rest) = leading c cs := by
  cases hform : (leading c cs).1 with
  | fault e => exact endsWithLine_leading hform (fun he => h (he ▸ hform)) cs rest
  | blank | comment | lexeme =>
    -- white space follows in place of the end
    obtain ⟨u, hu⟩ := leading_isPrefix c cs
    have hleading : leading c ((leading c cs).2 ++ (u ++ [])) =
        ((leading c cs).1, (leading c cs).2) := by
      rw [List.append_nil, hu]
    have hopens : Starts OpensTrivia ('\n' :: rest) := .cons (.inl isWhiteSpace_newline)
    have hsettled := settles_leading c hleading (fun e he => by rw [hform] at he; cases he) hopens
    rw [← List.append_assoc, hu] at hsettled
    exact hsettled

/-- If no comment is left open, a text falls into the same segments when it goes on with another
line, which is then cut as a text of its own. -/
theorem ofText_append_newline {text : List Char}
    (h : ∀ segment ∈ ofText text, segment.form ≠ .fault .openComment) (rest : List Char) :
    ofText (text ++ '\n' :: rest) = ofText text ++ ⟨.blank, '\n', []⟩ :: ofText rest := by
  fun_induction ofText text with
  | case1 => rw [List.nil_append, ofText, ofLeading, leading, if_pos isWhiteSpace_newline]; rfl
  | case2 c cs ih =>
    obtain ⟨hfirst, hothers⟩ := List.forall_mem_cons.1 h
    have hsegment : ofLeading c (cs ++ '\n' :: rest) = ofLeading c cs := by
      rw [ofLeading, ofLeading, leading_append_newline hfirst]
    have hlength : (ofLeading c cs).more.length ≤ cs.length := (leading_isPrefix c cs).length_le
    rw [List.cons_append, ofText, hsegment, List.drop_append_of_le_length hlength, ih hothers]
    rfl

end Segment

/-! ### Tokens of lines further down -/

/-- The token some lines further down, in the same column: what becomes of a token if lines are put
in front of its text. -/
def Token.down (lines : Nat) (t : Token) : Token :=
  { t with pos := t.pos.down lines }

namespace Lexer

open Segment

/-- Segments that stand some lines further down have their tokens there. -/
theorem tokensFrom_down (lines : Nat) (pos : Position) (segments : List Segment) :
    tokensFrom (pos.down lines) segments = (tokensFrom pos segments).map (Token.down lines) := by
  induction segments generalizing pos with
  | nil => rfl
  | cons segment rest ih =>
    have hfirst : segment.token? (pos.down lines) = (segment.token? pos).map (Token.down lines) := by
      unfold token?
      split <;> rfl
    rw [tokensFrom, tokensFrom, Position.after_down, ih, hfirst, Option.toList_map, List.map_append]

end Lexer

/-- All tokens of a text but the one for its end. -/
theorem filter_scan (text : String) :
    (scan text).filter (fun t => t.kind ≠ .eof) = (Lexer.ofText text).feed.tokens := by
  have htokens : ∀ t ∈ (Lexer.ofText text).feed.tokens, decide (t.kind ≠ .eof) = true :=
    fun t ht => decide_eq_true (Segment.kind_ne_eof_of_mem_tokensFrom ht)
  rw [scan, List.filter_append, List.filter_eq_self.2 htokens]
  exact List.append_nil _

/-- If no token is the error for an open comment, no segment is one. -/
theorem Segment.form_ne_openComment {text : String} (h : ∀ t ∈ scan text, ¬t.IsOpenComment) :
    ∀ segment ∈ ofText text.toList, segment.form ≠ .fault .openComment := by
  intro segment hsegment hform
  obtain ⟨front, back, hcut⟩ := List.append_of_mem hsegment
  have htoken : ∀ pos, segment.token? pos = some ⟨.error, LexicalError.openComment.message, pos⟩ :=
    fun pos => by rw [token?, hform]
  refine h ⟨.error, LexicalError.openComment.message, Position.start.after (front.flatMap chars)⟩
    (List.mem_append_left _ ?_) ⟨rfl, rfl⟩
  change _ ∈ Lexer.tokensFrom .start (ofText text.toList)
  rw [hcut, Lexer.tokensFrom_append, Lexer.tokensFrom, htoken]
  exact List.mem_append_right _ List.mem_cons_self

/-- If no comment is left open in a text, its tokens stay what and where they are when the text goes
on with another line, and the tokens of what follows come behind them, moved down by the number of
lines that stand above. -/
theorem filter_scan_append_newline (text rest : String) (h : ∀ t ∈ scan text, ¬t.IsOpenComment) :
    (scan (text ++ "\n" ++ rest)).filter (fun t => t.kind ≠ .eof) =
      (scan text).filter (fun t => t.kind ≠ .eof) ++
        ((scan rest).filter fun t => t.kind ≠ .eof).map
          (Token.down (1 + text.toList.count '\n')) := by
  have hchars : (text ++ "\n" ++ rest).toList = text.toList ++ '\n' :: rest.toList := by
    simp
  have hpos : (Position.start.after text.toList).after ['\n'] =
      Position.start.down (1 + text.toList.count '\n') := by
    rw [Position.after_start, Position.after_cons, Position.step, if_pos rfl, Position.after_nil,
      Position.down, Nat.add_comm]
    rfl
  rw [filter_scan, filter_scan, filter_scan]
  change Lexer.tokensFrom .start (Segment.ofText (text ++ "\n" ++ rest).toList) =
    Lexer.tokensFrom .start (Segment.ofText text.toList) ++
      (Lexer.tokensFrom .start (Segment.ofText rest.toList)).map _
  rw [hchars, Segment.ofText_append_newline (Segment.form_ne_openComment h), Lexer.tokensFrom_append,
    Segment.flatMap_chars_ofText, ← Lexer.tokensFrom_down, ← hpos]
  rfl

/-- A string that is not closed takes nothing of the next line. -/
theorem filter_scan_append_newline_openString :
    (∀ t ∈ scan "x # \"b", ¬t.IsOpenComment) ∧
      (scan ("x # \"b" ++ "\n" ++ "y '")).filter (fun t => t.kind ≠ .eof) =
        [⟨.ident, "x", ⟨1, 1⟩⟩, ⟨.error, "Unknown symbol '#'", ⟨1, 3⟩⟩,
          ⟨.error, "Unterminated string literal", ⟨1, 5⟩⟩, ⟨.ident, "y", ⟨2, 1⟩⟩,
          ⟨.error, "Unterminated char literal", ⟨2, 3⟩⟩] := by
  have h : ∀ t ∈ scan "x # \"b", ¬t.IsOpenComment := by decide +kernel
  refine ⟨h, (filter_scan_append_newline "x # \"b" "y '" h).trans ?_⟩
  decide +kernel

end MiniPascal
