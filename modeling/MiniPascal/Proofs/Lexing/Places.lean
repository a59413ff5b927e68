import MiniPascal.Proofs.Lexing.Lines
import MiniPascal.Proofs.Lexing.Trivia

/-!
# Where tokens stand

A token **stands in** a text between some characters before it and others behind it: its own
characters are those of the segment that it is made from (`Token.StandsIn`). They begin with a
visible character, and they end with one unless the token is an error. So every token stands in a
line of the text (`Token.StandsIn.exists_line`). The end of the input is right behind the last token
(`Lexer.eof_pos_of_append`), unless that is a comment that is never closed, and always in a line
that the text has or at its very beginning.
-/

namespace MiniPascal

namespace Segment

/-! ### Segments at some place of a text -/

section Append

variable {text : List Char} {front back : List Segment} {segment : Segment}

/-- From any segment on, a text is cut in the same manner as the whole. -/
theorem ofText_flatMap_of_append (h : ofText text = front ++ back) :
    ofText (back.flatMap chars) = back := by
  induction front generalizing text with
  | nil =>
    rw [List.nil_append] at h
    rw [← h, flatMap_chars_ofText]
  | cons segment front ih =>
    cases text with
    | nil => rw [ofText] at h; cases h
    | cons c cs =>
      rw [ofText, List.cons_append] at h
      exact ih (List.cons.inj h).2

/-- A segment is what is cut off from the text that begins with it. -/
theorem leading_of_append (h : ofText text = front ++ segment :: back) :
    leading segment.first (segment.more ++ back.flatMap chars) = (segment.form, segment.more) := by
  have hrest := ofText_flatMap_of_append h
  rw [List.flatMap_cons, chars, List.cons_append, ofText] at hrest
  have hsegment := (List.cons.inj hrest).1
  exact Prod.ext (congrArg form hsegment) (congrArg more hsegment)

/-- What a segment of a text may be. -/
theorem cuts_of_append (h : ofText text = front ++ segment :: back) :
    Cuts segment.first (segment.more ++ back.flatMap chars) segment.form segment.more := by
  have hcuts := cuts_leading segment.first (segment.more ++ back.flatMap chars)
  rwa [leading_of_append h] at hcuts

/-- Only a blank begins with white space. -/
theorem isWhiteSpace_first (h : ofText text = front ++ segment :: back)
    (hform : segment.form ≠ .blank) : isWhiteSpace segment.first = false := by
  have hleading := leading_of_append h
  by_contra hblank
  rw [Bool.not_eq_false] at hblank
  rw [leading, if_pos hblank] at hleading
  exact hform (congrArg Prod.fst hleading).symm

/-- A segment behind which the input can be said to end stays on its line. -/
theorem newline_not_mem_of_isEnding (h : ofText text = front ++ segment :: back)
    (hending : segment.isEnding = true) : '\n' ∉ segment.chars := by
  have hcuts := cuts_of_append h
  generalize segment.more ++ back.flatMap chars = cs at hcuts
  generalize hform : segment.form = form at hcuts
  rw [isEnding, hform] at hending
  rw [chars]
  generalize segment.more = more at hcuts
  cases hcuts with
  | blank | comment | toEnd => cases hending
  | lexeme lexeme => exact lexeme.newline_not_mem
  | fault _ oneLine => exact oneLine

end Append

/-- A token stands where its segment begins. -/
theorem pos_of_token? {segment : Segment} {pos : Position} {t : Token}
    (h : segment.token? pos = some t) : t.pos = pos := by
  unfold token? at h
  split at h <;> cases h <;> rfl

/-- Where the input can be said to end there is a token. -/
theorem exists_token_of_isEnding {segment : Segment} (h : segment.isEnding = true)
    (pos : Position) : ∃ t, segment.token? pos = some t := by
  unfold isEnding at h
  unfold token?
  cases hform : segment.form with
  | blank | comment =>
    rw [hform] at h
    cases h
  | lexeme kind text => exact ⟨_, rfl⟩
  | fault error => exact ⟨_, rfl⟩

/-! ### The ends of lexemes -/

/-- A lexeme ends with a visible character. -/
theorem IsLexeme.exists_last {c : Char} {more : List Char} {k : Kind} {text : String}
    (h : IsLexeme c more k text) :
    ∃ init last, c :: more = init ++ [last] ∧ isWhiteSpace last = false := by
  obtain hvisible | ⟨quote, value, hquote, -, hlexeme⟩ := h.visible_or_quoted
  · exact ⟨_, _, (List.dropLast_append_getLast (List.cons_ne_nil c more)).symm,
      hvisible _ (List.getLast_mem _)⟩
  · exact ⟨quote :: value, quote, hlexeme, hquote⟩

end Segment

/-! ### Tokens and segments -/

namespace Lexer

open Segment

/-- A token comes from a segment, and what comes behind it comes from the segments behind. -/
theorem exists_segment_of_tokensFrom {pos : Position} {segments : List Segment} {us vs : List Token}
    {t : Token} (h : tokensFrom pos segments = us ++ t :: vs) :
    ∃ front segment back, segments = front ++ segment :: back ∧
      segment.token? (pos.after (front.flatMap chars)) = some t ∧
      tokensFrom (pos.after (front.flatMap chars ++ segment.chars)) back = vs := by
  induction segments generalizing pos us with
  | nil => simp [tokensFrom] at h
  | cons segment rest ih =>
    rw [tokensFrom] at h
    -- the token is that of the first segment, or it comes from the rest
    cases htoken : segment.token? pos with
    | none =>
      rw [htoken] at h
      obtain ⟨front, s, back, rfl, hs, hback⟩ := ih h
      refine ⟨segment :: front, s, back, rfl, ?_, ?_⟩
      · rwa [List.flatMap_cons, Position.after_append]
      · rwa [List.flatMap_cons, List.append_assoc, Position.after_append]
    | some u =>
      rw [htoken] at h
      cases us with
      | nil =>
        obtain ⟨rfl, hvs⟩ := List.cons.inj h
        exact ⟨[], segment, rest, rfl, htoken, hvs⟩
      | cons v us =>
        obtain ⟨front, s, back, rfl, hs, hback⟩ := ih (List.cons.inj h).2
        refine ⟨segment :: front, s, back, rfl, ?_, ?_⟩
        · rwa [List.flatMap_cons, Position.after_append]
        · rwa [List.flatMap_cons, List.append_assoc, Position.after_append]

theorem tokensFrom_append (pos : Position) (front back : List Segment) :
    tokensFrom pos (front ++ back) =
      tokensFrom pos front ++ tokensFrom (pos.after (front.flatMap chars)) back := by
  induction front generalizing pos with
  | nil => rfl
  | cons segment front ih =>
    rw [List.cons_append, tokensFrom, tokensFrom, ih, List.append_assoc, List.flatMap_cons,
      Position.after_append]

theorem stopFrom_append (pos stop : Position) (front back : List Segment) :
    stopFrom pos stop (front ++ back) =
      stopFrom (pos.after (front.flatMap chars)) (stopFrom pos stop front) back := by
  induction front generalizing pos stop with
  | nil => rfl
  | cons segment front ih =>
    rw [List.cons_append, stopFrom, ih, stopFrom, List.flatMap_cons, Position.after_append]

/-- Without tokens the end stays where it is. -/
theorem stopFrom_of_tokensFrom_eq_nil {pos pos' stop : Position} {segments : List Segment}
    (h : tokensFrom pos' segments = []) : stopFrom pos stop segments = stop := by
  induction segments generalizing pos pos' with
  | nil => rfl
  | cons segment rest ih =>
    obtain ⟨hnone, hrest⟩ := List.append_eq_nil_iff.1 h
    have hending : ¬segment.isEnding = true := by
      intro hending
      obtain ⟨t, ht⟩ := exists_token_of_isEnding hending pos'
      rw [ht] at hnone
      cases hnone
    rw [stopFrom, if_neg hending]
    exact ih hrest

/-- The end is where it was, or right behind a segment. -/
theorem stopFrom_cases (pos stop : Position) (segments : List Segment) :
    stopFrom pos stop segments = stop ∨ ∃ front segment back, segments = front ++ segment :: back ∧
      segment.isEnding = true ∧
      stopFrom pos stop segments = pos.after (front.flatMap chars ++ segment.chars) := by
  induction segments generalizing pos stop with
  | nil => exact .inl rfl
  | cons segment rest ih =>
    rw [stopFrom]
    obtain hstop | ⟨front, s, back, rfl, hs, hstop⟩ := ih (pos.after segment.chars)
      (if segment.isEnding then pos.after segment.chars else stop)
    · rw [hstop]
      by_cases hending : segment.isEnding = true
      · rw [if_pos hending]
        exact .inr ⟨[], segment, rest, rfl, hending, rfl⟩
      · exact .inl (if_neg hending)
    · refine .inr ⟨segment :: front, s, back, rfl, hs, hstop.trans ?_⟩
      rw [List.flatMap_cons, List.append_assoc, Position.after_append _ segment.chars]

end Lexer

/-! ### Places -/

namespace Token

/-- Whether a token **stands in** a text behind some characters, with characters of its own, and
before others: these are the three parts of the text around its segment. -/
def StandsIn (t : Token) (text before chars behind : List Char) : Prop :=
  ∃ front segment back, Segment.ofText text = front ++ segment :: back ∧
    segment.token? (Position.start.after before) = some t ∧
    before = front.flatMap Segment.chars ∧ chars = segment.chars ∧
    behind = back.flatMap Segment.chars

namespace StandsIn

variable {t : Token} {text before chars behind : List Char}

/-- A token with what is before it and behind it makes up the text. -/
theorem append_eq (h : t.StandsIn text before chars behind) :
    before ++ (chars ++ behind) = text := by
  obtain ⟨front, segment, back, hcut, -, rfl, rfl, rfl⟩ := h
  rw [← List.flatMap_cons, ← List.flatMap_append, ← hcut, Segment.flatMap_chars_ofText]

/-- A token says where it stands. -/
theorem pos_eq (h : t.StandsIn text before chars behind) : t.pos = Position.start.after before := by
  obtain ⟨front, segment, back, -, htoken, -⟩ := h
  exact Segment.pos_of_token? htoken

/-- A token begins with a visible character. -/
theorem exists_first (h : t.StandsIn text before chars behind) :
    ∃ c more, chars = c :: more ∧ isWhiteSpace c = false := by
  obtain ⟨front, segment, back, hcut, htoken, -, rfl, -⟩ := h
  refine ⟨_, _, rfl, Segment.isWhiteSpace_first hcut fun hblank => ?_⟩
  rw [Segment.token?, hblank] at htoken
  cases htoken

/-- A token that is no error is cut off as a lexeme from what is left of the text at its place. -/
theorem exists_leading (h : t.StandsIn text before chars behind) (ht : t.kind ≠ .error) :
    ∃ c more, chars = c :: more ∧
      Segment.leading c (more ++ behind) = (.lexeme t.kind t.text, more) := by
  obtain ⟨front, segment, back, hcut, htoken, -, rfl, rfl⟩ := h
  have hleading := Segment.leading_of_append hcut
  unfold Segment.token? at htoken
  split at htoken
  · cases htoken
  · cases htoken
  · next hform =>
    cases htoken
    rw [hform] at hleading
    exact ⟨_, _, rfl, hleading⟩
  · cases htoken
    exact absurd rfl ht

/-- A token that is no error is made from a lexeme. -/
theorem exists_isLexeme (h : t.StandsIn text before chars behind) (ht : t.kind ≠ .error) :
    ∃ c more, chars = c :: more ∧ Segment.IsLexeme c more t.kind t.text := by
  obtain ⟨c, more, hchars, hleading⟩ := h.exists_leading ht
  exact ⟨c, more, hchars, Segment.isLexeme_of_leading hleading⟩

/-- Visible characters end no line. -/
private theorem ne_of_visible {c : Char} (h : isWhiteSpace c = false) : c ≠ '\n' ∧ c ≠ '\r' := by
  constructor
  all_goals
    rintro rfl
    revert h
    decide

/-- Every token stands in a line of the text, where its first character is in its column. -/
theorem exists_line (h : t.StandsIn text before chars behind) :
    ∃ row c more, (linesOf text)[t.pos.line - 1]? = some row ∧
      row[t.pos.column - 1]? = some c ∧ chars = c :: more := by
  obtain ⟨c, more, rfl, hc⟩ := h.exists_first
  obtain ⟨hnewline, hreturn⟩ := ne_of_visible hc
  obtain ⟨row, hline, hcolumn⟩ := exists_line_of_visible before hnewline hreturn (more ++ behind)
  rw [← List.cons_append, h.append_eq, ← h.pos_eq] at hline
  rw [← h.pos_eq] at hcolumn
  exact ⟨row, c, more, hline, hcolumn, rfl⟩

/-- Right behind a token that is no error there is still a column of its line. -/
theorem exists_line_behind (h : t.StandsIn text before chars behind) (ht : t.kind ≠ .error) :
    ∃ row, (linesOf text)[(Position.start.after (before ++ chars)).line - 1]? = some row ∧
      (Position.start.after (before ++ chars)).column ≤ row.length + 1 := by
  obtain ⟨c, more, hchars, hlexeme⟩ := h.exists_isLexeme ht
  obtain ⟨init, last, hlast, hvisible⟩ := hlexeme.exists_last
  obtain ⟨hnewline, hreturn⟩ := ne_of_visible hvisible
  rw [← hchars] at hlast
  subst hlast
  obtain ⟨row, hline, hcolumn⟩ := exists_line_of_visible (before ++ init) hnewline hreturn behind
  have htext : before ++ init ++ last :: behind = text := by
    rw [← h.append_eq]
    simp only [List.append_assoc, List.singleton_append]
  have hpos : Position.start.after (before ++ (init ++ [last])) =
      ⟨(Position.start.after (before ++ init)).line,
        (Position.start.after (before ++ init)).column + 1⟩ := by
    rw [← List.append_assoc, Position.after_append, Position.after_cons, Position.step,
      if_neg hnewline, Position.after_nil]
  rw [htext] at hline
  rw [hpos]
  refine ⟨row, hline, ?_⟩
  have hcolumn := (List.getElem?_eq_some_iff.1 hcolumn).1
  dsimp only
  omega

/-- No token stands below the last line. -/
theorem line_le_lineCount (h : t.StandsIn text before chars behind) :
    t.pos.line ≤ lineCount text := by
  obtain ⟨row, -, -, hline, -⟩ := h.exists_line
  have hlength := (List.getElem?_eq_some_iff.1 hline).1
  have hmax : (linesOf text).length ≤ lineCount text := Nat.le_max_right ..
  omega

end StandsIn

end Token

namespace Lexer

open Segment

variable {text file : String}

/-- Every token of a text stands in it. -/
theorem exists_standsIn {t : Token} (h : t ∈ (ofText text file).feed.tokens) :
    ∃ before chars behind, t.StandsIn text.toList before chars behind := by
  obtain ⟨us, vs, htokens⟩ := List.append_of_mem h
  obtain ⟨front, segment, back, hcut, htoken, -⟩ := exists_segment_of_tokensFrom htokens
  exact ⟨_, _, _, front, segment, back, hcut, htoken, rfl, rfl, rfl⟩

/-- A text without tokens ends where it begins. -/
theorem eof_pos_of_nil (h : (ofText text file).feed.tokens = []) :
    (ofText text file).feed.eof.pos = .start :=
  stopFrom_of_tokensFrom_eq_nil h

/-- A text ends right behind its last token, if that is no error. -/
theorem eof_pos_of_append {us : List Token} {t : Token}
    (h : (ofText text file).feed.tokens = us ++ [t]) (ht : t.kind ≠ .error) :
    ∃ before chars behind, t.StandsIn text.toList before chars behind ∧
      (ofText text file).feed.eof.pos = Position.start.after (before ++ chars) := by
  obtain ⟨front, segment, back, hcut, htoken, hback⟩ := exists_segment_of_tokensFrom h
  have hending : segment.isEnding = true := by
    unfold token? at htoken
    unfold isEnding
    split at htoken <;> cases htoken
    · next hform => rw [hform]
    · exact absurd rfl ht
  refine ⟨_, _, _, ⟨front, segment, back, hcut, htoken, rfl, rfl, rfl⟩, ?_⟩
  change stopFrom .start .start (ofText text file).rest = _
  -- no token follows, so nothing moves the end any more
  rw [hcut, stopFrom_append, stopFrom, if_pos hending, stopFrom_of_tokensFrom_eq_nil hback,
    Position.after_append]

/-- The end of a text is not below the last line. -/
theorem line_eof_le_lineCount :
    (ofText text file).feed.eof.pos.line ≤ MiniPascal.lineCount text.toList := by
  change (stopFrom .start .start (Segment.ofText text.toList)).line ≤ _
  obtain hstop | ⟨front, segment, back, hcut, hending, hstop⟩ :=
    stopFrom_cases .start .start (Segment.ofText text.toList)
  · rw [hstop]
    exact one_le_lineCount text.toList
  · -- the end is in the line of a token
    obtain ⟨t, ht⟩ := exists_token_of_isEnding hending (.after .start (front.flatMap chars))
    have hstands : t.StandsIn text.toList (front.flatMap chars) segment.chars _ :=
      ⟨front, segment, back, hcut, ht, rfl, rfl, rfl⟩
    rw [hstop, Position.after_append,
      Position.after_of_not_mem _ (newline_not_mem_of_isEnding hcut hending), ← hstands.pos_eq]
    exact hstands.line_le_lineCount

end Lexer

end MiniPascal
