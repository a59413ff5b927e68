import MiniPascal.Proofs.Grammar.FirstError
import MiniPascal.Proofs.Lexing.Places

/-!
# Diagnostics point into the source

A diagnostic for a text refers to a line that the text has and to a column of that line, or to the
place right behind its last character (`Diagnostic.PointsInto`). If a token is at fault, its first
character stands there; at the end of the input, the last token ends there.

So a rendered diagnostic always has all five rows, each of them on a line of its own, and the caret
stands below the column that is meant, however many digits the numbers of lines have
(`Diagnostic.RendersAs`). What could spoil this are line feeds in a row: there are none in names of
kinds, in numbers and in the texts of tokens.
-/

namespace MiniPascal

/-! ### Texts on one line -/

/-- Whether a text stays on one line, that is, has no line feed in it. Texts put together from such
texts do, too (`OneLine.append`). Messages, numbers and tokens as they are displayed do. -/
def OneLine (text : String) : Prop :=
  '\n' ∉ text.toList

instance (text : String) : Decidable (OneLine text) :=
  inferInstanceAs (Decidable (_ ∉ _))

namespace OneLine

variable {text text' : String}

theorem append (h : OneLine text) (h' : OneLine text') : OneLine (text ++ text') := by
  rw [OneLine, String.toList_append, List.mem_append, not_or]
  exact ⟨h, h'⟩

theorem intercalate {texts : List String} (h : OneLine text) (h' : ∀ t ∈ texts, OneLine t) :
    OneLine (text.intercalate texts) := by
  rw [OneLine, String.toList_intercalate]
  induction texts with
  | nil => exact List.not_mem_nil
  | cons t texts ih =>
    obtain ⟨ht, htexts⟩ := List.forall_mem_cons.1 h'
    cases texts with
    | nil => simpa using show '\n' ∉ t.toList from ht
    | cons u texts =>
      rw [List.map_cons, List.map_cons, List.intercalate_cons_cons, ← List.map_cons]
      simp only [List.mem_append, not_or]
      exact ⟨⟨ht, h⟩, ih htexts⟩

theorem toString (n : Nat) : OneLine (toString n) := by
  intro hmem
  rw [Nat.toString_eq_repr, Nat.toList_repr] at hmem
  exact absurd (Nat.isDigit_of_mem_toDigits (by decide) (by decide) hmem) (by decide)

theorem blanks (count : Nat) : OneLine (blanks count) := by
  intro hmem
  rw [MiniPascal.blanks, String.toList_ofList] at hmem
  exact absurd (List.eq_of_mem_replicate hmem) (by decide)

theorem alignRight (width : Nat) (h : OneLine text) : OneLine (alignRight width text) :=
  (blanks _).append h

end OneLine

theorem Kind.oneLine_display (k : Kind) : OneLine k.display := by
  have hall : ∀ k ∈ Kind.all, OneLine k.display := by decide +kernel
  exact hall k k.mem_all

theorem Token.oneLine_display {t : Token} (h : OneLine t.text) : OneLine t.display := by
  unfold display
  split
  · exact (OneLine.append (by decide) h).append (by decide)
  · refine (OneLine.append (by decide) fun hmem => ?_).append (by decide)
    rw [String.toList_ofList, doubleQuotes, List.mem_flatMap] at hmem
    obtain ⟨c, hc, hmem⟩ := hmem
    have hnewline : '\n' = c := by
      split at hmem <;> simpa using hmem
    exact h (hnewline ▸ hc)
  · exact Kind.oneLine_display .eof
  · exact h

theorem Token.oneLine_describe {t : Token} (h : OneLine t.text) : OneLine t.describe := by
  unfold describe
  split
  · exact t.kind.oneLine_display
  · exact ((t.kind.oneLine_display.append (by decide)).append h).append (by decide)
  · exact (t.kind.oneLine_display.append (by decide)).append (oneLine_display h)
  · exact (OneLine.append (by decide) h).append (by decide)

/-- A message about a token stays on one line if the text of the token does. -/
theorem Cause.oneLine_message (cause : Cause) {found : Token} (h : OneLine found.text) :
    OneLine (cause.message found) := by
  have hdescribe := Token.oneLine_describe h
  unfold message
  split
  · exact h
  · cases cause with
    | expected kinds =>
      refine ((OneLine.append (by decide) ?_).append (by decide)).append hdescribe
      refine OneLine.intercalate (by decide) fun text htext => ?_
      obtain ⟨k, -, rfl⟩ := List.mem_map.1 htext
      exact k.oneLine_display
    | statement | operand | unexpected => exact OneLine.append (by decide) hdescribe

namespace Segment

/-- An unknown symbol is the character that is looked at. -/
private theorem eq_of_unknownSymbol {c d : Char} {cs : List Char}
    (h : (leading c cs).1 = .fault (.unknownSymbol d)) : d = c := by
  have hcomment : ∀ close cs, (comment close cs).1 ≠ .fault (.unknownSymbol d) := by
    intro close cs
    unfold comment
    split <;> nofun
  have hcharEnd : ∀ c cs, (charEnd c cs).1 ≠ .fault (.unknownSymbol d) := by
    intro c cs
    unfold charEnd
    split
    · nofun
    · dsimp only
      split <;> nofun
  have hshort : (shortSymbol c).1 = .fault (.unknownSymbol d) → d = c := by
    unfold shortSymbol
    split
    · nofun
    · rintro ⟨⟩
      rfl
  unfold leading at h
  split at h
  · cases h
  split at h
  · exact absurd h (hcomment _ _)
  split at h
  · exact absurd h (hcomment _ _)
  split at h
  · cases h
  split at h
  · cases h
  split at h
  · unfold string at h
    dsimp only at h
    split at h <;> cases h
  split at h
  · unfold char at h
    split at h
    · cases h
    · cases h
    · exact absurd h (hcharEnd _ _)
    · cases h
    · exact absurd h (hcharEnd _ _)
  · unfold symbol at h
    split at h
    · exact hshort h
    · split at h
      · cases h
      · exact hshort h

/-- The text of a lexeme stays on one line. -/
private theorem IsLexeme.oneLine_text {c : Char} {more : List Char} {k : Kind} {text : String}
    (h : IsLexeme c more k text) : OneLine text := by
  have hchars := h.newline_not_mem
  unfold OneLine
  cases h with
  | word | numeral | symbol =>
    rw [String.toList_ofList]
    exact hchars
  | string plain =>
    rw [String.toList_ofList]
    exact fun hmem => (plain _ hmem).2 rfl
  | char plain =>
    rw [String.toList_singleton, List.mem_singleton]
    exact plain.symm

/-- A message about a faulty stretch of text stays on one line. -/
private theorem oneLine_message_of_append {text : List Char} {front back : List Segment}
    {segment : Segment} {e : LexicalError} (h : ofText text = front ++ segment :: back)
    (hform : segment.form = .fault e) : OneLine e.message := by
  cases e with
  | openComment | openString | openChar | emptyChar | longChar => decide
  | unknownSymbol d =>
    have hd : d = segment.first := by
      have hleading := congrArg Prod.fst (leading_of_append h)
      exact eq_of_unknownSymbol (hleading.trans hform)
    have hvisible := isWhiteSpace_first h (by rw [hform]; exact nofun)
    refine OneLine.append (OneLine.append (by decide) ?_) (by decide)
    rw [OneLine, String.toList_singleton, List.mem_singleton]
    rintro rfl
    rw [← hd, isWhiteSpace_newline] at hvisible
    cases hvisible

end Segment

/-- The text of every token of a source stays on one line. -/
theorem Lexer.oneLine_text {text file : String} {t : Token}
    (h : t ∈ (ofText text file).feed.tokens) : OneLine t.text := by
  obtain ⟨before, chars, behind, front, segment, back, hcut, htoken, -⟩ := exists_standsIn h
  unfold Segment.token? at htoken
  split at htoken
  · cases htoken
  · cases htoken
  · next hform =>
    cases htoken
    have hleading := Segment.leading_of_append hcut
    rw [hform] at hleading
    exact (Segment.isLexeme_of_leading hleading).oneLine_text
  · next hform =>
    cases htoken
    exact Segment.oneLine_message_of_append hcut hform

/-! ### Rendering -/

/-- A larger number does not have fewer digits. -/
theorem length_toString_le {m n : Nat} (h : m ≤ n) : (toString m).length ≤ (toString n).length := by
  rw [Nat.toString_eq_repr, Nat.toString_eq_repr, ← String.length_toList, ← String.length_toList,
    Nat.toList_repr, Nat.toList_repr]
  have hpos : 0 < (Nat.toDigits 10 n).length := Nat.length_toDigits_pos
  rw [Nat.length_toDigits_le_iff (by decide) hpos]
  exact Nat.lt_of_le_of_lt h ((Nat.length_toDigits_le_iff (by decide) hpos).1 (Nat.le_refl _))

namespace Diagnostic

/-- Whether a diagnostic is **rendered** in five rows, each of them on a line of its own, so that
the fourth shows the line behind a margin, and a caret in the fifth stands below its column. -/
def RendersAs (d : Diagnostic) (source : String) (line : List Char) : Prop :=
  ∃ heading place rim margin ruler : String,
    let rows := [heading, place, rim, margin ++ String.ofList line, ruler ++ "^"]
    d.render source = String.join (rows.map (· ++ "\n")) ∧ (∀ row ∈ rows, OneLine row) ∧
      '^' ∉ ruler.toList ∧ ruler.length = margin.length + (d.pos.column - 1)

/-- The gutter is as wide as the number of the line, if the file has that line. -/
theorem length_number (d : Diagnostic) :
    (alignRight d.gutter (toString d.pos.line)).length = d.gutter := by
  rw [length_alignRight]
  exact Nat.max_eq_left (length_toString_le (Nat.le_max_right ..))

/-- A diagnostic is rendered with the line that it refers to. -/
theorem rendersAs {d : Diagnostic} {source : String} {line : List Char}
    (hfile : OneLine d.file) (hmessage : OneLine d.message) (hline : '\n' ∉ line)
    (hshown : d.sourceLine? source = some line) : d.RendersAs source line := by
  refine ⟨"error: " ++ d.message, blanks d.gutter ++ "--> " ++ d.file ++ ":" ++
    toString d.pos.line ++ ":" ++ toString d.pos.column, blanks d.gutter ++ " |",
    alignRight d.gutter (toString d.pos.line) ++ " | ",
    blanks d.gutter ++ " | " ++ blanks (d.pos.column - 1), ?_, ?_, ?_, ?_⟩
  · have hrim : " |\n" = " |" ++ "\n" := by decide
    have hcaret : "^\n" = "^" ++ "\n" := by decide
    rw [render, hshown]
    dsimp only
    rw [hrim, hcaret]
    simp only [List.map_cons, List.map_nil, String.join_cons, String.join_nil, String.append_empty,
      String.append_assoc]
  · have hmargin := OneLine.blanks d.gutter
    have hplace := ((hmargin.append (by decide : OneLine "--> ")).append hfile).append
      (by decide : OneLine ":")
    simp only [List.forall_mem_cons]
    refine ⟨OneLine.append (by decide) hmessage, ?_, hmargin.append (by decide), ?_, ?_, nofun⟩
    · exact ((hplace.append (.toString _)).append (by decide)).append (.toString _)
    · refine ((OneLine.alignRight _ (.toString _)).append (by decide)).append ?_
      rw [OneLine, String.toList_ofList]
      exact hline
    · exact ((hmargin.append (by decide)).append (.blanks _)).append (by decide)
  · simp [blanks]
  · have hbar : " | ".length = 3 := by decide
    rw [String.length_append, String.length_append, String.length_append, length_number, hbar]
    simp only [blanks, String.length_ofList, List.length_replicate]

/-! ### Diagnostics and texts -/

/-- What it means that a diagnostic **points into** a text, at a token found there: to a column of
one of its lines, or right behind that line. -/
structure PointsInto (d : Diagnostic) (text : String) (found : Token) (row : List Char) :
    Prop where
  line_bounds : 1 ≤ d.pos.line ∧ d.pos.line ≤ d.lineCount
  shown : (linesOf text.toList)[d.pos.line - 1]? = some row
  column_bounds : 1 ≤ d.pos.column ∧ d.pos.column ≤ row.length + 1
  pos : d.pos = found.pos
  /-- A token that is not the end has its first character in the column. -/
  token : found.kind ≠ .eof → ∃ before c more behind,
    found.StandsIn text.toList before (c :: more) behind ∧ row[d.pos.column - 1]? = some c
  /-- The end is right behind the last character of the last token. -/
  atEnd : found.kind = .eof → (scan text = [found] ∧ d.pos = ⟨1, 1⟩) ∨
    ∃ us t before chars behind, scan text = us ++ [t, found] ∧
      t.StandsIn text.toList before chars behind ∧ d.pos = Position.start.after (before ++ chars)

end Diagnostic

namespace Lexer

variable {text file : String}

/-- A token at fault is in a column of a line. -/
private theorem pointsInto_of_mem {t : Token} (h : t ∈ (ofText text file).feed.tokens)
    (message : String) : ∃ row, Diagnostic.PointsInto
      ⟨file, MiniPascal.lineCount text.toList, t.pos, message⟩ text t row := by
  obtain ⟨before, chars, behind, hstands⟩ := exists_standsIn h
  obtain ⟨row, c, more, hline, hcolumn, rfl⟩ := hstands.exists_line
  have hpos := Position.one_le_after_start before
  have hlength := (List.getElem?_eq_some_iff.1 hcolumn).1
  rw [← hstands.pos_eq] at hpos
  refine ⟨row, ⟨hpos.1, hstands.line_le_lineCount⟩, hline, ⟨hpos.2, ?_⟩, rfl,
    fun _ => ⟨_, _, _, _, hstands, hcolumn⟩, fun heof => ?_⟩
  · dsimp only
    omega
  · exact absurd heof (Segment.kind_ne_eof_of_mem_tokensFrom h)

/-- The end of a text is right behind its last token, if no token is an error. -/
private theorem pointsInto_of_eof (htext : text ≠ "")
    (h : ∀ t ∈ (ofText text file).feed.tokens, t.kind ≠ .error) (message : String) :
    let eof := (ofText text file).feed.eof
    ∃ row, Diagnostic.PointsInto
      ⟨file, MiniPascal.lineCount text.toList, eof.pos, message⟩ text eof row := by
  intro eof
  have hscan : scan text = (ofText text file).feed.tokens ++ [eof] := rfl
  obtain htokens | ⟨us, t, htokens⟩ := List.eq_nil_or_concat (ofText text file).feed.tokens
  · -- without tokens the end is the beginning, and there is a first line
    have hpos : eof.pos = ⟨1, 1⟩ := eof_pos_of_nil htokens
    have hlines := linesOf_ne_nil (mt String.toList_eq_nil_iff.1 htext)
    obtain ⟨row, more, hline⟩ := List.exists_cons_of_ne_nil hlines
    rw [htokens] at hscan
    refine ⟨row, ⟨?_, line_eof_le_lineCount⟩, ?_, ?_, rfl, fun hne => absurd rfl hne,
      fun _ => .inl ⟨hscan, hpos⟩⟩
    · rw [hpos]
    · rw [hpos, hline]
      rfl
    · rw [hpos]
      exact ⟨Nat.le_refl 1, Nat.le_add_left 1 _⟩
  · rw [List.concat_eq_append] at htokens
    have ht : t.kind ≠ .error := h t (by simp [htokens])
    obtain ⟨before, chars, behind, hstands, hpos⟩ := eof_pos_of_append htokens ht
    obtain ⟨row, hline, hcolumn⟩ := hstands.exists_line_behind ht
    have hbounds := Position.one_le_after_start (before ++ chars)
    rw [← hpos] at hline hcolumn hbounds
    rw [htokens, List.append_assoc] at hscan
    exact ⟨row, ⟨hbounds.1, line_eof_le_lineCount⟩, hline, ⟨hbounds.2, hcolumn⟩, rfl,
      fun hne => absurd rfl hne, fun _ => .inr ⟨us, t, before, chars, behind, hscan, hstands, hpos⟩⟩

end Lexer

/-- A diagnostic for a text names the file and counts the lines of the text. It points into the
text, at the token that is next when the parser has stopped, and it is rendered with the line it
points to and a caret below the column. -/
theorem exists_pointsInto_of_parseText {file text : String} (hfile : OneLine file)
    (htext : text ≠ "") {d : Diagnostic} (h : parseText file text = .error d) :
    d.file = file ∧ d.lineCount = max 1 (linesOf text.toList).length ∧
      ∃ row, d.PointsInto text
          (Parser.ofSource (.lexer (Lexer.ofText text file))).parse.2.feed.head row ∧
        d.RendersAs text row := by
  obtain ⟨us, c, cause, htokens, hnoError, -, hstop, rfl⟩ := Parser.exists_stop_of_error h
  rw [hstop]
  let lexer := Lexer.ofText text file
  let found := c.rest.headD lexer.feed.eof
  have hpoints : OneLine found.text ∧ ∃ row, Diagnostic.PointsInto
      ⟨file, lineCount text.toList, found.pos, cause.message found⟩ text found row := by
    change lexer.feed.tokens = us ++ c.rest at htokens
    cases hrest : c.rest with
    | nil =>
      rw [hrest, List.append_nil] at htokens
      have hfound : found = lexer.feed.eof := by simp only [found, hrest, List.headD_nil]
      rw [hfound]
      exact ⟨(by decide : OneLine ""), Lexer.pointsInto_of_eof htext (htokens ▸ hnoError) _⟩
    | cons t rest =>
      have hfound : found = t := by simp only [found, hrest, List.headD_cons]
      have hmem : t ∈ lexer.feed.tokens := by simp [htokens, hrest]
      rw [hfound]
      exact ⟨Lexer.oneLine_text hmem, Lexer.pointsInto_of_mem hmem _⟩
  obtain ⟨htextLine, row, hline⟩ := hpoints
  refine ⟨rfl, rfl, row, hline, Diagnostic.rendersAs hfile (cause.oneLine_message htextLine) ?_
    hline.shown⟩
  exact newline_not_mem_of_mem_linesOf (List.mem_of_getElem? hline.shown)

/-- A period that is missing behind `end` is missed right there, although a comment with line feeds
and carriage returns follow. -/
theorem exists_pointsInto_of_parseText_period :
    let text := "program a;\r\nbegin end \x7b.\n\x7d\r\n"
    ∃ d row, OneLine "a.pas" ∧ text ≠ "" ∧ parseText "a.pas" text = .error d ∧
      d.PointsInto text (Parser.ofSource (.lexer (Lexer.ofText text "a.pas"))).parse.2.feed.head
        row ∧ d.RendersAs text row ∧ d.pos = ⟨2, 10⟩ ∧ d.lineCount = 3 := by
  intro text
  have hfile : OneLine "a.pas" := by decide
  have htext : text ≠ "" := by decide
  have hrun : (match parseText "a.pas" text with
      | .error e => decide (e.pos = ⟨2, 10⟩ ∧ e.lineCount = 3)
      | .ok _ => false) = true := by decide +kernel
  split at hrun
  · next d hd =>
    obtain ⟨-, -, row, hpoints, hrenders⟩ := exists_pointsInto_of_parseText hfile htext hd
    obtain ⟨hpos, hlines⟩ := of_decide_eq_true hrun
    exact ⟨d, row, hfile, htext, hd, hpoints, hrenders, hpos, hlines⟩
  · cases hrun

end MiniPascal
