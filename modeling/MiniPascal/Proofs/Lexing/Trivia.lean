import Mathlib.Data.List.Infix
import MiniPascal.Proofs.Lexing.Lexeme
import MiniPascal.Source.Lexer

/-!
# What a text is cut into

Between the tokens of a text there is **trivia**: white space and comments, in any order. A comment
reaches to the first occurrence of its closing lexeme behind the opening one.

`Cuts` tells what a segment may be that is cut off from the beginning of a text: a blank, a
comment, a lexeme or a fault. A comment that is never closed takes the whole rest of the text, and
any other fault stays on its line (`cuts_leading`).
-/

namespace MiniPascal

/-- How comments are opened and closed: by braces, or by parentheses with stars. Each opening lexeme
has a closing one of its own. -/
def commentMarks : List (List Char × List Char) :=
  [(['\x7b'], ['\x7d']), (['(', '*'], ['*', ')'])]

/-- White space and comments, in any order. The closing lexeme of a comment does not occur between
the opening one and the end of the comment. -/
inductive IsTrivia : List Char → Prop where
  | nil : IsTrivia []
  | blank {c : Char} {cs : List Char} (blank : isWhiteSpace c = true) (rest : IsTrivia cs) :
    IsTrivia (c :: cs)
  | comment {opening closing body cs : List Char} (marks : (opening, closing) ∈ commentMarks)
      (first : ¬closing <:+: (body ++ closing).dropLast) (rest : IsTrivia cs) :
    IsTrivia (opening ++ (body ++ closing) ++ cs)

/-- Trivia can follow trivia. -/
theorem IsTrivia.append {cs ds : List Char} (h : IsTrivia cs) (h' : IsTrivia ds) :
    IsTrivia (cs ++ ds) := by
  induction h with
  | nil => exact h'
  | blank blank _ ih => exact .blank blank ih
  | comment marks first _ ih =>
    rw [List.append_assoc]
    exact .comment marks first ih

namespace Segment

/-! ### Comments -/

/-- What reaches through a closing lexeme ends with its first occurrence. -/
theorem first_of_through {closing cs body : List Char} (hne : closing ≠ [])
    (h : through closing cs = some body) :
    ∃ inner, body = inner ++ closing ∧ ¬closing <:+: (inner ++ closing).dropLast := by
  induction cs generalizing body with
  | nil => cases h
  | cons c cs ih =>
    rw [through] at h
    split at h
    · cases h
      refine ⟨[], rfl, fun hinfix => ?_⟩
      have hlength := hinfix.length_le
      rw [List.nil_append, List.length_dropLast] at hlength
      have := List.length_pos_iff.2 hne
      omega
    · next hbegins =>
      obtain ⟨body, hbody, rfl⟩ := Option.map_eq_some_iff.1 h
      obtain ⟨inner, rfl, hinner⟩ := ih hbody
      have hnonempty : inner ++ closing ≠ [] := List.append_ne_nil_of_right_ne_nil inner hne
      refine ⟨c :: inner, rfl, fun hinfix => ?_⟩
      rw [List.cons_append, List.dropLast_cons_of_ne_nil hnonempty, List.infix_cons_iff] at hinfix
      -- an earlier occurrence would begin the text or lie in the rest
      obtain hhere | hinfix := hinfix
      · have htext : (inner ++ closing).dropLast <+: cs :=
          (List.dropLast_prefix _).trans (through_isPrefix hbody)
        exact hbegins (List.isPrefixOf_iff_prefix.2
          (hhere.trans ((List.prefix_cons_inj c).2 htext)))
      · exact hinner hinfix

/-- What may be cut off from the beginning of the text `c :: cs`, besides its first character:
trivia, a lexeme, or what a fault takes with it. -/
inductive Cuts (c : Char) (cs : List Char) : Form → List Char → Prop where
  | blank (blank : isWhiteSpace c = true) : Cuts c cs .blank []
  | comment {more : List Char} (trivia : IsTrivia (c :: more)) : Cuts c cs .comment more
  | lexeme {more : List Char} {k : Kind} {text : String} (lexeme : IsLexeme c more k text) :
    Cuts c cs (.lexeme k text) more
  | toEnd : Cuts c cs (.fault .openComment) cs
  | fault {more : List Char} {e : LexicalError} (other : e ≠ .openComment)
      (oneLine : '\n' ∉ c :: more) : Cuts c cs (.fault e) more

/-- A comment is closed, or it takes all the rest. -/
private theorem cuts_comment {c : Char} {closing : List Char} (opening cs : List Char)
    (marks : (c :: opening, closing) ∈ commentMarks) (hne : closing ≠ []) :
    Cuts c (opening ++ cs) (comment closing cs).1 (opening ++ (comment closing cs).2) := by
  unfold comment
  split
  · next body hbody =>
    obtain ⟨inner, rfl, hfirst⟩ := first_of_through hne hbody
    have htrivia := IsTrivia.comment marks hfirst .nil
    rw [List.append_nil] at htrivia
    exact .comment htrivia
  · exact .toEnd

/-- What is taken up to a quote character stays on its line. -/
private theorem newline_not_mem_upTo (quote : Char) (cs : List Char) : '\n' ∉ upTo quote cs := by
  intro h
  simpa using List.mem_takeWhile_imp h

private theorem cuts_string (cs : List Char) : Cuts '"' cs (string cs).1 (string cs).2 := by
  unfold string
  dsimp only
  split
  · exact .lexeme (.string fun c hc => by simpa using List.mem_takeWhile_imp hc)
  · refine .fault nofun (List.not_mem_cons_of_ne_of_not_mem (by decide) ?_)
    exact newline_not_mem_upTo _ _

/-- A character literal ends with its value, or it is too long and ends on its line. -/
private theorem charEnd_cases (c : Char) (cs : List Char) :
    charEnd c cs = (.lexeme (.literal .char) (String.singleton c), ['\'']) ∨
      ∃ more, charEnd c cs = (.fault .longChar, more) ∧ '\n' ∉ more := by
  unfold charEnd
  split
  · exact .inl rfl
  · refine .inr ?_
    dsimp only
    split
    · refine ⟨_, rfl, fun h => ?_⟩
      obtain h | h := List.mem_append.1 h
      · exact newline_not_mem_upTo _ _ h
      · revert h
        decide
    · exact ⟨_, rfl, newline_not_mem_upTo _ _⟩

private theorem cuts_char (cs : List Char) : Cuts '\'' cs (char cs).1 (char cs).2 := by
  unfold char
  split
  · exact .fault nofun (by decide)
  · exact .fault nofun (by decide)
  · next rest =>
    obtain h | ⟨more, h, hline⟩ := charEnd_cases '\'' rest
    · rw [h]
      exact .lexeme (.char (c := '\'') (by decide))
    · rw [h]
      refine .fault nofun ?_
      simp [hline]
  · exact .fault nofun (by decide)
  · next c rest hnewline _ hquote =>
    have hc : c ≠ '\n' := hnewline
    obtain h | ⟨more, h, hline⟩ := charEnd_cases c rest
    · have hsingle : Token.doubleQuotes [c] = [c] := by
        have hne : c ≠ '\'' := hquote
        simp [Token.doubleQuotes, hne]
      have hlexeme := IsLexeme.char hc
      rw [hsingle] at hlexeme
      rw [h]
      exact .lexeme hlexeme
    · rw [h]
      refine .fault nofun ?_
      simp [hline, hc.symm]

private theorem cuts_shortSymbol {c : Char} (cs : List Char) (hc : c ≠ '\n') :
    Cuts c cs (shortSymbol c).1 (shortSymbol c).2 := by
  unfold shortSymbol
  split
  · next hk => exact .lexeme (.symbol hk)
  · exact .fault nofun (List.not_mem_cons_of_ne_of_not_mem hc.symm List.not_mem_nil)

private theorem cuts_symbol {c : Char} (cs : List Char) (hc : c ≠ '\n') :
    Cuts c cs (symbol c cs).1 (symbol c cs).2 := by
  unfold symbol
  split
  · exact cuts_shortSymbol _ hc
  · split
    · next hk => exact .lexeme (.symbol hk)
    · exact cuts_shortSymbol _ hc

/-- What is cut off from the beginning of a text. -/
theorem cuts_leading (c : Char) (cs : List Char) : Cuts c cs (leading c cs).1 (leading c cs).2 := by
  unfold leading
  split
  · next hblank => exact .blank hblank
  next hblank =>
  split
  · next hbrace =>
    subst hbrace
    exact cuts_comment [] cs (by decide) (by decide)
  split
  · next hstar =>
    obtain ⟨rfl, hhead⟩ := hstar
    obtain ⟨rest, rfl⟩ : ∃ rest, cs = '*' :: rest := by
      cases cs <;> simp_all
    exact cuts_comment ['*'] rest (by decide) (by decide)
  split
  · next hname => exact .lexeme (.word hname fun _ => List.mem_takeWhile_imp)
  split
  · next hdigit =>
    exact .lexeme (.numeral hdigit (fun _ => isDigit_of_mem_digits) (isFraction_fraction _)
      (isExponent_exponent _))
  split
  · next hquote =>
    subst hquote
    exact cuts_string cs
  split
  · next hquote =>
    subst hquote
    exact cuts_char cs
  · refine cuts_symbol cs ?_
    rintro rfl
    exact hblank isWhiteSpace_newline

/-! ### Lexemes -/

/-- A fraction or an exponent holds no white space. -/
private theorem isWhiteSpace_of_mem_numeral {part power : List Char} (hpart : IsFraction part)
    (hpower : IsExponent power) : ∀ d ∈ part ++ power, isWhiteSpace d = false := by
  have hdigits : ∀ {ds : List Char}, (∀ d ∈ ds, d.isDigit = true) →
      ∀ d ∈ ds, isWhiteSpace d = false :=
    fun hds d hd => isWhiteSpace_of_isNamePart (isNamePart_of_isDigit (hds d hd))
  refine List.forall_mem_append.2 ⟨?_, ?_⟩
  · obtain rfl | ⟨ds, rfl, -, hds⟩ := hpart
    · exact List.forall_mem_nil _
    · exact List.forall_mem_cons.2 ⟨by decide, hdigits hds⟩
  · obtain rfl | ⟨e, sign, ds, rfl, he, hsign, -, hds⟩ := hpower
    · exact List.forall_mem_nil _
    · refine List.forall_mem_cons.2 ⟨?_, List.forall_mem_append.2 ⟨?_, hdigits hds⟩⟩
      · obtain rfl | rfl := he <;> decide
      · obtain rfl | rfl | rfl := hsign
        · exact List.forall_mem_singleton.2 (by decide)
        · exact List.forall_mem_singleton.2 (by decide)
        · exact List.forall_mem_nil _

/-- A symbol holds no white space. -/
private theorem isWhiteSpace_of_mem_symbol {text : List Char} {k : Kind}
    (h : Kind.ofSymbol? text = some k) : ∀ d ∈ text, isWhiteSpace d = false := by
  have hall : text.all (fun d => !isWhiteSpace d) = true := by
    unfold Kind.ofSymbol? at h
    split at h <;> cases h <;> decide
  exact fun d hd => by simpa using List.all_eq_true.1 hall d hd

/-- A lexeme holds no white space, or it stands between quotes on one line. -/
theorem IsLexeme.visible_or_quoted {c : Char} {more : List Char} {k : Kind} {text : String}
    (h : IsLexeme c more k text) : (∀ d ∈ c :: more, isWhiteSpace d = false) ∨
      ∃ quote value, isWhiteSpace quote = false ∧ '\n' ∉ value ∧
        c :: more = quote :: (value ++ [quote]) := by
  cases h with
  | word first further =>
    refine .inl (List.forall_mem_cons.2 ⟨?_, fun d hd => ?_⟩)
    · exact isWhiteSpace_of_isNamePart (isNamePart_of_isNameStart first)
    · exact isWhiteSpace_of_isNamePart (further d hd)
  | numeral first digits fraction exponent =>
    refine .inl (List.forall_mem_cons.2 ⟨?_, ?_⟩)
    · exact isWhiteSpace_of_isNamePart (isNamePart_of_isDigit first)
    · rw [List.append_assoc]
      refine List.forall_mem_append.2 ⟨fun d hd => ?_, isWhiteSpace_of_mem_numeral fraction exponent⟩
      exact isWhiteSpace_of_isNamePart (isNamePart_of_isDigit (digits d hd))
  | @string value plain =>
    exact .inr ⟨'"', value, by decide, fun hmem => (plain _ hmem).2 rfl, rfl⟩
  | @char c plain =>
    refine .inr ⟨'\'', Token.doubleQuotes [c], by decide, ?_, rfl⟩
    by_cases hquote : c = '\'' <;> simp [Token.doubleQuotes, hquote, plain.symm]
  | symbol symbol => exact .inl (isWhiteSpace_of_mem_symbol symbol)

/-- A visible character is no line feed. -/
theorem ne_newline_of_isWhiteSpace {c : Char} (h : isWhiteSpace c = false) : '\n' ≠ c := by
  rintro rfl
  rw [isWhiteSpace_newline] at h
  cases h

/-- A lexeme stays on its line. -/
theorem IsLexeme.newline_not_mem {c : Char} {more : List Char} {k : Kind} {text : String}
    (h : IsLexeme c more k text) : '\n' ∉ c :: more := by
  obtain hvisible | ⟨quote, value, hquote, hvalue, hlexeme⟩ := h.visible_or_quoted
  · exact fun hmem => ne_newline_of_isWhiteSpace (hvisible _ hmem) rfl
  · have hne := ne_newline_of_isWhiteSpace hquote
    simp [hlexeme, hvalue, hne]

/-- A lexeme is neither an error nor the end of the input. -/
theorem IsLexeme.kind_ne {c : Char} {more : List Char} {k : Kind} {text : String}
    (h : IsLexeme c more k text) : k ≠ .error ∧ k ≠ .eof := by
  cases h with
  | @word c more =>
    have hword := isWord_wordKind (String.ofList (c :: more))
    constructor
    all_goals
      intro hk
      rw [hk] at hword
      revert hword
      decide
  | numeral | string | char => exact ⟨nofun, nofun⟩
  | @symbol c more k symbol =>
    have hspelling := Kind.spelling?_of_ofSymbol? symbol
    constructor
    all_goals
      rintro rfl
      cases hspelling

/-! ### Tokens -/

/-- No segment of a text has a token for the end. -/
theorem kind_ne_eof_of_token? {c : Char} {cs : List Char} {pos : Position} {t : Token}
    (h : (ofLeading c cs).token? pos = some t) : t.kind ≠ .eof := by
  have hcuts := cuts_leading c cs
  generalize hform : (leading c cs).1 = form at hcuts
  generalize (leading c cs).2 = more at hcuts
  rw [token?, show (ofLeading c cs).form = form from hform] at h
  cases hcuts with
  | blank | comment => cases h
  | lexeme lexeme =>
    cases h
    exact lexeme.kind_ne.2
  | toEnd | fault =>
    cases h
    exact Kind.noConfusion

/-- No token that a lexer finds in a text is for the end. -/
theorem kind_ne_eof_of_mem_tokensFrom {cs : List Char} {pos : Position} {t : Token}
    (h : t ∈ Lexer.tokensFrom pos (ofText cs)) : t.kind ≠ .eof := by
  fun_induction ofText cs generalizing pos with
  | case1 => cases h
  | case2 c cs ih =>
    rw [Lexer.tokensFrom, List.mem_append, Option.mem_toList] at h
    obtain h | h := h
    · exact kind_ne_eof_of_token? h
    · exact ih h

end Segment

end MiniPascal
