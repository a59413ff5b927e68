import Mathlib.Data.List.TakeWhile
import MiniPascal.Segment.OfText

/-!
# Lexemes stand alone

`IsLexeme c more k text` says that the characters `c :: more` are a **lexeme** of kind `k` whose
token has the given text. It speaks of these characters only and knows nothing of what follows.
What follows decides how far a lexeme reaches, but only by its first character: tokens of each kind
**end before** certain characters, those that cannot go on with them. So the scanner cuts off
lexemes only (`isLexeme_of_leading`), and it cuts off any lexeme that stands before such a character
(`leading_of_isLexeme`).
-/

namespace MiniPascal

/-- Whether a text is empty or **starts** with a character that has a property. It says what may
follow a lexeme, where the end of the text always may. -/
def Starts (p : Char → Prop) (cs : List Char) : Prop :=
  ∀ c ∈ cs.head?, p c

namespace Starts

variable {p q : Char → Prop} {cs ds : List Char}

theorem imp (h : Starts p cs) (hpq : ∀ c, p c → q c) : Starts q cs :=
  fun c hc => hpq c (h c hc)

theorem append (h : Starts p cs) (h' : Starts p ds) : Starts p (cs ++ ds) := by
  cases cs with
  | nil => exact h'
  | cons c cs => exact h

theorem cons {c : Char} (h : p c) : Starts p (c :: cs) := by
  rintro d ⟨⟩
  exact h

theorem head {c : Char} (h : Starts p (c :: cs)) : p c :=
  h c rfl

end Starts

/-- Whether tokens of this kind are spelled like names: names themselves, reserved words and the
boolean literals. -/
def Kind.isWord (k : Kind) : Bool :=
  k = .ident || k = .literal .boolean || k ∈ Kind.words

/-- Whether a token of this kind certainly **ends** before a character, which could not prolong it,
whatever its text is. -/
def Kind.endsBefore (k : Kind) (c : Char) : Bool :=
  if k.isWord then !Segment.isNamePart c
  else
    match k with
    | .literal .integer | .literal .real => !Segment.isNamePart c && c ≠ '.'
    | .mark .openParen => c ≠ '*'
    | .mark .colon | .operator .greater => c ≠ '='
    | .operator .less => c ≠ '=' && c ≠ '>'
    | _ => true

/-- Whether a text cannot go on with a token of this kind, since it is empty or starts with a
character before which such a token ends. -/
abbrev Kind.EndsAt (k : Kind) (rest : List Char) : Prop :=
  Starts (fun c => k.endsBefore c = true) rest

namespace Segment

/-! ### Words and numerals -/

/-- The longest beginning of a text all of whose characters have a property is the same with another
text behind it that does not start with such a character. -/
theorem takeWhile_append_of_starts {p : Char → Bool} {cs rest : List Char}
    (hcs : ∀ c ∈ cs, p c = true) (hrest : Starts (fun c => p c = false) rest) :
    (cs ++ rest).takeWhile p = cs := by
  rw [List.takeWhile_append_of_pos hcs]
  cases rest with
  | nil => rw [List.takeWhile_nil, List.append_nil]
  | cons c rest =>
    have hc : ¬p c = true := by
      rw [hrest.head]
      exact Bool.false_ne_true
    rw [List.takeWhile_cons_of_neg hc, List.append_nil]

/-- A word is cut off before a character that is not part of a name. -/
theorem word_append (c : Char) {more rest : List Char} (hmore : ∀ d ∈ more, isNamePart d = true)
    (hrest : Starts (fun d => isNamePart d = false) rest) :
    word c (more ++ rest) =
      (.lexeme (wordKind (String.ofList (c :: more))) (String.ofList (c :: more)), more) := by
  simp only [word, takeWhile_append_of_starts hmore hrest]

theorem isDigit_of_mem_digits {cs : List Char} {d : Char} (h : d ∈ digits cs) :
    d.isDigit = true :=
  List.mem_takeWhile_imp h

theorem digits_append {ds rest : List Char} (hds : ∀ d ∈ ds, d.isDigit = true)
    (hrest : Starts (fun d => d.isDigit = false) rest) : digits (ds ++ rest) = ds :=
  takeWhile_append_of_starts hds hrest

/-- Whether characters are a fraction of a numeral, or nothing. A fraction is a point with at least
one digit behind it. -/
def IsFraction (cs : List Char) : Prop :=
  cs = [] ∨ ∃ ds : List Char, cs = '.' :: ds ∧ ds ≠ [] ∧ ∀ d ∈ ds, d.isDigit = true

/-- Whether characters are an exponent of a numeral, or nothing. An exponent is a letter, perhaps a
sign, and at least one digit. -/
def IsExponent (cs : List Char) : Prop :=
  cs = [] ∨ ∃ (e : Char) (sign ds : List Char), cs = e :: (sign ++ ds) ∧ (e = 'e' ∨ e = 'E') ∧
    (sign = ['+'] ∨ sign = ['-'] ∨ sign = []) ∧ ds ≠ [] ∧ ∀ d ∈ ds, d.isDigit = true

theorem isFraction_fraction (cs : List Char) : IsFraction (fraction cs) := by
  unfold fraction
  split
  · split
    · exact .inl rfl
    · next h => exact .inr ⟨_, rfl, h, fun _ => isDigit_of_mem_digits⟩
  · exact .inl rfl

theorem sign_cases (cs : List Char) : sign cs = ['+'] ∨ sign cs = ['-'] ∨ sign cs = [] := by
  unfold sign
  split
  · exact .inl rfl
  · exact .inr (.inl rfl)
  · exact .inr (.inr rfl)

theorem isExponent_exponent (cs : List Char) : IsExponent (exponent cs) := by
  cases cs with
  | nil => exact .inl rfl
  | cons e cs =>
    rw [exponent]
    split
    · next h =>
      exact .inr ⟨e, sign cs, _, rfl, h.1, sign_cases cs, h.2, fun _ => isDigit_of_mem_digits⟩
    · exact .inl rfl

theorem IsFraction.starts {cs : List Char} (h : IsFraction cs) : Starts (fun d => d = '.') cs := by
  obtain rfl | ⟨ds, rfl, -⟩ := h
  · nofun
  · exact .cons rfl

theorem IsExponent.starts {cs : List Char} (h : IsExponent cs) :
    Starts (fun d => d = 'e' ∨ d = 'E') cs := by
  obtain rfl | ⟨e, sign, ds, rfl, he, -⟩ := h
  · nofun
  · exact .cons he

/-- Only a point begins a fraction. -/
theorem fraction_eq_nil {cs : List Char} (h : Starts (fun d => d ≠ '.') cs) : fraction cs = [] := by
  unfold fraction
  split
  · exact absurd rfl h.head
  · rfl

/-- Only a letter of its own begins an exponent. -/
theorem exponent_eq_nil {cs : List Char} (h : Starts (fun d => d ≠ 'e' ∧ d ≠ 'E') cs) :
    exponent cs = [] := by
  cases cs with
  | nil => rfl
  | cons e cs =>
    have hne : ¬((e = 'e' ∨ e = 'E') ∧ digits (cs.drop (sign cs).length) ≠ []) := by
      rintro ⟨rfl | rfl, -⟩
      · exact h.head.1 rfl
      · exact h.head.2 rfl
    rw [exponent, if_neg hne]

theorem fraction_append {cs rest : List Char} (h : IsFraction cs)
    (hrest : Starts (fun d => d.isDigit = false ∧ d ≠ '.') rest) : fraction (cs ++ rest) = cs := by
  obtain rfl | ⟨ds, rfl, hne, hds⟩ := h
  · exact fraction_eq_nil (hrest.imp fun _ => And.right)
  · have hdigits : digits (ds ++ rest) = ds := digits_append hds (hrest.imp fun _ => And.left)
    rw [List.cons_append, fraction, hdigits, if_neg hne]

/-- A sign stands before digits. -/
theorem sign_append {cs ds : List Char} (h : cs = ['+'] ∨ cs = ['-'] ∨ cs = [])
    (hds : Starts (fun d => d.isDigit = true) ds) : sign (cs ++ ds) = cs := by
  obtain rfl | rfl | rfl := h
  · rfl
  · rfl
  · rw [List.nil_append]
    unfold sign
    split
    · cases hds.head
    · cases hds.head
    · rfl

theorem exponent_append {cs rest : List Char} (h : IsExponent cs)
    (hrest : Starts (fun d => d.isDigit = false ∧ d ≠ 'e' ∧ d ≠ 'E') rest) :
    exponent (cs ++ rest) = cs := by
  obtain rfl | ⟨e, s, ds, rfl, he, hs, hne, hds⟩ := h
  · exact exponent_eq_nil (hrest.imp fun _ => And.right)
  · -- digits follow the sign, and they end where the rest begins
    have hstart : Starts (fun d => d.isDigit = true) (ds ++ rest) := by
      obtain ⟨d, ds, rfl⟩ := List.exists_cons_of_ne_nil hne
      exact .cons (hds d List.mem_cons_self)
    have hdigits : digits (ds ++ rest) = ds := digits_append hds (hrest.imp fun _ => And.left)
    rw [List.cons_append, List.append_assoc, exponent, sign_append hs hstart, List.drop_left,
      hdigits, if_pos ⟨he, hne⟩]

/-- A numeral is made up of its parts. -/
theorem numeral_eq (c : Char) {cs whole part power : List Char} (hwhole : digits cs = whole)
    (hpart : fraction (cs.drop whole.length) = part)
    (hpower : exponent (cs.drop (whole ++ part).length) = power) :
    numeral c cs = (.lexeme (.literal (if part = [] ∧ power = [] then .integer else .real))
      (String.ofList (c :: (whole ++ part ++ power))), whole ++ part ++ power) := by
  subst hwhole hpart hpower
  rfl

/-- A character that cannot stand in a name cannot stand in a numeral either, unless it is a point
or a sign. -/
theorem not_numeral_of_not_isNamePart {d : Char} (h : isNamePart d = false) :
    d.isDigit = false ∧ d ≠ 'e' ∧ d ≠ 'E' := by
  refine ⟨?_, ?_, ?_⟩
  · by_contra hdigit
    rw [Bool.not_eq_false] at hdigit
    simp [isNamePart, isNumeric_of_isDigit hdigit] at h
  · rintro rfl
    revert h
    decide
  · rintro rfl
    revert h
    decide

/-- The parts of a numeral are told apart before a character that is neither part of a name nor a
point. -/
theorem numeral_append (c : Char) {whole part power rest : List Char}
    (hwhole : ∀ d ∈ whole, d.isDigit = true) (hpart : IsFraction part) (hpower : IsExponent power)
    (hrest : Starts (fun d => isNamePart d = false ∧ d ≠ '.') rest) :
    numeral c (whole ++ part ++ power ++ rest) =
      (.lexeme (.literal (if part = [] ∧ power = [] then .integer else .real))
        (String.ofList (c :: (whole ++ part ++ power))), whole ++ part ++ power) := by
  have hend : Starts (fun d => d.isDigit = false ∧ d ≠ 'e' ∧ d ≠ 'E') rest :=
    hrest.imp fun _ hd => not_numeral_of_not_isNamePart hd.1
  -- each part ends where the next one begins
  have hafterPart : Starts (fun d => d.isDigit = false ∧ d ≠ '.') (power ++ rest) := by
    refine .append (hpower.starts.imp ?_) ?_
    · rintro d (rfl | rfl) <;> decide
    · exact hrest.imp fun _ hd => ⟨(not_numeral_of_not_isNamePart hd.1).1, hd.2⟩
  have hafterWhole : Starts (fun d => d.isDigit = false) (part ++ (power ++ rest)) := by
    refine .append (hpart.starts.imp ?_) (hafterPart.imp fun _ => And.left)
    rintro d rfl
    decide
  have hdigits : digits (whole ++ part ++ power ++ rest) = whole := by
    rw [List.append_assoc, List.append_assoc]
    exact digits_append hwhole hafterWhole
  have hfraction : fraction ((whole ++ part ++ power ++ rest).drop whole.length) = part := by
    rw [List.append_assoc, List.append_assoc, List.drop_left]
    exact fraction_append hpart hafterPart
  have hexponent :
      exponent ((whole ++ part ++ power ++ rest).drop (whole ++ part).length) = power := by
    rw [List.append_assoc, List.drop_left]
    exact exponent_append hpower hend
  exact numeral_eq c hdigits hfraction hexponent

/-! ### Quoted literals -/

/-- A string goes up to the next quote. -/
theorem string_append {value : List Char} (rest : List Char)
    (h : ∀ c ∈ value, c ≠ '"' ∧ c ≠ '\n') :
    string (value ++ '"' :: rest) =
      (.lexeme (.literal .string) (String.ofList value), value ++ ['"']) := by
  have hupTo : upTo '"' (value ++ '"' :: rest) = value := by
    refine takeWhile_append_of_starts (fun c hc => ?_) (.cons rfl)
    rw [Bool.and_eq_true, decide_eq_true_eq, decide_eq_true_eq]
    exact h c hc
  simp only [string, hupTo, List.drop_left]

/-- Anything but a line feed can stand between single quotes, where a quote is doubled. -/
theorem char_append {c : Char} (rest : List Char) (h : c ≠ '\n') :
    char (Token.doubleQuotes [c] ++ '\'' :: rest) =
      (.lexeme (.literal .char) (String.singleton c), Token.doubleQuotes [c] ++ ['\'']) := by
  by_cases hquote : c = '\''
  · subst hquote
    rfl
  · have hdouble : Token.doubleQuotes [c] = [c] := by simp [Token.doubleQuotes, hquote]
    rw [hdouble, List.cons_append, List.nil_append]
    unfold char
    split
    · next heq => cases heq
    · next heq => exact absurd (List.cons.inj heq).1 h
    · next heq => exact absurd (List.cons.inj heq).1 hquote
    · next heq => exact absurd (List.cons.inj heq).1 hquote
    · next heq =>
      cases heq
      rfl

/-! ### Symbols -/

/-- A symbol of one character is one before any character that its kind certainly ends before. -/
theorem ofSymbol?_eq_none {c d : Char} {k : Kind} (h : Kind.ofSymbol? [c] = some k)
    (hd : k.endsBefore d = true) : Kind.ofSymbol? [c, d] = none := by
  generalize hcs : [c] = cs at h
  unfold Kind.ofSymbol? at h
  split at h <;> cases h <;> cases hcs <;>
    simp [Kind.endsBefore, Kind.isWord, Kind.words, Keyword.all, Ty.all] at hd <;>
    simp [Kind.ofSymbol?, hd]

/-- No symbol has more than two characters. -/
theorem more_of_ofSymbol? {c : Char} {more : List Char} {k : Kind}
    (h : Kind.ofSymbol? (c :: more) = some k) : more = [] ∨ ∃ d, more = [d] := by
  generalize hcs : c :: more = cs at h
  unfold Kind.ofSymbol? at h
  split at h <;> cases h <;> cases hcs <;> simp

/-- A symbol is cut off before any character that its kind certainly ends before. -/
theorem symbol_append {c : Char} {more rest : List Char} {k : Kind}
    (h : Kind.ofSymbol? (c :: more) = some k) (hrest : k.EndsAt rest) :
    symbol c (more ++ rest) = (.lexeme k (String.ofList (c :: more)), more) := by
  obtain rfl | ⟨d, rfl⟩ := more_of_ofSymbol? h
  · -- with the next character it is no symbol of two
    have hshort : symbol c rest = shortSymbol c := by
      cases rest with
      | nil => rfl
      | cons d rest => simp only [symbol, ofSymbol?_eq_none h hrest.head]
    rw [List.nil_append, hshort, shortSymbol, h]
    rfl
  · simp only [List.cons_append, List.nil_append, symbol, h]

/-! ### Lexemes -/

/-- The characters `c :: more` are a **lexeme** of the kind, whose token has the text. What follows
them is not looked at: a longer lexeme may begin with the same characters. -/
inductive IsLexeme : Char → List Char → Kind → String → Prop where
  | word {c : Char} {more : List Char} (first : isNameStart c = true)
      (further : ∀ d ∈ more, isNamePart d = true) :
    IsLexeme c more (wordKind (String.ofList (c :: more))) (String.ofList (c :: more))
  | numeral {c : Char} {whole part power : List Char} (first : c.isDigit = true)
      (digits : ∀ d ∈ whole, d.isDigit = true) (fraction : IsFraction part)
      (exponent : IsExponent power) :
    IsLexeme c (whole ++ part ++ power)
      (.literal (if part = [] ∧ power = [] then .integer else .real))
      (String.ofList (c :: (whole ++ part ++ power)))
  | string {value : List Char} (plain : ∀ c ∈ value, c ≠ '"' ∧ c ≠ '\n') :
    IsLexeme '"' (value ++ ['"']) (.literal .string) (String.ofList value)
  | char {c : Char} (plain : c ≠ '\n') :
    IsLexeme '\'' (Token.doubleQuotes [c] ++ ['\'']) (.literal .char) (String.singleton c)
  | symbol {c : Char} {more : List Char} {k : Kind} (symbol : Kind.ofSymbol? (c :: more) = some k) :
    IsLexeme c more k (String.ofList (c :: more))

theorem isWord_wordKind (text : String) : (wordKind text).isWord = true := by
  unfold wordKind
  cases hk : Kind.ofWord? text with
  | none => rfl
  | some k =>
    rw [Option.getD_some]
    unfold Kind.ofWord? at hk
    dsimp only at hk
    split at hk
    · cases hk
      rfl
    · have hmem : k ∈ Kind.words := List.mem_of_find?_eq_some hk
      rw [Kind.isWord, decide_eq_true hmem, Bool.or_true]

/-- White space is never part of a name. -/
theorem isNamePart_of_isWhiteSpace {c : Char} (h : isWhiteSpace c = true) :
    isNamePart c = false := by
  -- white space is a finite table, whose characters are looked at one by one
  have hcodes : ∀ n ∈ whiteSpaceRanges.flatMap fun r => List.range' r.1 (r.2 + 1 - r.1),
      isNamePart (Char.ofNat n) = false := by
    decide +kernel
  obtain ⟨r, hr, hlow, hhigh⟩ := (inRanges_iff ascending_whiteSpaceRanges).1 h
  rw [← Char.ofNat_toNat c]
  refine hcodes _ (List.mem_flatMap.2 ⟨r, hr, List.mem_range'_1.2 ⟨hlow, ?_⟩⟩)
  omega

theorem isWhiteSpace_of_isNamePart {c : Char} (h : isNamePart c = true) :
    isWhiteSpace c = false := by
  by_contra hblank
  rw [Bool.not_eq_false] at hblank
  rw [isNamePart_of_isWhiteSpace hblank] at h
  cases h

theorem isNamePart_of_isNameStart {c : Char} (h : isNameStart c = true) : isNamePart c = true := by
  simp only [isNameStart, isNamePart, Bool.or_eq_true] at h ⊢
  obtain h | h := h
  · exact .inl (.inl h)
  · exact .inr h

theorem isNamePart_of_isDigit {c : Char} (h : c.isDigit = true) : isNamePart c = true := by
  rw [isNamePart, isNumeric_of_isDigit h, Bool.or_true, Bool.true_or]

/-- No name begins with a digit. -/
theorem isNameStart_of_isDigit {c : Char} (h : c.isDigit = true) : isNameStart c = false := by
  have hrange : 48 ≤ c.toNat ∧ c.toNat ≤ 57 := by
    simpa [Char.isDigit, UInt32.le_iff_toNat_le] using h
  have halpha : c.isAlpha = false := by
    have hcodes : ∀ n ∈ List.range' 48 10, (Char.ofNat n).isAlpha = false := by decide
    rw [← Char.ofNat_toNat c]
    exact hcodes _ (List.mem_range'_1.2 ⟨hrange.1, by omega⟩)
  have hunderscore : c ≠ '_' := by
    rintro rfl
    cases h
  rw [isNameStart, isAlphabetic_eq_isAlpha (by omega), halpha, decide_eq_false hunderscore]
  rfl

/-! ### What is cut off is a lexeme -/

private theorem isLexeme_of_string {cs more : List Char} {k : Kind} {text : String}
    (h : string cs = (.lexeme k text, more)) : IsLexeme '"' more k text := by
  unfold string at h
  dsimp only at h
  split at h
  · cases h
    refine .string fun c hc => ?_
    simpa using List.mem_takeWhile_imp hc
  · cases h

private theorem of_charEnd {c : Char} {cs : List Char} {k : Kind} {text : String}
    (h : (charEnd c cs).1 = .lexeme k text) :
    k = .literal .char ∧ text = String.singleton c ∧ (charEnd c cs).2 = ['\''] := by
  unfold charEnd at h ⊢
  split at h
  · cases h
    exact ⟨rfl, rfl, rfl⟩
  · dsimp only at h
    split at h <;> cases h

private theorem isLexeme_of_char {cs more : List Char} {k : Kind} {text : String}
    (h : char cs = (.lexeme k text, more)) : IsLexeme '\'' more k text := by
  unfold char at h
  split at h
  · cases h
  · cases h
  · next rest =>
    obtain ⟨hform, rfl⟩ := Prod.mk.inj h
    obtain ⟨rfl, rfl, hmore⟩ := of_charEnd hform
    rw [hmore]
    exact .char (c := '\'') (by decide)
  · cases h
  · next c rest hline hdouble hquote =>
    obtain ⟨hform, rfl⟩ := Prod.mk.inj h
    obtain ⟨rfl, rfl, hmore⟩ := of_charEnd hform
    have hne : c ≠ '\'' := hquote
    have hsingle : Token.doubleQuotes [c] = [c] := by simp [Token.doubleQuotes, hne]
    have hlexeme := IsLexeme.char (c := c) hline
    rw [hsingle] at hlexeme
    rw [hmore]
    exact hlexeme

private theorem isLexeme_of_shortSymbol {c : Char} {more : List Char} {k : Kind} {text : String}
    (h : shortSymbol c = (.lexeme k text, more)) : IsLexeme c more k text := by
  unfold shortSymbol at h
  split at h
  · next hk =>
    cases h
    exact .symbol hk
  · cases h

private theorem isLexeme_of_symbol {c : Char} {cs more : List Char} {k : Kind} {text : String}
    (h : symbol c cs = (.lexeme k text, more)) : IsLexeme c more k text := by
  unfold symbol at h
  split at h
  · exact isLexeme_of_shortSymbol h
  · split at h
    · next hk =>
      cases h
      exact .symbol hk
    · exact isLexeme_of_shortSymbol h

private theorem comment_ne_lexeme (close cs : List Char) (k : Kind) (text : String) :
    (comment close cs).1 ≠ .lexeme k text := by
  unfold comment
  split <;> nofun

/-- What is cut off as a lexeme is one. -/
theorem isLexeme_of_leading {c : Char} {cs more : List Char} {k : Kind} {text : String}
    (h : leading c cs = (.lexeme k text, more)) : IsLexeme c more k text := by
  -- one class of segments after the other, in the order in which the scanner tries them
  unfold leading at h
  split at h
  · cases h
  split at h
  · exact absurd (congrArg Prod.fst h) (comment_ne_lexeme _ _ _ _)
  split at h
  · exact absurd (congrArg Prod.fst h) (comment_ne_lexeme _ _ _ _)
  split at h
  · next hname =>
    cases h
    exact .word hname fun _ => List.mem_takeWhile_imp
  split at h
  · next hdigit =>
    cases h
    exact .numeral hdigit (fun _ => isDigit_of_mem_digits) (isFraction_fraction _)
      (isExponent_exponent _)
  split at h
  · next hquote => exact hquote ▸ isLexeme_of_string h
  split at h
  · next hquote => exact hquote ▸ isLexeme_of_char h
  · exact isLexeme_of_symbol h

/-! ### Lexemes are cut off -/

/-- A part of a name begins neither white space nor a comment. -/
private theorem of_isNamePart {c : Char} (h : isNamePart c = true) :
    isWhiteSpace c = false ∧ c ≠ '\x7b' ∧ c ≠ '(' := by
  refine ⟨isWhiteSpace_of_isNamePart h, ?_, ?_⟩
  · rintro rfl
    revert h
    decide
  · rintro rfl
    revert h
    decide

/-- A character with which a name may begin begins a word. -/
theorem leading_eq_word {c : Char} (h : isNameStart c = true) (cs : List Char) :
    leading c cs = word c cs := by
  obtain ⟨hblank, hbrace, hparen⟩ := of_isNamePart (isNamePart_of_isNameStart h)
  rw [leading, hblank, if_neg Bool.false_ne_true, if_neg hbrace, if_neg fun h => hparen h.1,
    if_pos h]

/-- A digit begins a numeral. -/
theorem leading_eq_numeral {c : Char} (h : c.isDigit = true) (cs : List Char) :
    leading c cs = numeral c cs := by
  obtain ⟨hblank, hbrace, hparen⟩ := of_isNamePart (isNamePart_of_isDigit h)
  rw [leading, hblank, if_neg Bool.false_ne_true, if_neg hbrace, if_neg fun h => hparen h.1,
    isNameStart_of_isDigit h, if_neg Bool.false_ne_true, if_pos h]

/-- A symbol begins no segment of another class. -/
theorem leading_eq_symbol {c : Char} {more cs : List Char} {k : Kind}
    (h : Kind.ofSymbol? (c :: more) = some k) (hstar : ¬(c = '(' ∧ cs.head? = some '*')) :
    leading c cs = symbol c cs := by
  have hplain : isWhiteSpace c = false ∧ c ≠ '\x7b' ∧ isNameStart c = false ∧ c.isDigit = false ∧
      c ≠ '"' ∧ c ≠ '\'' := by
    generalize htext : c :: more = text at h
    unfold Kind.ofSymbol? at h
    split at h <;> cases h <;> cases htext <;> decide
  obtain ⟨hblank, hbrace, hname, hdigit, hdouble, hsingle⟩ := hplain
  rw [leading, hblank, if_neg Bool.false_ne_true, if_neg hbrace, if_neg hstar, hname,
    if_neg Bool.false_ne_true, hdigit, if_neg Bool.false_ne_true, if_neg hdouble, if_neg hsingle]

/-- A lexeme is cut off before any character that its kind certainly ends before. -/
theorem leading_of_isLexeme {c : Char} {more rest : List Char} {k : Kind} {text : String}
    (h : IsLexeme c more k text) (hrest : k.EndsAt rest) :
    leading c (more ++ rest) = (.lexeme k text, more) := by
  cases h with
  | @word c more first further =>
    rw [leading_eq_word first]
    refine word_append c further (hrest.imp fun d hd => ?_)
    simpa only [Kind.endsBefore, isWord_wordKind, if_true, Bool.not_eq_true'] using hd
  | @numeral c whole part power first digits fraction exponent =>
    rw [leading_eq_numeral first]
    refine numeral_append c digits fraction exponent (hrest.imp fun d hd => ?_)
    split at hd <;> simpa [Kind.endsBefore, Kind.isWord, Kind.words, Keyword.all, Ty.all] using hd
  | string plain =>
    rw [List.append_assoc]
    exact string_append rest plain
  | char plain =>
    rw [List.append_assoc]
    exact char_append rest plain
  | @symbol c more k hk =>
    rw [leading_eq_symbol hk, symbol_append hk hrest]
    -- an opening parenthesis ends before anything that is no star
    rintro ⟨rfl, hhead⟩
    obtain rfl | ⟨d, rfl⟩ := more_of_ofSymbol? hk
    · cases hk
      exact absurd (hrest _ hhead) (by decide)
    · cases hk

/-- The characters of a lexeme tell its kind. -/
theorem IsLexeme.kind_unique {c : Char} {more : List Char} {k k' : Kind} {text text' : String}
    (h : IsLexeme c more k text) (h' : IsLexeme c more k' text') : k = k' := by
  have hend : ∀ k : Kind, k.EndsAt [] := fun k => nofun
  have hleading := leading_of_isLexeme h (hend k)
  rw [leading_of_isLexeme h' (hend k')] at hleading
  cases hleading
  rfl

/-! ### Lexemes and tokens -/

/-- A lexeme is what its token displays. -/
theorem IsLexeme.display {c : Char} {more : List Char} {k : Kind} {text : String}
    (h : IsLexeme c more k text) (pos : Position) :
    (Token.display ⟨k, text, pos⟩).toList = c :: more := by
  cases h with
  | @word c more =>
    have hdisplay : ∀ k : Kind, k.isWord = true → ∀ text : String,
        Token.display ⟨k, text, pos⟩ = text := by
      intro k hk text
      unfold Token.display
      split <;> first | rfl | (rename_i heq; dsimp only at heq; rw [heq] at hk; cases hk)
    rw [hdisplay _ (isWord_wordKind _), String.toList_ofList]
  | @numeral c whole part power =>
    have hdisplay : ∀ p : Prop, [Decidable p] → ∀ text : String,
        Token.display ⟨.literal (if p then .integer else .real), text, pos⟩ = text := by
      intro p _ text
      split <;> rfl
    rw [hdisplay, String.toList_ofList]
  | string plain => simp [Token.display]
  | char plain => simp [Token.display]
  | @symbol c more k hk =>
    have hdisplay : ∀ text : String, Token.display ⟨k, text, pos⟩ = text := by
      intro text
      generalize htext : c :: more = text at hk
      unfold Kind.ofSymbol? at hk
      split at hk <;> cases hk <;> rfl
    rw [hdisplay, String.toList_ofList]

/-- A star begins no lexeme but the operator for products. -/
theorem IsLexeme.ne_star {c : Char} {more : List Char} {k : Kind} {text : String}
    (h : IsLexeme c more k text) (hk : k ≠ .operator .times) : c ≠ '*' := by
  rintro rfl
  cases h with
  | word first => revert first; decide
  | numeral first => cases first
  | @symbol _ more _ hsymbol =>
    obtain rfl | ⟨d, rfl⟩ := more_of_ofSymbol? hsymbol
    · exact hk (Option.some.inj hsymbol).symm
    · cases hsymbol

end Segment

end MiniPascal
