import MiniPascal.Proofs.EndOfInput
import MiniPascal.Proofs.Lexing.LetterCase
import MiniPascal.Text.Pattern

/-!
# Longest matches

A **bare** token is one without quotes: a name, a reserved word, a number or a symbol. It is the
longest beginning of what remains of the text at its place that is an identifier, a number or a
symbol (`scan_longest`), and its kind can be told from its text alone (`Kind.Fits`).

A word is a run of characters, so it cannot be longer. A symbol is tried with two characters before
it is taken with one. For a number, a matcher tries a pattern with preferences: what was taken for a
fraction or an exponent and has no digits is given back. The first match of this pattern is what the
scanner takes (`first?_number`). That it is the longest number, too, is because the parts of a
number begin with different characters: whatever follows a part that is shorter than it could be is
no beginning of a later part (`append_isPrefix_append`).
-/

namespace MiniPascal

/-! ### Identifiers, numbers and symbols -/

/-- Whether characters are an identifier, which may be a reserved word: one that a name may begin
with, and others that may stand inside a name. -/
def IsIdentifier (cs : List Char) : Prop :=
  ∃ c more, cs = c :: more ∧ Segment.isNameStart c = true ∧
    ∀ d ∈ more, Segment.isNamePart d = true

/-- Whether characters are the parts of a number: digits, a fraction and an exponent. The fraction
and the exponent may be missing. -/
structure IsNumber (whole part power : List Char) : Prop where
  nonempty : whole ≠ []
  digits : ∀ d ∈ whole, d.isDigit = true
  fraction : Segment.IsFraction part
  exponent : Segment.IsExponent power

/-- The seventeen symbols, of one or two characters. Those that `Kind.ofSymbol?` knows are just
these (`mem_symbols_iff`). -/
def symbols : List String :=
  ["+", "-", "*", "/", "=", "<>", "<", "<=", ">", ">=", ":=", ";", ".", ",", ":", "(", ")"]

/-- Whether characters are an identifier, a number or a symbol: what a token can be that stands
without quotes. The scanner is not mentioned here. -/
inductive IsBare : List Char → Prop where
  | identifier {cs : List Char} (h : IsIdentifier cs) : IsBare cs
  | number {whole part power : List Char} (h : IsNumber whole part power) :
    IsBare (whole ++ part ++ power)
  | symbol {text : String} (h : text ∈ symbols) : IsBare text.toList

/-- Whether a token of this kind is a name, a reserved word, a number or a symbol. The others are
quoted literals, errors and the end. -/
def Kind.isBare : Kind → Bool
  | .ident | .typeName _ | .keyword _ | .operator _ | .mark _ => true
  | .literal .boolean | .literal .integer | .literal .real => true
  | .literal .string | .literal .char | .eof | .error => false

/-- Whether a kind is the one that a bare text has. A word has the kind that is spelled like it, in
any letter case; `true` and `false` are literals, and any other word is a name. A number is real if
it has a fraction or an exponent. A symbol has the kind that is spelled like it. -/
structure Kind.Fits (k : Kind) (text : String) : Prop where
  boolean : IsIdentifier text.toList → text.toLower = "true" ∨ text.toLower = "false" →
    k = .literal .boolean
  reserved : IsIdentifier text.toList → ∀ k' : Kind, k'.spelling? = some text.toLower → k = k'
  name : IsIdentifier text.toList → text.toLower ≠ "true" → text.toLower ≠ "false" →
    (∀ k' : Kind, k'.spelling? ≠ some text.toLower) → k = .ident
  number : ∀ whole part power, IsNumber whole part power → text.toList = whole ++ part ++ power →
    k = .literal (if part = [] ∧ power = [] then .integer else .real)
  symbol : text ∈ symbols → k.spelling? = some text

namespace Segment

/-- A symbol of the language is one of the seventeen. -/
theorem mem_symbols_iff {text : String} :
    text ∈ symbols ↔ ∃ k, Kind.ofSymbol? text.toList = some k := by
  constructor
  · intro h
    have hall : ∀ text ∈ symbols, (Kind.ofSymbol? text.toList).isSome = true := by decide
    exact Option.isSome_iff_exists.1 (hall text h)
  · rintro ⟨k, hk⟩
    have hspelling := Kind.spelling?_of_ofSymbol? hk
    rw [String.ofList_toList] at hspelling
    unfold Kind.ofSymbol? at hk
    split at hk <;> cases hk <;> cases hspelling <;> decide

/-! ### Numbers -/

/-- A beginning of a part of a text is, with what follows it, a beginning of the part with what
follows that, if what follows the beginning starts with no character of the part. -/
theorem append_isPrefix_append {p q f g cs : List Char} (hp : p <+: f) (hf : f <+: cs)
    (hpq : p ++ q <+: cs) (hq : Starts (fun c => c ∉ f) q)
    (hg : q <+: cs.drop f.length → q <+: g) : p ++ q <+: f ++ g := by
  obtain ⟨s, rfl⟩ := hp
  cases s with
  | nil =>
    obtain ⟨r, rfl⟩ := hpq
    rw [List.append_nil, List.append_assoc, List.drop_left] at hg
    rw [List.append_nil, List.prefix_append_right_inj]
    exact hg (List.prefix_append q r)
  | cons x s =>
    cases q with
    | nil =>
      rw [List.append_nil, List.append_assoc]
      exact List.prefix_append _ _
    | cons y q =>
      -- the same character would go on with the part and begin what follows it
      obtain ⟨r, rfl⟩ := hf
      rw [List.append_assoc, List.prefix_append_right_inj, List.cons_append,
        List.cons_prefix_cons] at hpq
      obtain ⟨rfl, -⟩ := hpq
      exact absurd (List.mem_append_right p List.mem_cons_self) hq.head

/-- Digits at the beginning of a text belong to all the digits there. -/
theorem isPrefix_digits {ds cs : List Char} (hds : ∀ d ∈ ds, d.isDigit = true) (h : ds <+: cs) :
    ds <+: digits cs := by
  obtain ⟨r, rfl⟩ := h
  rw [digits, List.takeWhile_append_of_pos hds]
  exact List.prefix_append _ _

/-- No fraction at the beginning of a text is longer than the one that is taken. -/
theorem isPrefix_fraction {part cs : List Char} (hpart : IsFraction part) (h : part <+: cs) :
    part <+: fraction cs := by
  obtain rfl | ⟨ds, rfl, hne, hds⟩ := hpart
  · exact List.nil_prefix
  · obtain ⟨r, rfl⟩ := h
    have hdigits := isPrefix_digits hds (List.prefix_append ds r)
    have hsome : digits (ds ++ r) ≠ [] := fun hnil => hne (List.prefix_nil.1 (hnil ▸ hdigits))
    rw [List.cons_append, fraction, if_neg hsome]
    exact (List.prefix_cons_inj _).2 hdigits

/-- No exponent at the beginning of a text is longer than the one that is taken. -/
theorem isPrefix_exponent {power cs : List Char} (hpower : IsExponent power) (h : power <+: cs) :
    power <+: exponent cs := by
  obtain rfl | ⟨e, s, ds, rfl, he, hs, hne, hds⟩ := hpower
  · exact List.nil_prefix
  · obtain ⟨r, rfl⟩ := h
    have hstart : Starts (fun d => d.isDigit = true) (ds ++ r) := by
      obtain ⟨d, ds, rfl⟩ := List.exists_cons_of_ne_nil hne
      exact .cons (hds d List.mem_cons_self)
    have hdigits := isPrefix_digits hds (List.prefix_append ds r)
    have hsome : digits (ds ++ r) ≠ [] := fun hnil => hne (List.prefix_nil.1 (hnil ▸ hdigits))
    rw [List.cons_append, List.append_assoc, exponent, sign_append hs hstart, List.drop_left,
      if_pos ⟨he, hsome⟩, List.prefix_cons_inj, List.prefix_append_right_inj]
    exact hdigits

/-- The characters of a fraction. -/
theorem of_mem_fraction {cs : List Char} {c : Char} (h : c ∈ fraction cs) :
    c = '.' ∨ c.isDigit = true := by
  obtain hnil | ⟨ds, hds, -, hdigits⟩ := isFraction_fraction cs
  · rw [hnil] at h
    cases h
  · rw [hds, List.mem_cons] at h
    exact h.imp_right (hdigits c)

/-- No number that begins with a digit is longer than the numeral that is cut off. -/
theorem isPrefix_numeral (c : Char) {whole part power cs : List Char}
    (hwhole : ∀ d ∈ whole, d.isDigit = true) (hpart : IsFraction part) (hpower : IsExponent power)
    (h : whole ++ part ++ power <+: cs) : whole ++ part ++ power <+: (numeral c cs).2 := by
  have hpoint : ∀ d, d = '.' → ¬d.isDigit = true := by
    rintro d rfl
    decide
  have hletter : ∀ d, d = 'e' ∨ d = 'E' → ¬d.isDigit = true ∧ d ≠ '.' := by
    rintro d (rfl | rfl) <;> decide
  -- neither a point nor a letter goes on with digits, and no letter goes on with a fraction
  have hafterWhole : Starts (fun d => d ∉ digits cs) (part ++ power) := by
    refine .append (hpart.starts.imp fun d hd hmem => ?_) (hpower.starts.imp fun d hd hmem => ?_)
    · exact hpoint d hd (isDigit_of_mem_digits hmem)
    · exact (hletter d hd).1 (isDigit_of_mem_digits hmem)
  have hafterPart : ∀ ds, Starts (fun d => d ∉ fraction ds) power := by
    refine fun ds => hpower.starts.imp fun d hd hmem => ?_
    obtain hdot | hdigit := of_mem_fraction hmem
    · exact (hletter d hd).2 hdot
    · exact (hletter d hd).1 hdigit
  rw [List.append_assoc] at h
  simp only [numeral, List.append_assoc, List.length_append, ← List.drop_drop]
  refine append_isPrefix_append (isPrefix_digits hwhole ((List.prefix_append _ _).trans h))
    (digits_isPrefix cs) h hafterWhole fun hbehind => ?_
  exact append_isPrefix_append
    (isPrefix_fraction hpart ((List.prefix_append _ _).trans hbehind)) (fraction_isPrefix _)
    hbehind (hafterPart _) (isPrefix_exponent hpower)

/-! ### The pattern of numbers -/

/-- A point and digits, of which there is at least one, as a pattern. -/
def fractionPattern : Pattern :=
  .seq (.one (· = '.')) (.many Char.isDigit)

/-- A letter, an optional sign and digits, of which there is at least one, as a pattern. The letter
may be in either case. -/
def exponentPattern : Pattern :=
  .seq (.one fun c => c = 'e' || c = 'E')
    (.seq (.optional (.one fun c => c = '+' || c = '-')) (.many Char.isDigit))

/-- Digits, an optional fraction and an optional exponent, as a pattern. What it matches first is a
numeral (`first?_number`). -/
def numberPattern : Pattern :=
  .seq (.many Char.isDigit) (.seq (.optional fractionPattern) (.optional exponentPattern))

/-- What matches a fraction is the fraction that is taken. -/
theorem getD_first?_fractionPattern (cs : List Char) :
    (fractionPattern.first? cs).getD [] = fraction cs := by
  cases cs with
  | nil => rfl
  | cons c cs =>
    rw [fractionPattern, Pattern.first?_seq_one]
    by_cases hpoint : c = '.'
    · subst hpoint
      rw [if_pos (decide_eq_true rfl), Pattern.first?_many, fraction, digits]
      split <;> rfl
    · rw [if_neg (by simpa using hpoint), fraction_eq_nil (.cons hpoint)]
      rfl

/-- What may follow the letter of an exponent: the sign, if there is one, is tried first. -/
theorem candidates_sign (cs : List Char) :
    (Pattern.optional (.one fun c => c = '+' || c = '-')).candidates cs =
      if sign cs = [] then [[]] else [sign cs, []] := by
  rw [Pattern.candidates]
  unfold sign
  split
  · rfl
  · rfl
  · next hplus hminus =>
    cases cs with
    | nil => rfl
    | cons c cs =>
      have hc : ¬(decide (c = '+') || decide (c = '-')) = true := by
        simp only [Bool.or_eq_true, decide_eq_true_eq, not_or]
        exact ⟨fun h => hplus cs (by rw [h]), fun h => hminus cs (by rw [h])⟩
      rw [Pattern.candidates, if_neg hc]
      rfl

/-- A sign that no digits follow is given back, but there are no digits in its place. -/
theorem first?_signed (cs : List Char) :
    (Pattern.seq (.optional (.one fun c => c = '+' || c = '-')) (.many Char.isDigit)).first? cs =
      if digits (cs.drop (sign cs).length) = [] then none
      else some (sign cs ++ digits (cs.drop (sign cs).length)) := by
  have hmany : ∀ ds, (Pattern.many Char.isDigit).first? ds =
      if digits ds = [] then none else some (digits ds) := Pattern.first?_many _
  rw [Pattern.first?_seq, candidates_sign]
  by_cases hsign : sign cs = []
  · rw [if_pos hsign, List.findSome?_singleton, hmany, hsign, List.length_nil, List.drop_zero]
    split <;> rfl
  · have hnone : digits cs = [] := by
      have hstarts : Starts (fun d => d.isDigit = false) cs := by
        unfold sign at hsign
        split at hsign
        · exact .cons rfl
        · exact .cons rfl
        · exact absurd rfl hsign
      exact digits_append (List.forall_mem_nil _) hstarts
    rw [if_neg hsign, List.findSome?_cons, hmany, List.findSome?_singleton, hmany,
      List.length_nil, List.drop_zero, if_pos hnone]
    by_cases hdigits : digits (cs.drop (sign cs).length) = []
    · rw [if_pos hdigits, if_pos hdigits]
      rfl
    · rw [if_neg hdigits, if_neg hdigits]
      rfl

/-- What matches an exponent is the exponent that is taken. -/
theorem getD_first?_exponentPattern (cs : List Char) :
    (exponentPattern.first? cs).getD [] = exponent cs := by
  cases cs with
  | nil => rfl
  | cons e cs =>
    rw [exponentPattern, Pattern.first?_seq_one, first?_signed, exponent]
    by_cases he : e = 'e' ∨ e = 'E'
    · rw [if_pos (by simpa using he)]
      by_cases hdigits : digits (cs.drop (sign cs).length) = []
      · rw [if_pos hdigits, if_neg fun h => h.2 hdigits]
        rfl
      · rw [if_neg hdigits, if_pos ⟨he, hdigits⟩]
        rfl
    · rw [if_neg (by simpa using he), if_neg fun h => he h.1]
      rfl

/-- The first match of the pattern of numbers is the numeral that is cut off. -/
theorem first?_number {c : Char} (h : c.isDigit = true) (cs : List Char) :
    numberPattern.first? (c :: cs) = some (c :: (numeral c cs).2) := by
  have hwhole : (Pattern.many Char.isDigit).first? (c :: cs) = some (c :: digits cs) := by
    rw [Pattern.first?_many, List.takeWhile_cons_of_pos h]
    rfl
  have hpart : ∀ ds, (Pattern.optional fractionPattern).first? ds = some (fraction ds) := by
    intro ds
    rw [Pattern.first?_optional, getD_first?_fractionPattern]
  have hpower : ∀ ds, (Pattern.optional exponentPattern).first? ds = some (exponent ds) := by
    intro ds
    rw [Pattern.first?_optional, getD_first?_exponentPattern]
  rw [numberPattern, Pattern.first?_seq_of_first? hwhole
    (Pattern.first?_seq_of_first? (hpart _) (hpower _))]
  simp only [numeral, List.append_assoc, List.length_append, ← List.drop_drop, List.cons_append,
    List.length_cons, List.drop_succ_cons]

/-! ### What is cut off is the longest -/

/-- Nothing bare at the beginning of a text is longer than the segment that is cut off. -/
theorem length_le_of_isBare {c : Char} {cs ds : List Char} (h : IsBare ds) (hds : ds <+: c :: cs) :
    ds.length ≤ (ofLeading c cs).chars.length := by
  rw [chars, ofLeading]
  cases h with
  | identifier h =>
    obtain ⟨d, more, rfl, hstart, hparts⟩ := h
    obtain ⟨rfl, r, rfl⟩ := List.cons_prefix_cons.1 hds
    rw [leading_eq_word hstart, word, List.takeWhile_append_of_pos hparts]
    simp only [List.length_cons, List.length_append]
    omega
  | @number whole part power h =>
    obtain ⟨d, whole, rfl⟩ := List.exists_cons_of_ne_nil h.nonempty
    obtain ⟨hdigit, hwhole⟩ := List.forall_mem_cons.1 h.digits
    rw [List.cons_append, List.cons_append, List.cons_prefix_cons] at hds
    obtain ⟨rfl, hprefix⟩ := hds
    rw [leading_eq_numeral hdigit]
    exact Nat.succ_le_succ (isPrefix_numeral d hwhole h.fraction h.exponent hprefix).length_le
  | @symbol text h =>
    obtain ⟨k, hk⟩ := mem_symbols_iff.1 h
    generalize text.toList = ds at hk hds
    cases ds with
    | nil => exact Nat.zero_le _
    | cons d more =>
      obtain ⟨rfl, hmore⟩ := List.cons_prefix_cons.1 hds
      obtain rfl | ⟨e, rfl⟩ := more_of_ofSymbol? hk
      · exact Nat.succ_le_succ (Nat.zero_le _)
      · -- a symbol of two characters is tried first, and opens no comment
        obtain ⟨r, rfl⟩ := hmore
        have hstar : ¬(d = '(' ∧ ([e] ++ r).head? = some '*') := by
          rintro ⟨rfl, -⟩
          cases hk
        rw [leading_eq_symbol hk hstar]
        simp only [List.cons_append, List.nil_append, symbol, hk, List.length_cons,
          List.length_nil, Nat.le_refl]

/-- A lexeme of a bare kind is bare, and the text of its token. -/
theorem IsLexeme.isBare {c : Char} {more : List Char} {k : Kind} {text : String}
    (h : IsLexeme c more k text) (hk : k.isBare = true) :
    IsBare (c :: more) ∧ text = String.ofList (c :: more) := by
  cases h with
  | word first further => exact ⟨.identifier ⟨c, more, rfl, first, further⟩, rfl⟩
  | @numeral _ whole part power first digits fraction exponent =>
    have hnumber : IsNumber (c :: whole) part power :=
      ⟨List.cons_ne_nil _ _, List.forall_mem_cons.2 ⟨first, digits⟩, fraction, exponent⟩
    exact ⟨.number hnumber, rfl⟩
  | string | char => cases hk
  | @symbol _ _ k symbol =>
    have hmem : String.ofList (c :: more) ∈ symbols :=
      mem_symbols_iff.2 ⟨k, by rwa [String.toList_ofList]⟩
    have hbare := IsBare.symbol hmem
    rw [String.toList_ofList] at hbare
    exact ⟨hbare, rfl⟩

/-- A number begins with a digit. -/
theorem IsLexeme.isDigit_first {c : Char} {more : List Char} {k : Kind} {text : String}
    (h : IsLexeme c more k text) (hk : k = .literal .integer ∨ k = .literal .real) :
    c.isDigit = true := by
  cases h with
  | word =>
    have hword := isWord_wordKind (String.ofList (c :: more))
    obtain hk | hk := hk <;> exact absurd (hk ▸ hword) (by decide)
  | numeral first => exact first
  | string | char => obtain hk | hk := hk <;> cases hk
  | symbol symbol =>
    have hspelling := Kind.spelling?_of_ofSymbol? symbol
    obtain rfl | rfl := hk <;> cases hspelling

/-! ### Kinds -/

/-- The kind of a word does not depend on letter case. -/
theorem wordKind_toLower (text : String) : wordKind text.toLower = wordKind text := by
  simp only [wordKind, Kind.ofWord?, toLower_toLower]

/-- What is spelled like an identifier is a word. -/
theorem wordKind_of_isIdentifier {text : String} (h : IsIdentifier text.toList) {k : Kind}
    (hk : k.spelling? = some text) : wordKind text = k := by
  obtain ⟨d, ds, hds, hstart, hparts⟩ := h
  have hlexeme := Token.isLexeme_spelled hk
  rw [Token.spelled_eq hk] at hlexeme
  obtain ⟨c, more, hdisplay, hlexeme⟩ := hlexeme.toList_display
  have hquoted : k.isQuoted = false := by
    unfold Kind.isQuoted
    split
    · cases hk
    · cases hk
    · rfl
  rw [Token.display_of_not_isQuoted hquoted hlexeme.kind_ne.2] at hdisplay
  dsimp only at hdisplay
  obtain ⟨rfl, rfl⟩ := List.cons.inj (hdisplay.symm.trans hds)
  have hword := IsLexeme.word hstart hparts
  rw [← hds, String.ofList_toList] at hword
  exact hword.kind_unique hlexeme

/-- The kind of a lexeme that is the text of its token can be told from this text. -/
theorem IsLexeme.fits {c : Char} {more : List Char} {k : Kind}
    (h : IsLexeme c more k (String.ofList (c :: more))) : k.Fits (String.ofList (c :: more)) := by
  have hword : IsIdentifier (String.ofList (c :: more)).toList →
      k = wordKind (String.ofList (c :: more)) := by
    rintro ⟨d, ds, hds, hstart, hparts⟩
    rw [String.toList_ofList] at hds
    obtain ⟨rfl, rfl⟩ := List.cons.inj hds
    exact h.kind_unique (.word hstart hparts)
  constructor
  case boolean =>
    intro hident hboolean
    rw [hword hident, wordKind, Kind.ofWord?]
    exact congrArg (Option.getD · Kind.ident) (if_pos hboolean)
  case reserved =>
    intro hident k' hk'
    rw [hword hident, ← wordKind_toLower]
    refine wordKind_of_isIdentifier ?_ hk'
    obtain ⟨d, ds, hds, hstart, hparts⟩ := hident
    rw [toList_toLower, hds]
    refine ⟨_, _, rfl, (isNameStart_toLower d).trans hstart, List.forall_mem_map.2 fun e he => ?_⟩
    exact (isNamePart_toLower e).trans (hparts e he)
  case name =>
    intro hident htrue hfalse hnone
    have hfind : Kind.words.find? (fun kind =>
        kind.spelling? = some (String.ofList (c :: more)).toLower) = none :=
      List.find?_eq_none.2 fun k' _ => by simpa using hnone k'
    have hnone : Kind.ofWord? (String.ofList (c :: more)) = none :=
      (if_neg (not_or_intro htrue hfalse)).trans hfind
    rw [hword hident, wordKind, hnone, Option.getD_none]
  case number =>
    intro whole part power hnumber htext
    obtain ⟨d, whole, rfl⟩ := List.exists_cons_of_ne_nil hnumber.nonempty
    obtain ⟨hdigit, hdigits⟩ := List.forall_mem_cons.1 hnumber.digits
    rw [String.toList_ofList] at htext
    obtain ⟨rfl, rfl⟩ := List.cons.inj htext
    exact h.kind_unique (.numeral hdigit hdigits hnumber.fraction hnumber.exponent)
  case symbol =>
    intro hsymbol
    obtain ⟨k', hk'⟩ := mem_symbols_iff.1 hsymbol
    rw [String.toList_ofList] at hk'
    rw [h.kind_unique (.symbol hk')]
    exact Kind.spelling?_of_ofSymbol? hk'

end Segment

/-! ### Tokens -/

/-- Whether a text is what **remains** of another one from a position on: what stands before it
leads from the start to that position. -/
def Position.Remains (pos : Position) (text rest : List Char) : Prop :=
  ∃ before, before ++ rest = text ∧ Position.start.after before = pos

/-- No two positions of a text are the same. -/
theorem Position.Remains.unique {pos : Position} {text rest rest' : List Char}
    (h : pos.Remains text rest) (h' : pos.Remains text rest') : rest = rest' := by
  -- characters between the two would move the position
  have hnothing : ∀ (before between : List Char),
      Position.start.after (before ++ between) = Position.start.after before → between = [] := by
    intro before between heq
    cases between with
    | nil => rfl
    | cons c between =>
      have hbefore := before_after_cons (Position.start.after before) c between
      rw [← after_append, heq] at hbefore
      exact absurd hbefore hbefore.asymm
  obtain ⟨before, rfl, rfl⟩ := h
  obtain ⟨before', htext, hpos⟩ := h'
  obtain ⟨between, rfl, rfl⟩ | ⟨between, rfl, rfl⟩ := List.append_eq_append_iff.1 htext
  · rw [hnothing before' between hpos.symm, List.nil_append]
  · rw [hnothing before between hpos, List.nil_append]

/-- Whether characters are the **longest** beginning of a text that has a property. There may be
shorter ones, and there is no longer one. -/
structure LongestBeginning (p : List Char → Prop) (cs text : List Char) : Prop where
  begins : cs <+: text
  holds : p cs
  longest : ∀ ds, p ds → ds <+: text → ds.length ≤ cs.length

/-- A bare token is cut off from what remains of the source at its place. -/
theorem exists_leading_of_mem_scan {text : String} {t : Token} (h : t ∈ scan text)
    (ht : t.kind.isBare = true) :
    ∃ c more behind, t.pos.Remains text.toList (c :: (more ++ behind)) ∧
      Segment.leading c (more ++ behind) = (.lexeme t.kind t.text, more) ∧
      t.text = String.ofList (c :: more) := by
  obtain hmem | heof := List.mem_append.1 h
  · have herror : t.kind ≠ .error := by
      intro hkind
      rw [hkind] at ht
      cases ht
    obtain ⟨before, chars, behind, hstands⟩ := Lexer.exists_standsIn hmem
    obtain ⟨c, more, rfl, hleading⟩ := hstands.exists_leading herror
    have htext := ((Segment.isLexeme_of_leading hleading).isBare ht).2
    exact ⟨c, more, behind, ⟨before, hstands.append_eq, hstands.pos_eq.symm⟩, hleading, htext⟩
  · obtain rfl := List.mem_singleton.1 heof
    cases ht

/-- The text of a bare token is the longest beginning of what remains of the source at its place
that is an identifier, a number or a symbol, and if it is a number it is the first match of the
pattern of numbers there. The kind is the one that fits this text, and any bare token with the same
text has the same kind. -/
theorem scan_longest {text : String} {t : Token} (h : t ∈ scan text) (ht : t.kind.isBare = true) :
    ∃ rest, (∀ rest', t.pos.Remains text.toList rest' ↔ rest' = rest) ∧
      LongestBeginning IsBare t.text.toList rest ∧ t.kind.Fits t.text ∧
      (t.kind = .literal .integer ∨ t.kind = .literal .real →
        Segment.numberPattern.first? rest = some t.text.toList) ∧
      ∀ text', ∀ t' ∈ scan text', t'.kind.isBare = true → t'.text = t.text → t'.kind = t.kind := by
  obtain ⟨c, more, behind, hremains, hleading, htext⟩ := exists_leading_of_mem_scan h ht
  have hlexeme := Segment.isLexeme_of_leading hleading
  have hfits : t.kind.Fits t.text := by
    rw [htext] at hlexeme ⊢
    exact hlexeme.fits
  have hchars : t.text.toList = c :: more := by rw [htext, String.toList_ofList]
  refine ⟨c :: (more ++ behind), fun rest' => ⟨fun h' => h'.unique hremains, ?_⟩, ?_, hfits, ?_, ?_⟩
  · rintro rfl
    exact hremains
  · rw [hchars]
    refine ⟨List.prefix_append (c :: more) behind, (hlexeme.isBare ht).1, fun ds hds hprefix => ?_⟩
    have hlength := Segment.length_le_of_isBare hds hprefix
    rwa [Segment.chars, Segment.ofLeading, hleading] at hlength
  · intro hnumber
    have hdigit := hlexeme.isDigit_first hnumber
    rw [Segment.leading_eq_numeral hdigit] at hleading
    rw [Segment.first?_number hdigit, hleading, hchars]
  · intro text' t' h' ht' heq
    obtain ⟨c', more', behind', -, hleading', htext'⟩ := exists_leading_of_mem_scan h' ht'
    have hchars' : t'.text.toList = c' :: more' := by rw [htext', String.toList_ofList]
    rw [heq, hchars] at hchars'
    obtain ⟨rfl, rfl⟩ := List.cons.inj hchars'
    exact (Segment.isLexeme_of_leading hleading').kind_unique hlexeme

/-- An exponent without digits is given back, after its sign. -/
theorem scan_longest_exponent :
    let t : Token := ⟨.literal .real, "1.5", ⟨1, 1⟩⟩
    t ∈ scan "1.5e+..2" ∧ t.kind.isBare = true ∧
      ∃ rest, t.pos.Remains "1.5e+..2".toList rest ∧ LongestBeginning IsBare "1.5".toList rest := by
  intro t
  have hmem : t ∈ scan "1.5e+..2" := by decide +kernel
  obtain ⟨rest, hremains, hlongest, -⟩ := scan_longest hmem rfl
  exact ⟨hmem, rfl, rest, (hremains rest).2 rfl, hlongest⟩

end MiniPascal
