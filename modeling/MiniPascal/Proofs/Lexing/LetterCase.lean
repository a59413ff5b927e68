import MiniPascal.Proofs.Lexing.Trivia
import MiniPascal.Source.Lexer

/-!
# Letter case in scanning

Letters are looked at in three places: a word is looked up by its lower case, a character of a name
has to be some letter, and an exponent may begin with `e` or `E`. All else is decided by characters
that are no letters. So if the capital letters of a text, which are those from `A` to `Z`, are made
small, the text falls into the same segments, with small letters in them
(`Segment.ofText_map_toLower`), and its tokens stay where they are (`scan_toLower`). Messages of
lexical errors quote no letter and are not changed.
-/

namespace MiniPascal

/-! ### Characters -/

/-- A character is its own lower case, or it is a capital letter. -/
theorem toLower_cases (c : Char) :
    c.toLower = c ∨ ∃ n ∈ List.range' 65 26, c = Char.ofNat n := by
  by_cases h : 65 ≤ c.toNat ∧ c.toNat ≤ 90
  · exact .inr ⟨c.toNat, List.mem_range'_1.2 (by omega), (Char.ofNat_toNat c).symm⟩
  · refine .inl (dif_neg fun hc => h ?_)
    exact ⟨UInt32.le_iff_toNat_le.1 hc.1, UInt32.le_iff_toNat_le.1 hc.2⟩

/-- A property of characters does not depend on letter case if it holds of each capital letter
exactly if it holds of the small one. -/
theorem apply_toLower {α : Type} {p : Char → α}
    (h : ∀ n ∈ List.range' 65 26, p (Char.ofNat n).toLower = p (Char.ofNat n)) (c : Char) :
    p c.toLower = p c := by
  obtain hc | ⟨n, hn, rfl⟩ := toLower_cases c
  · rw [hc]
  · exact h n hn

theorem isAlpha_toLower (c : Char) : c.toLower.isAlpha = c.isAlpha :=
  apply_toLower (p := Char.isAlpha) (by decide +kernel) c

theorem isDigit_toLower (c : Char) : c.toLower.isDigit = c.isDigit :=
  apply_toLower (p := Char.isDigit) (by decide +kernel) c

theorem isWhiteSpace_toLower (c : Char) : isWhiteSpace c.toLower = isWhiteSpace c :=
  apply_toLower (p := isWhiteSpace) (by decide +kernel) c

theorem isNameStart_toLower (c : Char) : Segment.isNameStart c.toLower = Segment.isNameStart c :=
  apply_toLower (p := Segment.isNameStart) (by decide +kernel) c

theorem isNamePart_toLower (c : Char) : Segment.isNamePart c.toLower = Segment.isNamePart c :=
  apply_toLower (p := Segment.isNamePart) (by decide +kernel) c

/-- A character that is no letter is its own lower case. -/
theorem toLower_eq_self {c : Char} (h : c.isAlpha = false) : c.toLower = c := by
  obtain hc | ⟨n, hn, rfl⟩ := toLower_cases c
  · exact hc
  · have halpha : ∀ n ∈ List.range' 65 26, (Char.ofNat n).isAlpha = true := by decide
    rw [halpha n hn] at h
    cases h

/-- No character becomes another one that is no letter. -/
theorem toLower_eq_iff {c x : Char} (hx : x.isAlpha = false) : c.toLower = x ↔ c = x := by
  constructor
  · intro h
    have hc : c.isAlpha = false := by rw [← isAlpha_toLower, h, hx]
    exact (toLower_eq_self hc).symm.trans h
  · rintro rfl
    exact toLower_eq_self hx

theorem toLower_ne {c x : Char} (hx : x.isAlpha = false) (h : c ≠ x) : c.toLower ≠ x :=
  fun hc => h ((toLower_eq_iff hx).1 hc)

/-- The letter of an exponent may have either case. -/
theorem isExponentLetter_toLower (c : Char) :
    c.toLower = 'e' ∨ c.toLower = 'E' ↔ c = 'e' ∨ c = 'E' := by
  have h := apply_toLower (p := fun c => decide (c = 'e' ∨ c = 'E')) (by decide +kernel) c
  exact decide_eq_decide.1 h

theorem takeWhile_map_toLower {p : Char → Bool} (hp : ∀ c, p c.toLower = p c) (cs : List Char) :
    (cs.map Char.toLower).takeWhile p = (cs.takeWhile p).map Char.toLower := by
  have hcomp : p ∘ Char.toLower = p := funext hp
  rw [List.takeWhile_map, hcomp]

theorem toList_toLower (text : String) : text.toLower.toList = text.toList.map Char.toLower :=
  String.toList_map

theorem toLower_ofList (cs : List Char) :
    (String.ofList cs).toLower = String.ofList (cs.map Char.toLower) := by
  apply String.toList_inj.1
  rw [toList_toLower, String.toList_ofList, String.toList_ofList]

theorem toLower_toLower (text : String) : text.toLower.toLower = text.toLower := by
  apply String.toList_inj.1
  simp only [toList_toLower, List.map_map]
  exact List.map_congr_left fun c _ => apply_toLower (p := Char.toLower) (by decide +kernel) c

/-- Positions do not depend on letter case. -/
theorem Position.after_map_toLower (pos : Position) (cs : List Char) :
    pos.after (cs.map Char.toLower) = pos.after cs := by
  induction cs generalizing pos with
  | nil => rfl
  | cons c cs ih =>
    have hstep : pos.step c.toLower = pos.step c := by
      simp only [Position.step, toLower_eq_iff (by decide : '\n'.isAlpha = false)]
    rw [List.map_cons, Position.after_cons, Position.after_cons, hstep, ih]

/-! ### Segments in lower case -/

/-- A form whose lexeme is in lower case. Forms without a lexeme stay, and so does the kind of one
that has it. -/
def Form.toLower : Form → Form
  | .lexeme kind text => .lexeme kind text.toLower
  | .blank => .blank
  | .comment => .comment
  | .fault error => .fault error

namespace Segment

/-- A segment in lower case, character by character, with its form. The segments of a text in lower
case are these (`ofText_map_toLower`), since no letter case changes where a segment ends. -/
def toLower (segment : Segment) : Segment :=
  ⟨segment.form.toLower, segment.first.toLower, segment.more.map Char.toLower⟩

/-- What is cut off, in lower case: the form and the further characters. It is `toLower` for what
`leading` gives. -/
def lowerCut (cut : Form × List Char) : Form × List Char :=
  (cut.1.toLower, cut.2.map Char.toLower)

theorem word_toLower (c : Char) (cs : List Char) :
    word c.toLower (cs.map Char.toLower) = lowerCut (word c cs) := by
  have hkind : ∀ text : String, wordKind text.toLower = wordKind text := by
    intro text
    simp only [wordKind, Kind.ofWord?, toLower_toLower]
  simp only [word, lowerCut, Form.toLower, takeWhile_map_toLower isNamePart_toLower]
  rw [← List.map_cons, ← toLower_ofList, hkind]

theorem digits_toLower (cs : List Char) :
    digits (cs.map Char.toLower) = (digits cs).map Char.toLower :=
  takeWhile_map_toLower isDigit_toLower cs

theorem fraction_toLower (cs : List Char) :
    fraction (cs.map Char.toLower) = (fraction cs).map Char.toLower := by
  cases cs with
  | nil => rfl
  | cons c cs =>
    by_cases hc : c = '.'
    · subst hc
      have hpoint : '.'.toLower = '.' := by decide
      simp only [List.map_cons, hpoint, fraction, digits_toLower, List.map_eq_nil_iff]
      split
      · rfl
      · rw [List.map_cons, hpoint]
    · have hpoint : c.toLower ≠ '.' := toLower_ne (by decide) hc
      rw [List.map_cons, fraction_eq_nil (.cons hpoint), fraction_eq_nil (.cons hc), List.map_nil]

theorem sign_toLower (cs : List Char) : sign (cs.map Char.toLower) = (sign cs).map Char.toLower := by
  cases cs with
  | nil => rfl
  | cons c cs =>
    by_cases hplus : c = '+'
    · subst hplus
      rfl
    · by_cases hminus : c = '-'
      · subst hminus
        rfl
      · have hplus' : c.toLower ≠ '+' := toLower_ne (by decide) hplus
        have hminus' : c.toLower ≠ '-' := toLower_ne (by decide) hminus
        simp [sign, hplus, hminus, hplus', hminus']

theorem exponent_toLower (cs : List Char) :
    exponent (cs.map Char.toLower) = (exponent cs).map Char.toLower := by
  cases cs with
  | nil => rfl
  | cons e cs =>
    simp only [List.map_cons, exponent, isExponentLetter_toLower, sign_toLower, List.length_map,
      ← List.map_drop, digits_toLower, ne_eq, List.map_eq_nil_iff]
    split
    · rw [List.map_cons, List.map_append]
    · rfl

theorem numeral_toLower (c : Char) (cs : List Char) :
    numeral c.toLower (cs.map Char.toLower) = lowerCut (numeral c cs) := by
  simp only [numeral, lowerCut, Form.toLower, toLower_ofList, List.map_cons, List.map_append,
    digits_toLower, List.length_map, List.length_append, ← List.map_drop, fraction_toLower,
    exponent_toLower, List.map_eq_nil_iff]

theorem upTo_toLower {quote : Char} (hquote : quote.isAlpha = false) (cs : List Char) :
    upTo quote (cs.map Char.toLower) = (upTo quote cs).map Char.toLower := by
  refine takeWhile_map_toLower (fun c => ?_) cs
  simp only [ne_eq, toLower_eq_iff hquote, toLower_eq_iff (by decide : '\n'.isAlpha = false)]

theorem string_toLower (cs : List Char) :
    string (cs.map Char.toLower) = lowerCut (string cs) := by
  simp only [string, upTo_toLower (by decide : '"'.isAlpha = false), List.length_map,
    ← List.map_drop]
  cases cs.drop (upTo '"' cs).length with
  | nil => rfl
  | cons c rest =>
    by_cases hc : c = '"'
    · subst hc
      have hquote : '"'.toLower = '"' := by decide
      simp only [List.map_cons, hquote, lowerCut, Form.toLower, toLower_ofList, List.map_append,
        List.map_nil]
    · have hquote : c.toLower ≠ '"' := toLower_ne (by decide) hc
      simp [hc, hquote, lowerCut, Form.toLower]

theorem charEnd_toLower (c : Char) (cs : List Char) :
    charEnd c.toLower (cs.map Char.toLower) = lowerCut (charEnd c cs) := by
  have hquote : '\''.toLower = '\'' := by decide
  cases cs with
  | nil => rfl
  | cons d rest =>
    by_cases hd : d = '\''
    · subst hd
      simp only [List.map_cons, hquote, charEnd, lowerCut, Form.toLower, List.map_nil,
        String.singleton_eq_ofList, toLower_ofList]
    · have hd' : d.toLower ≠ '\'' := toLower_ne (by decide) hd
      -- the value is too long, and the literal reaches to the next quote on the line
      have hextra := upTo_toLower (by decide : '\''.isAlpha = false) (d :: rest)
      rw [List.map_cons] at hextra
      simp only [List.map_cons, charEnd, hextra, List.length_map]
      rw [← List.map_cons, ← List.map_drop]
      cases (d :: rest).drop (upTo '\'' (d :: rest)).length with
      | nil => simp [hd, hd', lowerCut, Form.toLower]
      | cons x xs =>
        by_cases hx : x = '\''
        · subst hx
          simp [hd, hd', hquote, lowerCut, Form.toLower]
        · have hx' : x.toLower ≠ '\'' := toLower_ne (by decide) hx
          simp [hd, hd', hx, hx', lowerCut, Form.toLower]

theorem char_toLower (cs : List Char) :
    char (cs.map Char.toLower) = lowerCut (char cs) := by
  have hquote : '\''.toLower = '\'' := by decide
  cases cs with
  | nil => rfl
  | cons c rest =>
    by_cases hline : c = '\n'
    · subst hline
      rfl
    have hline' : c.toLower ≠ '\n' := toLower_ne (by decide) hline
    by_cases hc : c = '\''
    · subst hc
      cases rest with
      | nil => rfl
      | cons d rest =>
        by_cases hd : d = '\''
        · subst hd
          have hend := charEnd_toLower '\'' rest
          rw [hquote] at hend
          simp only [List.map_cons, hquote, char, hend, lowerCut]
        · have hd' : d.toLower ≠ '\'' := toLower_ne (by decide) hd
          simp [char, hquote, hd, hd', lowerCut, Form.toLower]
    · have hc' : c.toLower ≠ '\'' := toLower_ne (by decide) hc
      simp [char, hc, hc', charEnd_toLower, lowerCut]

/-- Symbols hold no letters. -/
theorem isAlpha_of_mem_symbol {cs : List Char} {k : Kind} (h : Kind.ofSymbol? cs = some k) :
    ∀ c ∈ cs, c.isAlpha = false := by
  unfold Kind.ofSymbol? at h
  split at h <;> first | (cases h; done) | simp

theorem ofSymbol?_toLower (cs : List Char) :
    Kind.ofSymbol? (cs.map Char.toLower) = Kind.ofSymbol? cs := by
  by_cases hplain : ∀ c ∈ cs, c.isAlpha = false
  · rw [List.map_congr_left fun c hc => toLower_eq_self (hplain c hc), List.map_id']
  · -- a letter makes both sides no symbol
    have hnone : Kind.ofSymbol? cs = none := by
      rw [Option.eq_none_iff_forall_ne_some]
      exact fun k hk => hplain (isAlpha_of_mem_symbol hk)
    rw [hnone, Option.eq_none_iff_forall_ne_some]
    intro k hk
    refine hplain fun c hc => ?_
    rw [← isAlpha_toLower]
    exact isAlpha_of_mem_symbol hk _ (List.mem_map_of_mem hc)

theorem shortSymbol_toLower {c : Char} (hc : c.isAlpha = false) :
    shortSymbol c = lowerCut (shortSymbol c) := by
  unfold shortSymbol
  split
  · have hlower := toLower_ofList [c]
    rw [List.map_singleton, toLower_eq_self hc] at hlower
    simp only [lowerCut, Form.toLower, String.singleton_eq_ofList, hlower, List.map_nil]
  · rfl

theorem symbol_toLower {c : Char} (hc : c.isAlpha = false) (cs : List Char) :
    symbol c (cs.map Char.toLower) = lowerCut (symbol c cs) := by
  cases cs with
  | nil => exact shortSymbol_toLower hc
  | cons d rest =>
    have hpair := ofSymbol?_toLower [c, d]
    have htext := toLower_ofList [c, d]
    simp only [List.map_cons, List.map_nil, toLower_eq_self hc] at hpair htext
    simp only [List.map_cons, symbol, hpair]
    split
    · simp only [lowerCut, Form.toLower, htext, List.map_cons, List.map_nil]
    · exact shortSymbol_toLower hc

theorem isPrefixOf_toLower {close : List Char} (hclose : ∀ c ∈ close, c.isAlpha = false)
    (cs : List Char) : close.isPrefixOf (cs.map Char.toLower) = close.isPrefixOf cs := by
  induction close generalizing cs with
  | nil => rfl
  | cons x close ih =>
    obtain ⟨hx, hclose⟩ := List.forall_mem_cons.1 hclose
    cases cs with
    | nil => rfl
    | cons c cs =>
      have hhead : (x == c.toLower) = (x == c) := by
        rw [Bool.eq_iff_iff, beq_iff_eq, beq_iff_eq, eq_comm, toLower_eq_iff hx, eq_comm]
      rw [List.map_cons, List.isPrefixOf_cons_cons, List.isPrefixOf_cons_cons, hhead, ih hclose]

theorem through_toLower {close : List Char} (hclose : ∀ c ∈ close, c.isAlpha = false)
    (cs : List Char) :
    through close (cs.map Char.toLower) = (through close cs).map (List.map Char.toLower) := by
  induction cs with
  | nil => rfl
  | cons c cs ih =>
    have hprefix := isPrefixOf_toLower hclose (c :: cs)
    rw [List.map_cons] at hprefix
    rw [List.map_cons, through, through, hprefix, ih]
    split
    · have hself : close.map Char.toLower = close :=
        (List.map_congr_left fun c hc => toLower_eq_self (hclose c hc)).trans (List.map_id' close)
      rw [Option.map_some, hself]
    · rw [Option.map_map, Option.map_map]
      rfl

theorem comment_toLower {close : List Char} (hclose : ∀ c ∈ close, c.isAlpha = false)
    (cs : List Char) : comment close (cs.map Char.toLower) = lowerCut (comment close cs) := by
  rw [comment, comment, through_toLower hclose]
  cases through close cs with
  | none => rfl
  | some body => rfl

/-- What is cut off from a text in lower case is what is cut off from the text, in lower case. -/
theorem leading_toLower (c : Char) (cs : List Char) :
    leading c.toLower (cs.map Char.toLower) = lowerCut (leading c cs) := by
  have heq : ∀ {x : Char}, x.isAlpha = false → (c.toLower = x ↔ c = x) := toLower_eq_iff
  have hstar : (cs.map Char.toLower).head? = some '*' ↔ cs.head? = some '*' := by
    cases cs with
    | nil => simp
    | cons d cs => simpa using toLower_eq_iff (by decide)
  simp only [leading, isWhiteSpace_toLower, isNameStart_toLower, isDigit_toLower, hstar,
    heq (by decide : '\x7b'.isAlpha = false), heq (by decide : '('.isAlpha = false),
    heq (by decide : '"'.isAlpha = false), heq (by decide : '\''.isAlpha = false)]
  split
  · rfl
  split
  · exact comment_toLower (by simp) cs
  split
  · rw [← List.map_drop, comment_toLower (by simp)]
    rfl
  split
  · exact word_toLower c cs
  split
  · exact numeral_toLower c cs
  split
  · exact string_toLower cs
  split
  · exact char_toLower cs
  · next hname _ _ _ =>
    -- every letter begins a name
    have hc : c.isAlpha = false := by
      by_contra halpha
      rw [Bool.not_eq_false] at halpha
      rw [isNameStart, isAlphabetic_of_isAlpha halpha, Bool.true_or] at hname
      exact hname rfl
    rw [toLower_eq_self hc]
    exact symbol_toLower hc cs

theorem ofLeading_toLower (c : Char) (cs : List Char) :
    ofLeading c.toLower (cs.map Char.toLower) = (ofLeading c cs).toLower := by
  rw [ofLeading, leading_toLower]
  rfl

/-- A text in lower case falls into the same segments, in lower case. -/
theorem ofText_map_toLower (text : List Char) :
    ofText (text.map Char.toLower) = (ofText text).map toLower := by
  fun_induction ofText text with
  | case1 =>
    rw [List.map_nil, ofText]
    rfl
  | case2 c cs ih =>
    have hlength : (ofLeading c cs).toLower.more.length = (ofLeading c cs).more.length :=
      List.length_map ..
    rw [List.map_cons, ofText, ofLeading_toLower, hlength, ← List.map_drop, ih, List.map_cons]

end Segment

/-! ### Tokens in lower case -/

/-- A token whose text is in lower case. That of a lexical error is a message, which stays, and so
do kind and position. -/
def Token.toLower (token : Token) : Token :=
  if token.kind = .error then token else { token with text := token.text.toLower }

theorem Token.kind_toLower (token : Token) : token.toLower.kind = token.kind := by
  unfold Token.toLower
  split
  · rfl
  · rfl

theorem Token.pos_toLower (token : Token) : token.toLower.pos = token.pos := by
  unfold Token.toLower
  split
  · rfl
  · rfl

namespace Segment

theorem chars_toLower (segment : Segment) :
    segment.toLower.chars = segment.chars.map Char.toLower :=
  rfl

theorem isEnding_toLower (segment : Segment) : segment.toLower.isEnding = segment.isEnding := by
  obtain ⟨form, _, _⟩ := segment
  cases form with
  | blank | comment | lexeme => rfl
  | fault error => cases error <;> rfl

/-- The token of a segment in lower case, which is no error if it has a lexeme. -/
theorem token?_toLower {segment : Segment}
    (h : ∀ kind text, segment.form = .lexeme kind text → kind ≠ .error) (pos : Position) :
    segment.toLower.token? pos = (segment.token? pos).map Token.toLower := by
  obtain ⟨form, _, _⟩ := segment
  cases form with
  | blank | comment | fault => rfl
  | lexeme kind text =>
    have hkind : kind ≠ .error := h kind text rfl
    simp [toLower, token?, Form.toLower, Token.toLower, hkind]

theorem tokensFrom_map_toLower (text : List Char) (pos : Position) :
    Lexer.tokensFrom pos ((ofText text).map toLower) =
      (Lexer.tokensFrom pos (ofText text)).map Token.toLower := by
  fun_induction ofText text generalizing pos with
  | case1 => rfl
  | case2 c cs ih =>
    have hkind : ∀ kind text, (ofLeading c cs).form = .lexeme kind text → kind ≠ .error :=
      fun kind text h => (isLexeme_of_leading (Prod.ext h rfl)).kind_ne.1
    rw [List.map_cons, Lexer.tokensFrom, Lexer.tokensFrom, chars_toLower,
      Position.after_map_toLower, ih, token?_toLower hkind, List.map_append, Option.toList_map]

theorem stopFrom_map_toLower (segments : List Segment) (pos stop : Position) :
    Lexer.stopFrom pos stop (segments.map toLower) = Lexer.stopFrom pos stop segments := by
  induction segments generalizing pos stop with
  | nil => rfl
  | cons segment rest ih =>
    rw [List.map_cons, Lexer.stopFrom, Lexer.stopFrom, chars_toLower, Position.after_map_toLower,
      isEnding_toLower, ih]

end Segment

namespace Lexer

variable (text file : String)

/-- The tokens of a text in lower case stand where those of the text stand. -/
theorem tokens_toLower :
    (ofText text.toLower file).feed.tokens = (ofText text file).feed.tokens.map Token.toLower := by
  change tokensFrom .start (Segment.ofText text.toLower.toList) =
    (tokensFrom .start (Segment.ofText text.toList)).map Token.toLower
  rw [toList_toLower, Segment.ofText_map_toLower, Segment.tokensFrom_map_toLower]

/-- The end of a text does not depend on letter case. -/
theorem eof_toLower : (ofText text.toLower file).feed.eof = (ofText text file).feed.eof := by
  change Token.mk .eof "" (stopFrom .start .start (Segment.ofText text.toLower.toList)) =
    ⟨.eof, "", stopFrom .start .start (Segment.ofText text.toList)⟩
  rw [toList_toLower, Segment.ofText_map_toLower, Segment.stopFrom_map_toLower]

end Lexer

/-- Scanning a text in lower case gives the same tokens at the same positions, with their texts in
lower case. -/
theorem scan_toLower (text : String) : scan text.toLower = (scan text).map Token.toLower := by
  have heof : (Lexer.ofText text).feed.eof.toLower = (Lexer.ofText text).feed.eof := by
    have hempty : "".toLower = "" := toLower_ofList []
    simp [Lexer.feed, Token.toLower, hempty]
  simp only [scan, Lexer.tokens_toLower, Lexer.eof_toLower, List.map_append, List.map_singleton,
    heof]

end MiniPascal
