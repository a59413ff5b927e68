import MiniPascal.Segment.Lexeme
import MiniPascal.Text.WhiteSpace

/-!
# The segments of a text

`Segment.ofText` cuts a text into segments from the left. The first character and the one after it
tell which class the next segment is of (`Segment.leading`), and the class says how far it reaches.

Nothing is lost: the characters of the segments, one after the other, are the text
(`flatMap_chars_ofText`).
-/

namespace MiniPascal

namespace Segment

/-- The form of the segment that begins with `c`, and its further characters. What a segment can
begin with is tried in turn, and the first that fits decides; anything else is a symbol or a
fault. -/
def leading (c : Char) (cs : List Char) : Form × List Char :=
  if isWhiteSpace c then (.blank, [])
  else if c = '\x7b' then comment ['\x7d'] cs
  else if c = '(' ∧ cs.head? = some '*' then
    let (form, body) := comment ['*', ')'] (cs.drop 1)
    (form, '*' :: body)
  else if isNameStart c then word c cs
  else if c.isDigit then numeral c cs
  else if c = '"' then string cs
  else if c = '\'' then char cs
  else symbol c cs

/-- The segment at the beginning of the text `c :: cs`: its first character together with what
`leading` makes of the others. -/
def ofLeading (c : Char) (cs : List Char) : Segment :=
  ⟨(leading c cs).1, c, (leading c cs).2⟩

/-- The segments of a text, from left to right: the first, and then those of the text behind it.
Each takes a character at least, so this ends. -/
def ofText : List Char → List Segment
  | [] => []
  | c :: cs => ofLeading c cs :: ofText (cs.drop (ofLeading c cs).more.length)
termination_by text => text.length
decreasing_by
  simp only [List.length_cons, List.length_drop]
  omega

/-! ### Nothing is lost -/

/-- What follows a beginning of a text is a beginning if it is one of the rest. -/
private theorem append_isPrefix {part more text : List Char} (hp : part <+: text)
    (hm : more <+: text.drop part.length) : part ++ more <+: text := by
  obtain ⟨rest, rfl⟩ := hp
  simpa using hm

theorem digits_isPrefix (cs : List Char) : digits cs <+: cs :=
  List.takeWhile_prefix _

theorem fraction_isPrefix (cs : List Char) : fraction cs <+: cs := by
  unfold fraction
  split
  · split
    · exact List.nil_prefix
    · exact (List.prefix_cons_inj _).2 (digits_isPrefix _)
  · exact List.nil_prefix

private theorem sign_isPrefix (cs : List Char) : sign cs <+: cs := by
  unfold sign
  split <;> simp

private theorem exponent_isPrefix (cs : List Char) : exponent cs <+: cs := by
  cases cs with
  | nil => exact List.nil_prefix
  | cons e cs =>
    simp only [exponent]
    split
    · exact (List.prefix_cons_inj _).2 (append_isPrefix (sign_isPrefix cs) (digits_isPrefix _))
    · exact List.nil_prefix

private theorem numeral_isPrefix (c : Char) (cs : List Char) : (numeral c cs).2 <+: cs :=
  append_isPrefix (append_isPrefix (digits_isPrefix cs) (fraction_isPrefix _)) (exponent_isPrefix _)

private theorem upTo_isPrefix (quote : Char) (cs : List Char) : upTo quote cs <+: cs :=
  List.takeWhile_prefix _

private theorem string_isPrefix (cs : List Char) : (string cs).2 <+: cs := by
  unfold string
  dsimp only
  split
  · next rest h => exact append_isPrefix (upTo_isPrefix _ _) (h ▸ by simp)
  · exact upTo_isPrefix _ _

private theorem charEnd_isPrefix (c : Char) (cs : List Char) : (charEnd c cs).2 <+: cs := by
  unfold charEnd
  split
  · simp
  · dsimp only
    split
    · next rest h => exact append_isPrefix (upTo_isPrefix _ _) (h ▸ by simp)
    · exact upTo_isPrefix _ _

private theorem char_isPrefix (cs : List Char) : (char cs).2 <+: cs := by
  unfold char
  split <;> simp [charEnd_isPrefix]

private theorem symbol_isPrefix (c : Char) (cs : List Char) : (symbol c cs).2 <+: cs := by
  have short : (shortSymbol c).2 = [] := by
    unfold shortSymbol
    split <;> rfl
  unfold symbol
  split
  · simp [short]
  · split <;> simp [short]

/-- What reaches through a closing lexeme is a beginning of the text. -/
theorem through_isPrefix {close cs body : List Char} (h : through close cs = some body) :
    body <+: cs := by
  induction cs generalizing body with
  | nil => simp [through] at h
  | cons c cs ih =>
    rw [through] at h
    split at h
    · next begins =>
      cases h
      exact List.isPrefixOf_iff_prefix.1 begins
    · obtain ⟨body, found, rfl⟩ := Option.map_eq_some_iff.1 h
      exact (List.prefix_cons_inj _).2 (ih found)

private theorem comment_isPrefix (close cs : List Char) : (comment close cs).2 <+: cs := by
  unfold comment
  split
  · next found => exact through_isPrefix found
  · exact List.prefix_rfl

/-- A segment takes a beginning of the text. -/
theorem leading_isPrefix (c : Char) (cs : List Char) : (leading c cs).2 <+: cs := by
  unfold leading
  split
  · exact List.nil_prefix
  split
  · exact comment_isPrefix _ _
  split
  · next star =>
    obtain ⟨rest, rfl⟩ : ∃ rest, cs = '*' :: rest := by
      cases cs <;> simp_all
    exact (List.prefix_cons_inj _).2 (comment_isPrefix _ _)
  split
  · exact List.takeWhile_prefix _
  split
  · exact numeral_isPrefix _ _
  split
  · exact string_isPrefix _
  split
  · exact char_isPrefix _
  · exact symbol_isPrefix _ _

/-- The characters of the first segment and the text that is left make up the text. -/
theorem chars_ofLeading_append (c : Char) (cs : List Char) :
    (ofLeading c cs).chars ++ cs.drop (ofLeading c cs).more.length = c :: cs := by
  simpa [chars, ofLeading] using (List.prefix_iff_eq_append.1 (leading_isPrefix c cs))

/-- The characters of all segments, one after the other, are the text. -/
theorem flatMap_chars_ofText (text : List Char) : (ofText text).flatMap chars = text := by
  fun_induction ofText text with
  | case1 => rfl
  | case2 c cs ih => rw [List.flatMap_cons, ih, chars_ofLeading_append]

end Segment

end MiniPascal
