import MiniPascal.Proofs.Lexing.Places

/-!
# How far a scanner looks ahead

To find the end of a segment, a scanner looks at some characters behind it: at one behind a word or
a symbol, at up to three behind a numeral, which may be left over like the point and the letter in
`1.e+`. None of this goes on over the beginning of trivia. So a segment stays what it is if, at any
place behind it, the text goes on with trivia in place of what was there (`Settles`), even if that
place is right behind a character that was looked at. For faults this is not so: a comment that is
never closed is one only because of all that follows.
-/

namespace MiniPascal

/-- Whether **trivia may open** with a character: white space, a brace, or a parenthesis, which
opens a comment only with a star behind it. -/
def OpensTrivia (c : Char) : Prop :=
  isWhiteSpace c = true ∨ c = '\x7b' ∨ c = '('

instance (c : Char) : Decidable (OpensTrivia c) :=
  inferInstanceAs (Decidable (_ ∨ _))

/-- Trivia opens with such a character. -/
theorem IsTrivia.starts {cs : List Char} (h : IsTrivia cs) : Starts OpensTrivia cs := by
  cases h with
  | nil => nofun
  | blank blank => exact .cons (.inl blank)
  | comment marks =>
    simp only [commentMarks, List.mem_cons, List.not_mem_nil, or_false, Prod.mk.injEq] at marks
    obtain ⟨rfl, rfl⟩ | ⟨rfl, rfl⟩ := marks
    · exact .cons (.inr (.inl rfl))
    · exact .cons (.inr (.inr rfl))

/-- Where trivia opens, no name, number or symbol goes on. -/
theorem OpensTrivia.stops {c : Char} (h : OpensTrivia c) :
    Segment.isNamePart c = false ∧ c ≠ '.' ∧ c ≠ '+' ∧ c ≠ '-' ∧ c ≠ '*' ∧ c ≠ '=' ∧ c ≠ '>' := by
  obtain hblank | rfl | rfl := h
  · refine ⟨Segment.isNamePart_of_isWhiteSpace hblank, ?_, ?_, ?_, ?_, ?_, ?_⟩
    all_goals
      rintro rfl
      revert hblank
      decide
  · decide
  · decide

/-- Whether a text is empty or starts with a character that has a property is decided within its
first part, or at the beginning of the second one. -/
theorem Starts.append_left {p : Char → Prop} {u v r : List Char} (h : Starts p (u ++ v))
    (hr : Starts p r) : Starts p (u ++ r) := by
  cases u with
  | nil => exact hr
  | cons c u => exact h

namespace Segment

/-! ### Parts of numerals -/

/-- Whether a part that is taken from the beginning of a text **settles**: it is taken as well if, at
some place behind it, trivia opens in place of what was there. -/
def PartSettles (f : List Char → List Char) : Prop :=
  ∀ ⦃part u v r : List Char⦄, f (part ++ (u ++ v)) = part → Starts OpensTrivia r →
    f (part ++ (u ++ r)) = part

/-- That there is no such part is settled, too. -/
theorem PartSettles.eq_nil {f : List Char → List Char} (hf : PartSettles f) {u v r : List Char}
    (h : f (u ++ v) = []) (hr : Starts OpensTrivia r) : f (u ++ r) = [] :=
  @hf [] u v r h hr

/-- The longest beginning all of whose characters have a property settles, if trivia does not open
with such a character. -/
theorem partSettles_takeWhile {p : Char → Bool} (hp : ∀ c, OpensTrivia c → p c = false) :
    PartSettles (List.takeWhile p) := by
  intro part u v r h hr
  have hall : ∀ c ∈ part, p c = true := by
    rw [← h]
    exact fun c => List.mem_takeWhile_imp
  have hstop : Starts (fun c => p c = false) (u ++ v) := by
    rw [List.takeWhile_append_of_pos hall, List.append_right_eq_self] at h
    intro c hc
    by_contra hpc
    rw [Bool.not_eq_false] at hpc
    obtain ⟨cs, hcs⟩ : ∃ cs, u ++ v = c :: cs := List.head?_eq_some_iff.1 hc
    rw [hcs, List.takeWhile_cons_of_pos hpc] at h
    cases h
  exact takeWhile_append_of_starts hall (hstop.append_left (hr.imp hp))

theorem isDigit_of_opensTrivia {c : Char} (h : OpensTrivia c) : c.isDigit = false :=
  (not_numeral_of_not_isNamePart h.stops.1).1

theorem partSettles_digits : PartSettles digits :=
  partSettles_takeWhile fun _ => isDigit_of_opensTrivia

theorem partSettles_fraction : PartSettles fraction := by
  intro part u v r h hr
  obtain rfl | ⟨ds, rfl, hne, -⟩ : IsFraction part := h ▸ isFraction_fraction _
  · -- there is no fraction: no point, or no digit behind it
    rw [List.nil_append] at h ⊢
    cases u with
    | nil => exact fraction_eq_nil (hr.imp fun _ hc => hc.stops.2.1)
    | cons c u =>
      by_cases hpoint : c = '.'
      · subst hpoint
        rw [List.cons_append, fraction] at h ⊢
        split at h
        · next hdigits => exact if_pos (partSettles_digits.eq_nil hdigits hr)
        · cases h
      · exact fraction_eq_nil (.cons hpoint)
  · rw [List.cons_append, fraction] at h ⊢
    split at h
    · cases h
    · rw [partSettles_digits (List.cons.inj h).2 hr, if_neg hne]

/-- Whether digits follow a sign is settled. -/
private theorem digits_after_sign {u v r : List Char} (hr : Starts OpensTrivia r)
    (h : digits ((u ++ v).drop (sign (u ++ v)).length) = []) :
    digits ((u ++ r).drop (sign (u ++ r)).length) = [] := by
  cases u with
  | nil =>
    have hsign : sign r = [] := by
      unfold sign
      split
      · exact absurd rfl hr.head.stops.2.2.1
      · exact absurd rfl hr.head.stops.2.2.2.1
      · rfl
    rw [List.nil_append, hsign]
    exact digits_append (List.forall_mem_nil _) (hr.imp fun _ => isDigit_of_opensTrivia)
  | cons c u =>
    -- the sign is told by the first character
    have hsign : sign (c :: u ++ r) = sign (c :: u ++ v) := by
      unfold sign
      split <;> simp_all
    rw [hsign]
    obtain hs | hs | hs := sign_cases (c :: u ++ v)
    all_goals rw [hs] at h ⊢
    · exact partSettles_digits.eq_nil (u := u) h hr
    · exact partSettles_digits.eq_nil (u := u) h hr
    · exact partSettles_digits.eq_nil (u := c :: u) h hr

theorem partSettles_exponent : PartSettles exponent := by
  intro part u v r h hr
  obtain rfl | ⟨e, s, ds, rfl, he, hs, hne, hds⟩ : IsExponent part := h ▸ isExponent_exponent _
  · -- there is no exponent: no letter for one, or no digit behind it and the sign
    rw [List.nil_append] at h ⊢
    cases u with
    | nil => exact exponent_eq_nil (hr.imp fun _ hc => (not_numeral_of_not_isNamePart hc.stops.1).2)
    | cons e u =>
      rw [List.cons_append, exponent] at h ⊢
      split at h
      · cases h
      · next hnone =>
        refine if_neg fun hsome => hnone ⟨hsome.1, fun hdigits => hsome.2 ?_⟩
        exact digits_after_sign hr hdigits
  · have hstart : ∀ w, Starts (fun d => d.isDigit = true) (ds ++ w) := by
      obtain ⟨d, ds, rfl⟩ := List.exists_cons_of_ne_nil hne
      exact fun w => .cons (hds d List.mem_cons_self)
    have heq : ∀ w, exponent (e :: (s ++ ds) ++ w) = e :: (s ++ digits (ds ++ w)) := by
      intro w
      have hsome : digits (ds ++ w) ≠ [] := by
        rw [digits, List.takeWhile_append_of_pos hds]
        exact List.append_ne_nil_of_left_ne_nil hne _
      rw [List.cons_append, List.append_assoc, exponent, sign_append hs (hstart w), List.drop_left,
        if_pos ⟨he, hsome⟩]
    rw [heq] at h ⊢
    rw [partSettles_digits (List.append_cancel_left (List.cons.inj h).2) hr]

/-! ### Segments -/

/-- Whether what is cut off from the beginning of a text **settles**, unless it is a fault: it is cut
off as well if, at some place behind it, trivia opens in place of what was there. -/
def Settles (f : List Char → Form × List Char) : Prop :=
  ∀ ⦃form : Form⦄ ⦃more u v r : List Char⦄, f (more ++ (u ++ v)) = (form, more) →
    (∀ e, form ≠ .fault e) → Starts OpensTrivia r → f (more ++ (u ++ r)) = (form, more)

theorem settles_word (c : Char) : Settles (word c) := by
  intro form more u v r h _ hr
  obtain ⟨rfl, hmore⟩ := Prod.mk.inj h
  have hsettled := partSettles_takeWhile (fun _ hc => hc.stops.1) hmore hr
  simp only [word, hmore, hsettled]

theorem settles_numeral (c : Char) : Settles (numeral c) := by
  intro form more u v r h _ hr
  obtain ⟨hform, hmore⟩ := Prod.mk.inj h
  generalize hwhole : digits (more ++ (u ++ v)) = whole at hform hmore
  generalize hpart : fraction ((more ++ (u ++ v)).drop whole.length) = part at hform hmore
  generalize hpower : exponent ((more ++ (u ++ v)).drop (whole ++ part).length) = power at hform hmore
  subst hform hmore
  -- each part is followed by the parts behind it and then by what is behind the numeral
  have hsplit : ∀ w, whole ++ part ++ power ++ (u ++ w) =
      whole ++ ((part ++ power ++ u) ++ w) := by simp
  have hsplit' : ∀ w, (whole ++ part ++ power ++ (u ++ w)).drop whole.length =
      part ++ ((power ++ u) ++ w) := by simp
  have hsplit'' : ∀ w, (whole ++ part ++ power ++ (u ++ w)).drop (whole ++ part).length =
      power ++ (u ++ w) := by simp
  rw [hsplit] at hwhole
  rw [hsplit'] at hpart
  rw [hsplit''] at hpower
  refine numeral_eq c ?_ ?_ ?_
  · rw [hsplit]
    exact partSettles_digits hwhole hr
  · rw [hsplit']
    exact partSettles_fraction hpart hr
  · rw [hsplit'']
    exact partSettles_exponent hpower hr

/-- No symbol has a character with which trivia opens as its second one. -/
theorem ofSymbol?_of_opensTrivia (c : Char) {d : Char} (h : OpensTrivia d) :
    Kind.ofSymbol? [c, d] = none := by
  obtain ⟨-, -, -, -, -, hequal, hgreater⟩ := h.stops
  generalize htext : [c, d] = text
  unfold Kind.ofSymbol?
  split <;> cases htext <;> first | contradiction | rfl

theorem settles_symbol (c : Char) : Settles (symbol c) := by
  intro form more u v r h _ hr
  rw [← List.append_assoc] at h ⊢
  cases hmore : more ++ u with
  | cons d x =>
    -- the second character is the only one that is looked at
    rw [hmore] at h
    exact h
  | nil =>
    obtain ⟨rfl, rfl⟩ := List.append_eq_nil_iff.1 hmore
    have hv : symbol c v = shortSymbol c := by
      have hmore : (symbol c v).2 = [] := congrArg Prod.snd h
      unfold symbol at hmore ⊢
      split at hmore
      · rfl
      · split at hmore
        · cases hmore
        · rfl
    have hr : symbol c r = shortSymbol c := by
      cases r with
      | nil => rfl
      | cons d r => simp only [symbol, ofSymbol?_of_opensTrivia c hr.head]
    exact hr.trans (hv.symm.trans h)

/-- What reaches through the first occurrence of a closing lexeme does so whatever follows. -/
theorem through_of_first {closing : List Char} (hne : closing ≠ []) {inner : List Char}
    (h : ¬closing <:+: (inner ++ closing).dropLast) (rest : List Char) :
    through closing (inner ++ closing ++ rest) = some (inner ++ closing) := by
  induction inner with
  | nil =>
    obtain ⟨c, cs, rfl⟩ := List.exists_cons_of_ne_nil hne
    exact if_pos (List.isPrefixOf_iff_prefix.2 (List.prefix_append _ _))
  | cons c inner ih =>
    have hnonempty : inner ++ closing ≠ [] := List.append_ne_nil_of_right_ne_nil inner hne
    rw [List.cons_append, List.dropLast_cons_of_ne_nil hnonempty, List.infix_cons_iff, not_or] at h
    obtain ⟨hhere, hlater⟩ := h
    rw [List.cons_append, List.cons_append, through, ih hlater, if_neg, Option.map_some]
    -- an occurrence in front of the first one would end before it
    intro hbegins
    refine hhere (List.prefix_of_prefix_length_le (List.isPrefixOf_iff_prefix.1 hbegins) ?_ ?_)
    · rw [List.prefix_cons_inj]
      exact (List.dropLast_prefix _).trans (List.prefix_append _ _)
    · simp only [List.length_cons, List.length_dropLast, List.length_append]
      omega

theorem settles_comment {closing : List Char} (hne : closing ≠ []) : Settles (comment closing) := by
  intro form more u v r h hform hr
  unfold comment at h
  split at h
  · next body hbody =>
    obtain ⟨rfl, rfl⟩ := Prod.mk.inj h
    obtain ⟨inner, rfl, hfirst⟩ := first_of_through hne hbody
    rw [comment, through_of_first hne hfirst]
  · exact absurd (congrArg Prod.fst h).symm (hform _)

/-- A literal in quotes ends before anything. -/
private theorem endsBefore_of_quote {c : Char} {more : List Char} {k : Kind} {text : String}
    (h : IsLexeme c more k text) (hc : c = '"' ∨ c = '\'') (d : Char) : k.endsBefore d = true := by
  cases h with
  | word first => obtain rfl | rfl := hc <;> exact absurd first (by decide)
  | numeral first => obtain rfl | rfl := hc <;> cases first
  | string | char => rfl
  | symbol symbol => obtain rfl | rfl := hc <;> cases symbol

/-- What a quote opens settles, since it ends with a quote. -/
private theorem settles_quoted {c : Char} (hc : c = '"' ∨ c = '\'') : Settles (leading c) := by
  intro form more u v r h hform _
  have hcuts := cuts_leading c (more ++ (u ++ v))
  rw [h] at hcuts
  generalize more ++ (u ++ v) = cs at hcuts
  cases hcuts with
  | blank blank => obtain rfl | rfl := hc <;> exact absurd blank (by decide)
  | comment trivia =>
    have hopens := trivia.starts.head
    obtain rfl | rfl := hc <;> exact absurd hopens (by decide)
  | lexeme lexeme => exact leading_of_isLexeme lexeme fun d _ => endsBefore_of_quote lexeme hc d
  | toEnd | fault => exact absurd rfl (hform _)

/-- What is cut off from the beginning of a text settles, unless it is a fault. -/
theorem settles_leading (c : Char) : Settles (leading c) := by
  intro form more u v r h hform hr
  -- one class of segments after the other, in the order in which the scanner tries them
  by_cases hblank : isWhiteSpace c = true
  · rw [leading, if_pos hblank] at h ⊢
    exact h
  by_cases hbrace : c = '\x7b'
  · rw [leading, if_neg hblank, if_pos hbrace] at h ⊢
    exact settles_comment (List.cons_ne_nil _ _) h hform hr
  by_cases hstar : c = '(' ∧ (more ++ (u ++ v)).head? = some '*'
  · obtain ⟨rfl, hhead⟩ := hstar
    rw [leading, if_neg hblank, if_neg hbrace, if_pos ⟨rfl, hhead⟩] at h
    obtain ⟨hcomment, hmore⟩ := Prod.mk.inj h
    obtain ⟨body, rfl⟩ : ∃ body, more = '*' :: body := ⟨_, hmore.symm⟩
    have hsettled := settles_comment (List.cons_ne_nil _ _)
      (Prod.ext hcomment (List.cons.inj hmore).2) hform hr
    rw [leading, if_neg hblank, if_neg hbrace, if_pos ⟨rfl, rfl⟩, List.cons_append,
      List.drop_succ_cons, List.drop_zero, hsettled]
  -- no star comes to stand behind a parenthesis
  have hstar' : ¬(c = '(' ∧ (more ++ (u ++ r)).head? = some '*') := by
    rintro ⟨rfl, hhead⟩
    have hstarts : Starts (fun d => d ≠ '*') (more ++ u ++ v) := by
      rintro d hd rfl
      exact hstar ⟨rfl, List.append_assoc more u v ▸ hd⟩
    refine hstarts.append_left (hr.imp fun _ hd => hd.stops.2.2.2.2.1) '*' ?_ rfl
    rwa [List.append_assoc]
  by_cases hquote : c = '"' ∨ c = '\''
  · exact settles_quoted hquote h hform hr
  obtain ⟨hdouble, hsingle⟩ := not_or.1 hquote
  rw [leading, if_neg hblank, if_neg hbrace, if_neg hstar] at h
  rw [leading, if_neg hblank, if_neg hbrace, if_neg hstar']
  by_cases hname : isNameStart c = true
  · rw [if_pos hname] at h ⊢
    exact settles_word c h hform hr
  by_cases hdigit : c.isDigit = true
  · rw [if_neg hname, if_pos hdigit] at h ⊢
    exact settles_numeral c h hform hr
  · rw [if_neg hname, if_neg hdigit, if_neg hdouble, if_neg hsingle] at h ⊢
    exact settles_symbol c h hform hr

/-! ### Texts -/

/-- The segments before some place of a text stay what they are if trivia opens there in place of
what was there, unless there is a fault among them. -/
theorem ofText_append_of_starts {text r : List Char} {front back : List Segment}
    (h : ofText text = front ++ back) (hfront : ∀ segment ∈ front, ∀ e, segment.form ≠ .fault e)
    (hr : Starts OpensTrivia r) : ofText (front.flatMap chars ++ r) = front ++ ofText r := by
  induction front generalizing text with
  | nil => rfl
  | cons segment front ih =>
    obtain ⟨hfault, hfaults⟩ := List.forall_mem_cons.1 hfront
    have hfirst : ofText text = [] ++ segment :: (front ++ back) := h
    have hothers : ofText text = [segment] ++ (front ++ back) := h
    have hleading := leading_of_append hfirst
    rw [List.flatMap_append] at hleading
    have hsettled := settles_leading _ hleading hfault hr
    -- what is behind the segment is cut in the same manner as a text of its own
    have hrest := ih (ofText_flatMap_of_append hothers) hfaults
    rw [List.flatMap_cons, List.append_assoc, chars, List.cons_append, ofText, ofLeading, hsettled,
      List.drop_left, hrest]
    rfl

/-- A comment is cut off whatever follows. -/
theorem leading_of_comment {c : Char} {opening closing body : List Char}
    (marks : (c :: opening, closing) ∈ commentMarks)
    (first : ¬closing <:+: (body ++ closing).dropLast) (rest : List Char) :
    leading c (opening ++ (body ++ closing) ++ rest) = (.comment, opening ++ (body ++ closing)) := by
  simp only [commentMarks, List.mem_cons, List.not_mem_nil, or_false, Prod.mk.injEq,
    List.cons.injEq] at marks
  obtain ⟨⟨rfl, rfl⟩, rfl⟩ | ⟨⟨rfl, rfl⟩, rfl⟩ := marks
  · rw [List.nil_append, leading, if_neg (by decide), if_pos rfl, comment,
      through_of_first (List.cons_ne_nil _ _) first]
  · rw [List.append_assoc, List.cons_append, List.nil_append, leading, if_neg (by decide),
      if_neg (by decide), if_pos ⟨rfl, rfl⟩, List.drop_succ_cons, List.drop_zero, comment,
      through_of_first (List.cons_ne_nil _ _) first]
    rfl

end Segment

end MiniPascal
