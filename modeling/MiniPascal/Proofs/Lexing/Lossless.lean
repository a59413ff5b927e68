import Mathlib.Data.List.DropRight
import MiniPascal.Proofs.Lexing.Trivia
import MiniPascal.Source.Lexer

/-!
# Nothing is lost between the tokens

Any text, whether or not it is a program, is the characters of its tokens with trivia in between, in
front and behind. A token stands exactly where it says, which is counted from the line feeds before
it (`Position.after_start`), and one that is no error is written as it is displayed
(`exists_cuts_scan`).

The proof passes the segments one by one. Blanks and comments lengthen the trivia that is to stand
in front of the next token, and any other segment is a token.
-/

namespace MiniPascal

/-! ### Lines and columns -/

/-- Behind a text, the line counts the line feeds of the text, and the column counts the characters
behind the last of them. -/
theorem Position.after_start (text : List Char) :
    start.after text = ⟨1 + text.count '\n', 1 + (text.rtakeWhile fun c => c ≠ '\n').length⟩ := by
  induction text using List.reverseRecOn with
  | nil => rfl
  | append_singleton text c ih =>
    rw [after_append, ih, after_cons, after_nil, step]
    by_cases hc : c = '\n'
    · subst hc
      rw [if_pos rfl, List.rtakeWhile_concat_neg _ _ _ (by decide), List.count_append]
      simp [Nat.add_assoc]
    · rw [if_neg hc, List.rtakeWhile_concat_pos _ text c (by simpa using hc),
        List.count_append]
      simp [hc, Nat.add_assoc]

/-! ### Cuts -/

/-- Whether a token is the error for a comment that is never closed. It is told by its message,
which no other error has. -/
def Token.IsOpenComment (token : Token) : Prop :=
  token.kind = .error ∧ token.text = LexicalError.openComment.message

instance (token : Token) : Decidable token.IsOpenComment :=
  inferInstanceAs (Decidable (_ ∧ _))

/-- Only a comment that is never closed has the message for one. -/
theorem LexicalError.message_ne {e : LexicalError} (h : e ≠ .openComment) :
    e.message ≠ openComment.message := by
  cases e with
  | openComment => exact absurd rfl h
  | openString | openChar | emptyChar | longChar => decide
  | unknownSymbol c =>
    -- the two begin alike, up to the third letter
    intro heq
    have hthird : ("Unknown symbol '" ++ (String.singleton c ++ "'")).toList[2]? =
        "Unterminated comment".toList[2]? := by
      rw [← String.append_assoc]
      exact congrArg (fun text : String => text.toList[2]?) heq
    rw [String.toList_append, List.getElem?_append_left (by decide)] at hthird
    revert hthird
    decide

/-- A token with the characters that it is made from and with the trivia in front of them. A text is
cut into these, less the trivia at its end. -/
structure Cut where
  gap : List Char
  chars : List Char
  token : Token

/-- The characters of a cut, with those in front of its token: what it takes up in the text. -/
def Cut.text (cut : Cut) : List Char :=
  cut.gap ++ cut.chars

/-- Whether a cut is **exact** that has a text before it, and other cuts and trivia behind it: its
token says truly what its characters are and where they stand. -/
structure Cut.Exact (before : List Char) (cut : Cut) (back : List Cut) (last : List Char) :
    Prop where
  gap : IsTrivia cut.gap
  nonempty : cut.chars ≠ []
  kind : cut.token.kind ≠ .eof
  line : cut.token.pos.line = 1 + (before ++ cut.gap).count '\n'
  column : cut.token.pos.column =
    1 + ((before ++ cut.gap).rtakeWhile fun c => c ≠ '\n').length
  display : cut.token.kind ≠ .error → cut.token.display.toList = cut.chars
  oneLine : ¬cut.token.IsOpenComment → '\n' ∉ cut.chars
  toEnd : cut.token.IsOpenComment → back = [] ∧ last = []

namespace Cut

variable {before last : List Char} {cut : Cut} {cuts : List Cut}

/-- Where nothing is left there is no cut, since every cut takes something. -/
private theorem eq_nil_of_text (h : [] = cuts.flatMap text ++ last)
    (hne : ∀ cut ∈ cuts, cut.chars ≠ []) : cuts = [] ∧ last = [] := by
  rw [eq_comm, List.append_eq_nil_iff, List.flatMap_eq_nil_iff] at h
  refine ⟨List.eq_nil_iff_forall_not_mem.2 fun cut hcut => hne cut hcut ?_, h.2⟩
  exact (List.append_eq_nil_iff.1 (h.1 cut hcut)).2

/-- An exact cut before exact cuts. -/
private theorem exact_cons (hcut : cut.Exact before cuts last)
    (hcuts : ∀ front c back, cuts = front ++ c :: back →
      c.Exact (before ++ cut.text ++ front.flatMap text) back last) :
    ∀ front c back, cut :: cuts = front ++ c :: back →
      c.Exact (before ++ front.flatMap text) back last := by
  intro front c back heq
  cases front with
  | nil =>
    obtain ⟨rfl, rfl⟩ := List.cons.inj heq
    rw [List.flatMap_nil, List.append_nil]
    exact hcut
  | cons first front =>
    injection heq with hfirst hrest
    subst hfirst
    rw [List.flatMap_cons, ← List.append_assoc]
    exact hcuts front c back hrest

end Cut

namespace Segment

/-- The first segment of a text is trivia, or it has a token. -/
private theorem token?_ofLeading (c : Char) (cs : List Char) (pos : Position) :
    ((ofLeading c cs).token? pos = none ∧ IsTrivia (ofLeading c cs).chars) ∨
      ∃ token, (ofLeading c cs).token? pos = some token ∧ token.pos = pos ∧
        (token.kind ≠ .error → token.display.toList = (ofLeading c cs).chars) ∧
        (¬token.IsOpenComment → '\n' ∉ (ofLeading c cs).chars) ∧
        (token.IsOpenComment → (ofLeading c cs).more = cs) := by
  have hcuts := cuts_leading c cs
  generalize hform : (leading c cs).1 = form at hcuts
  generalize hmore : (leading c cs).2 = more at hcuts
  rw [token?, chars, show (ofLeading c cs).form = form from hform,
    show (ofLeading c cs).more = more from hmore]
  cases hcuts with
  | blank blank => exact .inl ⟨rfl, .blank blank .nil⟩
  | comment trivia => exact .inl ⟨rfl, trivia⟩
  | lexeme lexeme =>
    exact .inr ⟨_, rfl, rfl, fun _ => lexeme.display pos, fun _ => lexeme.newline_not_mem,
      fun h => absurd h.1 lexeme.kind_ne.1⟩
  | toEnd =>
    exact .inr ⟨_, rfl, rfl, fun h => absurd rfl h, fun h => absurd ⟨rfl, rfl⟩ h, fun _ => rfl⟩
  | fault other oneLine =>
    exact .inr ⟨_, rfl, rfl, fun h => absurd rfl h, fun _ => oneLine,
      fun h => absurd h.2 (LexicalError.message_ne other)⟩

/-- A text that follows some other text and trivia falls into exact cuts and trivia, and the tokens
of the cuts are those of its segments. -/
private theorem exists_cuts_tokensFrom (before gap cs : List Char) (hgap : IsTrivia gap) :
    ∃ (cuts : List Cut) (last : List Char), gap ++ cs = cuts.flatMap Cut.text ++ last ∧
      IsTrivia last ∧
      Lexer.tokensFrom (Position.start.after (before ++ gap)) (ofText cs) = cuts.map Cut.token ∧
      ∀ front cut back, cuts = front ++ cut :: back →
        cut.Exact (before ++ front.flatMap Cut.text) back last := by
  fun_induction ofText cs generalizing before gap with
  | case1 => exact ⟨[], gap, by simp, hgap, rfl, fun front _ _ h => by simp at h⟩
  | case2 c cs ih =>
    have hchars := chars_ofLeading_append c cs
    rw [Lexer.tokensFrom, ← Position.after_append]
    obtain ⟨hnone, htrivia⟩ | ⟨token, hsome, hpos, hdisplay, honeLine, htoEnd⟩ :=
      token?_ofLeading c cs (Position.start.after (before ++ gap))
    · -- trivia lengthens the gap
      obtain ⟨cuts, last, htext, hlast, htokens, hexact⟩ := ih before _ (hgap.append htrivia)
      refine ⟨cuts, last, ?_, hlast, ?_, hexact⟩
      · rw [← htext, List.append_assoc, hchars]
      · rw [hnone, List.append_assoc, htokens]
        rfl
    · -- a token ends it
      obtain ⟨cuts, last, htext, hlast, htokens, hexact⟩ :=
        ih (before ++ gap ++ (ofLeading c cs).chars) [] .nil
      rw [List.nil_append] at htext
      rw [List.append_nil] at htokens
      refine ⟨⟨gap, (ofLeading c cs).chars, token⟩ :: cuts, last, ?_, hlast, ?_, ?_⟩
      · rw [List.flatMap_cons, Cut.text, List.append_assoc, ← htext, List.append_assoc, hchars]
      · rw [hsome, htokens]
        rfl
      · have hplace := hpos.trans (Position.after_start _)
        refine Cut.exact_cons ⟨hgap, List.cons_ne_nil _ _, kind_ne_eof_of_token? hsome,
          congrArg Position.line hplace, congrArg Position.column hplace, hdisplay, honeLine,
          fun hopen => Cut.eq_nil_of_text ?_ fun cut hcut => ?_⟩ ?_
        · rw [← htext, htoEnd hopen, List.drop_length]
        · obtain ⟨front, back, hcuts⟩ := List.append_of_mem hcut
          exact (hexact front cut back hcuts).nonempty
        · rw [Cut.text, ← List.append_assoc]
          exact hexact

end Segment

/-- Every text falls into one exact cut for each token but the last, and trivia. The last token is
the only one for the end of the input. -/
theorem exists_cuts_scan (text : String) :
    ∃ (cuts : List Cut) (last : List Char) (eof : Token),
      text.toList = cuts.flatMap Cut.text ++ last ∧ IsTrivia last ∧
      scan text = cuts.map Cut.token ++ [eof] ∧ eof.kind = .eof ∧
      ∀ front cut back, cuts = front ++ cut :: back →
        cut.Exact (front.flatMap Cut.text) back last := by
  obtain ⟨cuts, last, htext, hlast, htokens, hexact⟩ :=
    Segment.exists_cuts_tokensFrom [] [] text.toList .nil
  refine ⟨cuts, last, (Lexer.ofText text).feed.eof, htext, hlast, ?_, rfl, hexact⟩
  exact congrArg (· ++ [_]) htokens

end MiniPascal
