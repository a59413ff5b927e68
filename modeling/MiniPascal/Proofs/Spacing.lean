import MiniPascal.Proofs.Lexing.Lookahead
import MiniPascal.Proofs.Lexing.Writing
import MiniPascal.Proofs.Positions

/-!
# White space and comments are insignificant

Trivia may be put at every edge of a token, that is directly before it or directly behind it, and at
the end of the text (`IsEdge`). Nothing but positions changes: the text is still cut at the edge,
since the segments before it settle (`Segment.ofText_append_of_starts`), the trivia has no tokens,
and what was behind the edge is cut as it was. So the tokens are the same ones
(`scanned_of_isEdge`), and a parser cannot tell them apart.

In a text with lexical errors this would be wrong. Behind a comment that is never closed, for
example, another comment would close it.
-/

namespace MiniPascal

open Segment

/-- Trivia has no tokens. -/
theorem scanned_of_isTrivia {cs : List Char} (h : IsTrivia cs) (rest : List Char) :
    scanned (cs ++ rest) = scanned rest := by
  induction h with
  | nil => rfl
  | blank blank _ ih => rw [List.cons_append, scanned_of_isWhiteSpace blank, ih]
  | @comment opening closing body cs marks first _ ih =>
    obtain ⟨c, opening, rfl⟩ : ∃ c more, opening = c :: more := by
      simp only [commentMarks, List.mem_cons, List.not_mem_nil, or_false, Prod.mk.injEq] at marks
      obtain ⟨rfl, -⟩ | ⟨rfl, -⟩ := marks <;> exact ⟨_, _, rfl⟩
    have hleading := leading_of_comment marks first (cs ++ rest)
    rw [List.append_assoc, List.cons_append, List.cons_append, scanned, ofText, ofLeading, hleading,
      List.drop_left]
    exact ih

/-- Whether the **edge** between two parts of a text is one of a token, or the end of the text.
White space and comments can be put there without harm (`same_of_isEdge`). -/
inductive IsEdge (text : List Char) : List Char → List Char → Prop where
  /-- Directly before the first character of a token. -/
  | before {t : Token} {before chars behind : List Char}
      (stands : t.StandsIn text before chars behind) : IsEdge text before (chars ++ behind)
  /-- Directly behind the last character of a token. -/
  | behind {t : Token} {before chars behind : List Char}
      (stands : t.StandsIn text before chars behind) : IsEdge text (before ++ chars) behind
  /-- At the very end. -/
  | atEnd : IsEdge text text []

/-- At an edge a text is cut. -/
theorem IsEdge.exists_cut {text u v : List Char} (h : IsEdge text u v) :
    ∃ front back, ofText text = front ++ back ∧ u = front.flatMap chars ∧ v = back.flatMap chars := by
  cases h with
  | before stands =>
    obtain ⟨front, segment, back, hcut, -, rfl, rfl, rfl⟩ := stands
    exact ⟨front, segment :: back, hcut, rfl, rfl⟩
  | behind stands =>
    obtain ⟨front, segment, back, hcut, -, rfl, rfl, rfl⟩ := stands
    refine ⟨front ++ [segment], back, ?_, ?_, rfl⟩
    · rw [hcut, List.append_assoc, List.singleton_append]
    · rw [List.flatMap_append, List.flatMap_singleton]
  | atEnd => exact ⟨ofText text, [], (List.append_nil _).symm, (flatMap_chars_ofText text).symm, rfl⟩

/-- The two parts at an edge make up the text. -/
theorem IsEdge.append_eq {text u v : List Char} (h : IsEdge text u v) : u ++ v = text := by
  obtain ⟨front, back, hcut, rfl, rfl⟩ := h.exists_cut
  rw [← List.flatMap_append, ← hcut, flatMap_chars_ofText]

/-- Trivia at an edge does not change the tokens of a text that has no lexical errors. -/
theorem scanned_of_isEdge {text u v w : List Char} (htext : ∀ t ∈ scanned text, t.kind ≠ .error)
    (hedge : IsEdge text u v) (hw : IsTrivia w) : scanned (u ++ w ++ v) = scanned text := by
  have hwhole := hedge.append_eq
  obtain ⟨front, back, hcut, rfl, rfl⟩ := hedge.exists_cut
  -- faults would be errors
  have hfront : ∀ segment ∈ front, ∀ e, segment.form ≠ .fault e := by
    intro segment hsegment e hform
    refine htext ⟨.error, e.message, .start⟩ (List.mem_filterMap.2 ⟨segment, ?_, ?_⟩) rfl
    · rw [hcut]
      exact List.mem_append_left back hsegment
    · rw [token?, hform]
  rw [List.append_assoc]
  cases w with
  | nil => rw [List.nil_append, hwhole]
  | cons c w =>
    have hstarts : Starts OpensTrivia (c :: w ++ back.flatMap chars) := hw.starts
    have hbehind : scanned (c :: w ++ back.flatMap chars) =
        back.filterMap fun segment => segment.token? .start := by
      rw [scanned_of_isTrivia hw, scanned, ofText_flatMap_of_append hcut]
    rw [scanned, ofText_append_of_starts hcut hfront hstarts, List.filterMap_append]
    change _ ++ scanned (c :: w ++ back.flatMap chars) = scanned text
    rw [hbehind, scanned, hcut, List.filterMap_append]

/-- White space and comments at the edges of tokens change nothing but positions, if a text has no
lexical errors: its tokens stay the same, and so does the result of parsing it. -/
theorem same_of_isEdge {text : String} {u v w : List Char} (file : String)
    (htext : ∀ t ∈ scan text, t.kind ≠ .error) (hedge : IsEdge text.toList u v) (hw : IsTrivia w) :
    (scan (String.ofList (u ++ w ++ v))).map Token.unplaced = (scan text).map Token.unplaced ∧
      SameButPlaces (parseText file text) (parseText file (String.ofList (u ++ w ++ v))) := by
  have hscanned : scanned (u ++ w ++ v) = scanned text.toList := by
    refine scanned_of_isEdge (fun t ht => ?_) hedge hw
    have hmem : t ∈ (scan text).map Token.unplaced := by
      rw [map_unplaced_scan]
      exact List.mem_append_left _ ht
    obtain ⟨t', ht', rfl⟩ := List.mem_map.1 hmem
    exact htext t' ht'
  constructor
  · rw [map_unplaced_scan, map_unplaced_scan, String.toList_ofList, hscanned]
  · refine Parser.sameButPlaces_parse rfl ?_ rfl
    change (Lexer.ofText _ file).feed.tokens.map _ = (Lexer.ofText _ file).feed.tokens.map _
    rw [map_unplaced_tokens_ofText, map_unplaced_tokens_ofText, String.toList_ofList, hscanned]

/-- A comment may stand between the last word of a program and its period. -/
theorem same_of_isEdge_period :
    let text := "program p; begin end."
    let before := "program p; begin ".toList
    (∀ t ∈ scan text, t.kind ≠ .error) ∧ IsEdge text.toList (before ++ "end".toList) ".".toList ∧
      IsTrivia "(* p *)".toList ∧
      SameButPlaces (parseText "p" text) (parseText "p" "program p; begin end(* p *).") := by
  intro text before
  have hscan : ∀ t ∈ scan text, t.kind ≠ .error := by decide +kernel
  have hstands : Token.StandsIn ⟨.keyword .end, "end", ⟨1, 18⟩⟩ text.toList before "end".toList
      ".".toList :=
    ⟨(ofText text.toList).take 7, ⟨.lexeme (.keyword .end) "end", 'e', ['n', 'd']⟩,
      [⟨.lexeme (.mark .period) ".", '.', []⟩], by decide +kernel, by decide +kernel,
      by decide +kernel, rfl, rfl⟩
  have hcomment : (['(', '*'], ['*', ')']) ∈ commentMarks := by decide
  have hfirst : ¬['*', ')'] <:+: (" p ".toList ++ ['*', ')']).dropLast := by decide
  have htrivia : IsTrivia "(* p *)".toList := .comment hcomment hfirst .nil
  exact ⟨hscan, .behind hstands, htrivia, (same_of_isEdge "p" hscan (.behind hstands) htrivia).2⟩

end MiniPascal
