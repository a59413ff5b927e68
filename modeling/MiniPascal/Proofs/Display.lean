import MiniPascal.Proofs.Lexing.Writing

/-!
# Displayed tokens are scanned again

Any tokens of texts, taken from wherever they stand and put into any order, can be written down again:
a scanner finds exactly these tokens in their displays, if there is a blank between each two of them
(`scan_intercalate_display`). For a token is displayed as the lexeme that it was made from, with the
quotes of a literal put back, and tokens of every kind end before a blank.
-/

namespace MiniPascal

/-- The tokens of a text are errors or made from lexemes, but for the one for the end. -/
theorem Token.isLexeme_of_mem_scan {t : Token} {text : String} (h : t ∈ scan text)
    (herror : t.kind ≠ .error) (heof : t.kind ≠ .eof) : t.IsLexeme := by
  have hmem : t.unplaced ∈ (scan text).map Token.unplaced := List.mem_map_of_mem h
  rw [map_unplaced_scan, List.mem_append, List.mem_singleton] at hmem
  obtain hmem | hmem := hmem
  · have hlexeme : t.unplaced.IsLexeme := isLexeme_of_mem_scanned hmem herror
    exact hlexeme
  · exact absurd (congrArg Token.kind hmem) heof

/-- The displays of tokens that are made from lexemes write these tokens, if there is a blank between
each two of them. -/
theorem Writes.displays {ts : List Token} (h : ∀ t ∈ ts, t.IsLexeme) :
    Writes separates (" ".intercalate (ts.map Token.display)) ts := by
  induction ts with
  | nil => exact .of_free .nil
  | cons t ts ih =>
    obtain ⟨ht, hts⟩ := List.forall_mem_cons.1 h
    have hends : ∀ c, separates c → t.kind.endsBefore c = true :=
      fun _ => t.kind.endsBefore_of_separates
    cases ts with
    | nil =>
      rw [List.map_singleton, String.intercalate_singleton]
      exact (Writes.token ht).imp hends
    | cons u us =>
      rw [List.map_cons, List.map_cons, String.intercalate_cons_cons]
      exact ((Writes.token ht).before_blank (hends ' ' (by decide))).append_of_free (ih hts)

/-- If tokens of any texts are displayed with a blank between each two of them, a scanner finds the
same tokens in this order, and then the end. -/
theorem scan_intercalate_display (ts : List Token)
    (h : ∀ t ∈ ts, t.kind ≠ .error ∧ t.kind ≠ .eof ∧ ∃ text, t ∈ scan text) :
    (scan (" ".intercalate (ts.map Token.display))).map Token.unplaced =
      ts.map Token.unplaced ++ [⟨.eof, "", .start⟩] := by
  have hlexemes : ∀ t ∈ ts, t.IsLexeme := by
    intro t ht
    obtain ⟨herror, heof, text, hmem⟩ := h t ht
    exact Token.isLexeme_of_mem_scan hmem herror heof
  rw [map_unplaced_scan, (Writes.displays hlexemes).scanned_eq]

/-- Blanks keep symbols apart, and quotes keep a quote and the blanks of a string. -/
theorem scan_intercalate_display_quotes :
    let ts : List Token := [⟨.mark .openParen, "(", ⟨1, 1⟩⟩, ⟨.operator .times, "*", ⟨1, 1⟩⟩,
      ⟨.mark .colon, ":", ⟨1, 1⟩⟩, ⟨.operator .equal, "=", ⟨1, 1⟩⟩,
      ⟨.literal .char, "'", ⟨1, 1⟩⟩, ⟨.literal .string, "a  'b ", ⟨1, 1⟩⟩]
    (∀ t ∈ ts, t.kind ≠ .error ∧ t.kind ≠ .eof ∧ ∃ text, t ∈ scan text) ∧
      (scan "( * : = '''' \"a  'b \"").map Token.unplaced =
        ts.map Token.unplaced ++ [⟨.eof, "", .start⟩] := by
  intro ts
  have hmem : ∀ t ∈ ts, t.kind ≠ .error ∧ t.kind ≠ .eof ∧ t ∈ scan t.display := by decide +kernel
  have h : ∀ t ∈ ts, t.kind ≠ .error ∧ t.kind ≠ .eof ∧ ∃ text, t ∈ scan text := by
    intro t ht
    obtain ⟨herror, heof, hscan⟩ := hmem t ht
    exact ⟨herror, heof, _, hscan⟩
  have htext : " ".intercalate (ts.map Token.display) = "( * : = '''' \"a  'b \"" := by
    decide +kernel
  exact ⟨h, htext ▸ scan_intercalate_display ts h⟩

end MiniPascal
