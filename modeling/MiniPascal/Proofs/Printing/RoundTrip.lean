import MiniPascal.Parse.Parser
import MiniPascal.Proofs.Listing
import MiniPascal.Proofs.Positions
import MiniPascal.Proofs.Printing.Printed
import MiniPascal.Proofs.Printing.Reread
import MiniPascal.Proofs.Reading.CompleteProgram
import MiniPascal.Proofs.Reading.Sound

/-!
# The round trip

A program that was read from a text is formed, its tokens are lexemes, and its expressions are
numbered. So a scanner finds in its printed text exactly the tokens that were written, and a parser
reads these as the program with its variables grouped by type.
-/

namespace MiniPascal

/-- The tokens of a program that a text holds are made from lexemes. -/
theorem isLexeme_of_mem_tokens {ts : List Token} {n : ExprId} {p : Program} {c : Cursor}
    (h : ReadsProgram ⟨ts, n⟩ p c) {text : String}
    (hts : ts.map Token.unplaced = scanned text.toList) : ∀ t ∈ p.tokens, t.IsLexeme := by
  intro t ht
  have hstored : t ∈ storedTokens ts := by
    rw [h.storedTokens_eq]
    exact List.mem_append_left _ ht
  obtain ⟨hmem, hkind⟩ := List.mem_filter.1 hstored
  have hscanned : t.unplaced ∈ scanned text.toList := hts ▸ List.mem_map_of_mem hmem
  have hne : t.unplaced.kind ≠ .error := by
    intro herror
    rw [show t.kind = .error from herror] at hkind
    cases hkind
  have hlexeme : t.unplaced.IsLexeme := Token.isLexeme_of_mem_scanned hscanned hne
  exact hlexeme

/-- A program that a text holds is held by its printed text too, with its variables grouped by type.
Printing that one gives the same text again, and it is the program itself exactly if the variables
of every block were grouped. -/
theorem exists_parseText_print {file text : String} {p : Program}
    (h : parseText file text = .ok p) :
    ∃ q, parseText file p.print = .ok q ∧ q.same p.regroup = true ∧ p.regroup.print = p.print ∧
      q.print = p.print ∧ (q.same p = true ↔ p.Grouped) := by
  obtain ⟨c, hrun⟩ := parseText_eq_ok_iff.1 h
  obtain ⟨hreads, -⟩ := Parse.readsProgram_of_program hrun
  have hformed := hreads.formed
  have hlexemes := isLexeme_of_mem_tokens hreads (map_unplaced_tokens_ofText file text)
  -- the written tokens are read as the program, grouped
  have hwritten := p.reads_written hformed 0
  rw [hreads.number_eq] at hwritten
  have hgrouped := Parse.program_of_reads hwritten rfl
  -- the printed text has these tokens, at other positions
  have htokens : (Lexer.ofText p.print file).feed.tokens.map Token.unplaced =
      p.written.map Token.unplaced :=
    (map_unplaced_tokens_ofText file p.print).trans (p.scanned_print hformed hlexemes 0)
  obtain ⟨q, d, hq, hsame⟩ := Parse.program_of_same_tokens hgrouped htokens
  have hprint : p.regroup.print = p.print := p.print_regroup 0
  refine ⟨q, parseText_eq_ok_iff.2 ⟨d, hq⟩, hsame, hprint, ?_, ?_⟩
  · rw [Program.print_eq_of_same hsame 0, hprint]
  · rw [← p.regroup_same_iff, Program.same_iff, Program.same_iff, (Program.same_iff _ _).1 hsame]

/-- Variables that are not grouped, an operand in parentheses, and a branch without `begin`. -/
theorem exists_parseText_print_branch :
    let text := "program p; var a: char; b: real; c: char; begin if not (-a = b) then c := a end."
    ∃ p, parseText "p.pas" text = .ok p ∧ ∃ q, parseText "p.pas" p.print = .ok q ∧
      q.same p.regroup = true ∧ p.regroup.print = p.print ∧ q.print = p.print ∧
      (q.same p = true ↔ p.Grouped) := by
  intro text
  have hrun : (parseText "p.pas" text).toOption.isSome = true := by decide +kernel
  rcases h : parseText "p.pas" text with _ | p
  · rw [h] at hrun
    cases hrun
  · exact ⟨p, rfl, exists_parseText_print h⟩

end MiniPascal
