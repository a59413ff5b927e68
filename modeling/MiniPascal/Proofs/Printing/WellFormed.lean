import MiniPascal.Proofs.Ids
import MiniPascal.Proofs.Positions
import MiniPascal.Proofs.Printing.Printed
import MiniPascal.Proofs.Printing.Reread
import MiniPascal.Proofs.Reading.CompleteProgram

/-!
# Printing is injective

A tree need not come from a text to be printed. It is **well formed** if it could: each of its
tokens is of a kind that can stand in its place and is made from a lexeme, and no loop that tests
last is empty. Which expression stands below which operator does not matter, and neither do ids.

The printed text of a well-formed program is read back as the program itself, save that variables
are grouped by type and ids are the post-order numbers. So two well-formed programs are printed
alike exactly if they are equal but for ids, positions and the grouping of variables
(`parseText_print_of_wellFormed`).
-/

namespace MiniPascal

/-- Whether a program is well formed: it is formed, and its tokens are made from lexemes. Ids and
positions may be any, so it need not have been parsed. -/
def Program.WellFormed (program : Program) : Prop :=
  program.Formed ∧ ∀ t ∈ program.tokens, t.IsLexeme

/-- A program without the positions of its tokens and without ids, which are all made zero. It is
what printing a program depends on. -/
def Program.unnumbered (program : Program) : Program :=
  program.map Token.unplaced fun _ => 0

/-! ### Changing ids -/

section Number

variable (f : Token → Token)

mutual

/-- Numbering changes nothing but ids. -/
theorem Expr.map_number (e : Expr) (n : ExprId) :
    (e.number n).1.map f (fun _ => 0) = e.map f fun _ => 0 := by
  cases e <;> simp [Expr.number, Expr.map, Expr.map_number, Expr.mapList_numberList]

/-- Numbering changes nothing but ids. -/
theorem Expr.mapList_numberList (es : List Expr) (n : ExprId) :
    Expr.mapList f (fun _ => 0) (Expr.numberList es n).1 = Expr.mapList f (fun _ => 0) es := by
  cases es <;> simp [Expr.numberList, Expr.mapList, Expr.map_number, Expr.mapList_numberList]

end

mutual

/-- Numbering changes nothing but ids. -/
theorem Stmt.map_number (s : Stmt) (n : ExprId) :
    (s.number n).1.map f (fun _ => 0) = s.map f fun _ => 0 := by
  cases s <;>
    simp [Stmt.number, Stmt.map, Expr.map_number, Expr.mapList_numberList, Stmt.mapList_numberList]

/-- Numbering changes nothing but ids. -/
theorem Stmt.mapList_numberList (ss : List Stmt) (n : ExprId) :
    Stmt.mapList f (fun _ => 0) (Stmt.numberList ss n).1 = Stmt.mapList f (fun _ => 0) ss := by
  cases ss <;> simp [Stmt.numberList, Stmt.mapList, Stmt.map_number, Stmt.mapList_numberList]

end

mutual

/-- Numbering changes nothing but ids. -/
theorem Block.map_number (b : Block) (n : ExprId) :
    (b.number n).1.map f (fun _ => 0) = b.map f fun _ => 0 := by
  cases b
  simp [Block.number, Block.map, Stmt.mapList_numberList, Routine.mapList_numberList]

/-- Numbering changes nothing but ids. -/
theorem Routine.map_number (r : Routine) (n : ExprId) :
    (r.number n).1.map f (fun _ => 0) = r.map f fun _ => 0 := by
  cases r
  simp [Routine.number, Routine.map, Block.map_number]

/-- Numbering changes nothing but ids. -/
theorem Routine.mapList_numberList (rs : List Routine) (n : ExprId) :
    Routine.mapList f (fun _ => 0) (Routine.numberList rs n).1 =
      Routine.mapList f (fun _ => 0) rs := by
  cases rs <;>
    simp [Routine.numberList, Routine.mapList, Routine.map_number, Routine.mapList_numberList]

end

end Number

mutual

/-- Grouping variables changes no ids. -/
theorem Block.ids_regroup (b : Block) : b.regroup.ids = b.ids := by
  cases b
  rw [Block.regroup, Block.ids, Block.ids, Routine.idsList_regroupList]

/-- Grouping variables changes no ids. -/
theorem Routine.ids_regroup (r : Routine) : r.regroup.ids = r.ids := by
  cases r
  rw [Routine.regroup, Routine.ids, Routine.ids, Block.ids_regroup]

/-- Grouping variables changes no ids. -/
theorem Routine.idsList_regroupList (rs : List Routine) :
    Routine.idsList (Routine.regroupList rs) = Routine.idsList rs := by
  cases rs with
  | nil => rfl
  | cons r rs =>
    rw [Routine.regroupList, Routine.idsList, Routine.idsList, Routine.ids_regroup,
      Routine.idsList_regroupList]

end

namespace Program

variable {p q : Program}

/-- A numbered program is as it was but for ids. -/
theorem unnumbered_number (p : Program) (n : ExprId) :
    (p.number n).1.unnumbered = p.unnumbered := by
  simp only [unnumbered, Program.map, Program.number, Block.map_number]

/-- Variables can be grouped before or after ids are taken away. -/
theorem unnumbered_regroup (p : Program) : p.regroup.unnumbered = p.unnumbered.regroup := by
  simp only [unnumbered, Program.regroup, Program.map, Block.regroup_map]

/-- Programs that are the same are so without their ids. -/
theorem unnumbered_eq_of_same (h : p.same q = true) : p.unnumbered = q.unnumbered := by
  have hmap : ∀ p : Program, p.unnumbered = p.unplaced.map id fun _ => 0 :=
    fun p => (Program.map_map Token.unplaced (fun id => id) id (fun _ => 0) p).symm
  rw [hmap p, hmap q, (Program.same_iff p q).1 h]

/-- Programs that are the same have the same ids. -/
theorem ids_eq_of_same (h : p.same q = true) : p.ids = q.ids := by
  have hids : ∀ p : Program, p.ids = p.unplaced.ids := by
    intro p
    rw [Program.unplaced, Program.ids_map, List.map_id']
  rw [hids p, hids q, (Program.same_iff p q).1 h]

/-- Programs that are equal but for positions and ids have as many ids. -/
theorem length_ids_of_unnumbered_eq (h : p.unnumbered = q.unnumbered) :
    p.ids.length = q.ids.length := by
  have hlength : ∀ p : Program, p.ids.length = p.unnumbered.ids.length := by
    intro p
    rw [unnumbered, Program.ids_map, List.length_map]
  rw [hlength p, hlength q, h]

/-- Neither positions nor ids are printed. -/
theorem print_unnumbered (p : Program) : p.unnumbered.print = p.print := by
  rw [Program.print, Program.print, unnumbered, Program.map, Block.print_unplaced]
  rfl

/-- Programs that are equal but for positions, ids and the grouping of variables are printed
alike. -/
theorem print_eq_of_unnumbered_eq (h : p.regroup.unnumbered = q.regroup.unnumbered) :
    p.print = q.print := by
  have hprint : ∀ p : Program, p.regroup.unnumbered.print = p.print :=
    fun p => (print_unnumbered _).trans (p.print_regroup 0)
  rw [← hprint p, ← hprint q, h]

end Program

/-! ### Reading what is printed -/

/-- The printed text of a well-formed program is read as the program with consecutive ids and with
its variables grouped. -/
theorem exists_parseText_same_number {p : Program} (h : p.WellFormed) (file : String) :
    ∃ q, parseText file p.print = .ok q ∧ q.same (p.number 0).1.regroup = true := by
  obtain ⟨hformed, hlexemes⟩ := h
  have hread := Parse.program_of_reads (p.reads_written hformed 0) rfl
  have htokens : (Lexer.ofText p.print file).feed.tokens.map Token.unplaced =
      p.written.map Token.unplaced :=
    (map_unplaced_tokens_ofText file p.print).trans (p.scanned_print hformed hlexemes 0)
  obtain ⟨q, c, hq, hsame⟩ := Parse.program_of_same_tokens hread htokens
  exact ⟨q, parseText_eq_ok_iff.2 ⟨c, hq⟩, hsame⟩

/-- The printed text of a well-formed program that has fewer expressions than there are ids is read
back: as the program with its variables grouped by type, but for positions and ids, and with the
post-order numbers as ids. And two well-formed programs are printed alike exactly if, but for
positions and ids, they are equal once their variables are grouped. -/
theorem parseText_print_of_wellFormed {p : Program} (h : p.WellFormed)
    (hcount : (Node.program p).exprs.length < 2 ^ 32) :
    (∀ file, ∃ q, parseText file p.print = .ok q ∧ q.unnumbered = p.regroup.unnumbered ∧
      q.ids.map UInt32.toNat = List.range (Node.program p).exprs.length) ∧
    ∀ p' : Program, p'.WellFormed →
      (p'.print = p.print ↔ p'.regroup.unnumbered = p.regroup.unnumbered) := by
  have hunnumbered : ∀ {p q : Program}, q.same (p.number 0).1.regroup = true →
      q.unnumbered = p.regroup.unnumbered := by
    intro p q hsame
    rw [Program.unnumbered_eq_of_same hsame, Program.unnumbered_regroup,
      Program.unnumbered_number, Program.unnumbered_regroup]
  refine ⟨fun file => ?_, fun p' h' => ⟨fun hprint => ?_, Program.print_eq_of_unnumbered_eq⟩⟩
  · obtain ⟨q, hq, hsame⟩ := exists_parseText_same_number h file
    refine ⟨q, hq, hunnumbered hsame, ?_⟩
    -- the ids are those of the numbered program, of which there are as many as expressions
    have hids : q.ids = (p.number 0).1.ids :=
      (Program.ids_eq_of_same hsame).trans (Block.ids_regroup _)
    have hlength : (p.number 0).1.ids.length = (Node.program p).exprs.length := by
      have hperm := (Node.program p).perm_ids.length_eq
      rw [List.length_map] at hperm
      exact (Program.length_ids_of_unnumbered_eq (p.unnumbered_number 0)).trans hperm.symm
    rw [hids, (p.countsUp_number 0).map_toNat (by rw [hlength, UInt32.toNat_zero]; omega), hlength,
      UInt32.toNat_zero, List.range_eq_range']
  · obtain ⟨q, hq, hsame⟩ := exists_parseText_same_number h ""
    obtain ⟨q', hq', hsame'⟩ := exists_parseText_same_number h' ""
    -- both are what is read from the one text
    rw [hprint, hq] at hq'
    cases hq'
    rw [← hunnumbered hsame, ← hunnumbered hsame']

/-- Signs over a negation of a negated comparison, an argument that is compared, a branch without
statements and ids that are all the same. -/
theorem parseText_print_of_wellFormed_nested :
    let token (kind : Kind) (text : String) : Token := ⟨kind, text, .start⟩
    let name (text : String) : Expr := .name 7 (token .ident text)
    let no (e : Expr) : Expr := .unary 7 (token (.operator .not) "NOT") e
    let compared : Expr := .binary 7 (name "a") (token (.operator .notEqual) "<>")
      (.literal 7 (token (.literal .char) "'"))
    let value : Expr := .unary 7 (token (.operator .minus) "-") (no (no compared))
    let p : Program := ⟨token .ident "p", ⟨[], [], [.ifElse (.call 7 (token .ident "f") [value]) []
      [.compound [.repeatUntil [.read (token .ident "a")] compared]]]⟩⟩
    p.WellFormed ∧ (Node.program p).exprs.length < 2 ^ 32 ∧
      ∃ q, parseText "p.pas" p.print = .ok q ∧ q.unnumbered = p.regroup.unnumbered ∧
        q.ids.map UInt32.toNat = List.range (Node.program p).exprs.length := by
  intro token name no compared value p
  have hcompared : compared.Formed := ⟨⟨.equality, .notEqual, by decide, rfl⟩, rfl, .char, rfl⟩
  have hvalue : value.Formed :=
    ⟨.inr (.inl rfl), .inr (.inr rfl), .inr (.inr rfl), hcompared⟩
  have hloop : (Stmt.repeatUntil [.read (token .ident "a")] compared).Formed :=
    ⟨nofun, ⟨rfl, trivial⟩, hcompared⟩
  have hformed : p.Formed :=
    ⟨rfl, List.forall_mem_nil _, trivial,
      ⟨⟨rfl, hvalue, trivial⟩, trivial, ⟨hloop, trivial⟩, trivial⟩, trivial⟩
  -- its tokens are among those of a text
  have htokens : ∀ t ∈ p.tokens, t ∈ scanned "p f - NOT a <> ''''".toList := by decide +kernel
  have hlexemes : ∀ t ∈ p.tokens, t.IsLexeme := fun t ht =>
    Token.isLexeme_of_mem_scanned (htokens t ht) (by revert t; decide)
  have hcount : (Node.program p).exprs.length < 2 ^ 32 := by decide +kernel
  obtain ⟨hread, -⟩ := parseText_print_of_wellFormed ⟨hformed, hlexemes⟩ hcount
  exact ⟨⟨hformed, hlexemes⟩, hcount, hread "p.pas"⟩

end MiniPascal
