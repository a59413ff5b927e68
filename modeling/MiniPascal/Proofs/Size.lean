import MiniPascal.Parse.Parser
import MiniPascal.Proofs.Reading.Sound

/-!
# Trees are smaller than their sources

A tree has nodes that no token stands for: the declarations of a block, its body, a parameter list,
and the body of a branch or a loop that is a single statement. But each of these goes with tokens
that no node stands for. A phrase takes at least `leastTokens` tokens, which is the number of its
nodes where that is enough, and more where the nodes around it need some of its tokens: parentheses
for a parameter list, `begin` and `end` for the body of a block.
-/

namespace MiniPascal

/-! ### Phrases -/

/-- The fewest tokens that a part of an expression takes: one for each node, and the parentheses
around arguments. Those of expressions and commas come on top. -/
def ExprPhrase.leastTokens : ExprPhrase → Nat
  | .expr _ e => e.size
  | .items es => Expr.sizeList es
  | .args es => Expr.sizeList es + 2

/-- The fewest tokens that statements take: one for each node, and `begin` and `end` where they must
be. -/
def StmtPhrase.leastTokens : StmtPhrase → Nat
  | .stmt _ s => s.size
  | .body _ ss | .items ss => Stmt.sizeList ss
  | .block ss => Stmt.sizeList ss + 2

/-- The fewest tokens that a part of a block takes. It is stated part by part, so that it adds up
along a reading. -/
def BlockPhrase.leastTokens : BlockPhrase → Nat
  | .names ts => ts.length
  | .group ds | .groups ds | .lines ds | .vars ds => ds.length
  | .params ds => ds.length + 2
  | .routine r => r.size
  | .routines rs => Routine.sizeList rs
  | .block ⟨ds, rs, ss⟩ => ds.length + Routine.sizeList rs + (Stmt.sizeList ss + 2)

/-- A part of an expression takes a token for each of its nodes. -/
theorem ReadsExpr.leastTokens_le {c c' : Cursor} {p : ExprPhrase} (h : ReadsExpr c p c') :
    p.leastTokens + c'.rest.length ≤ c.rest.length := by
  induction h <;>
    simp only [ExprPhrase.leastTokens, Expr.size, Expr.sizeList, List.length_cons] at * <;> omega

/-- Statements take a token for each of their nodes. The compound statement that stands for the body
of a branch or a loop goes with the word before the body. -/
theorem ReadsStmt.leastTokens_le {c c' : Cursor} {p : StmtPhrase} (h : ReadsStmt c p c') :
    p.leastTokens + c'.rest.length ≤ c.rest.length := by
  induction h with
  | write _ args | call _ args =>
    have hargs := args.leastTokens_le
    simp only [StmtPhrase.leastTokens, ExprPhrase.leastTokens, Stmt.size, List.length_cons] at *
    omega
  | read | bareCall =>
    simp only [StmtPhrase.leastTokens, Stmt.size, Expr.sizeList, List.length_cons]
    omega
  | assign _ _ value =>
    have hvalue := value.leastTokens_le
    simp only [StmtPhrase.leastTokens, ExprPhrase.leastTokens, Stmt.size, List.length_cons] at *
    omega
  | ifThen _ condition _ _ ih | whileDo _ condition _ _ ih =>
    have hcondition := condition.leastTokens_le
    simp only [StmtPhrase.leastTokens, ExprPhrase.leastTokens, Stmt.size, List.length_cons] at *
    omega
  | ifElse _ condition _ _ _ _ ih ih' =>
    have hcondition := condition.leastTokens_le
    simp only [StmtPhrase.leastTokens, ExprPhrase.leastTokens, Stmt.size, List.length_cons] at *
    omega
  | repeatUntil _ _ _ _ condition ih =>
    have hcondition := condition.leastTokens_le
    simp only [StmtPhrase.leastTokens, ExprPhrase.leastTokens, Stmt.size, List.length_cons] at *
    omega
  | forLoop _ _ _ first _ last _ _ ih =>
    have hfirst := first.leastTokens_le
    have hlast := last.leastTokens_le
    simp only [StmtPhrase.leastTokens, ExprPhrase.leastTokens, Stmt.size, List.length_cons] at *
    omega
  | compound _ ih | single _ _ ih | enclosed _ ih | block _ _ _ ih | last _ ih | cons _ _ _ ih ih' =>
    simp only [StmtPhrase.leastTokens, Stmt.size, Stmt.sizeList, List.length_cons] at *
    omega
  | nil => exact Nat.le_of_eq (Nat.zero_add _)

/-- A block or a part of its declarations takes as many tokens as it has nodes, but for one token
that the block of a routine or a program leaves to what is around it. -/
theorem ReadsBlock.leastTokens_le {c c' : Cursor} {p : BlockPhrase} (h : ReadsBlock c p c') :
    p.leastTokens + c'.rest.length ≤ c.rest.length := by
  induction h with
  | block _ _ body ih ih' =>
    have hbody := body.leastTokens_le
    simp only [BlockPhrase.leastTokens, StmtPhrase.leastTokens] at *
    omega
  | @procedure _ _ _ _ _ _ _ _ _ _ _ block _ _ _ _ _ _ ih ih'
  | @function _ _ _ _ _ _ _ _ _ _ _ _ _ _ block _ _ _ _ _ _ _ _ ih ih' =>
    obtain ⟨vars, routines, body⟩ := block
    simp only [BlockPhrase.leastTokens, Routine.size, Block.size, List.length_cons] at *
    omega
  | _ =>
    simp only [BlockPhrase.leastTokens, Routine.sizeList, List.length_cons, List.length_append,
      List.length_map, List.length_nil] at *
    omega

/-- A program takes at least two tokens more than it has nodes. -/
theorem ReadsProgram.size_le {c c' : Cursor} {p : Program} (h : ReadsProgram c p c') :
    p.size + 2 + c'.rest.length ≤ c.rest.length := by
  -- four tokens around the block: one for the program, one that the block lacks, and two more
  obtain @⟨_, _, _, _, _, _, _, _, ⟨vars, routines, body⟩, _, _, _, hblock, _⟩ := h
  have hblock := hblock.leastTokens_le
  simp only [BlockPhrase.leastTokens, Program.size, Block.size, List.length_cons] at *
  omega

/-- A program that was read has fewer nodes than its text has tokens, the end of the input counted:
there are at least three tokens more. There are no more than that in the smallest program. -/
theorem size_le_scan :
    (∀ (file text : String) (p : Program), parseText file text = .ok p →
      p.size + 3 ≤ (scan text).length) ∧
    ∃ p, parseText "p.pas" "program p; begin end." = .ok p ∧
      p.size + 3 = (scan "program p; begin end.").length := by
  refine ⟨fun file text p h => ?_, ?_⟩
  · obtain ⟨c, hrun⟩ := parseText_eq_ok_iff.1 h
    have hsize := (Parse.readsProgram_of_program hrun).1.size_le
    rw [scan, List.length_append, List.length_singleton]
    change p.size + 2 + c.rest.length ≤ (Lexer.ofText text).feed.tokens.length at hsize
    omega
  · have hrun : (parseText "p.pas" "program p; begin end.").toOption.any fun p =>
        p.size + 3 = (scan "program p; begin end.").length := by decide +kernel
    rcases h : parseText "p.pas" "program p; begin end." with _ | p
    · rw [h] at hrun
      cases hrun
    · rw [h] at hrun
      exact ⟨p, rfl, of_decide_eq_true hrun⟩

/-- A call without arguments that is a branch has a node for itself and one for the branch. -/
theorem size_le_scan_branch :
    let text := "program p; procedure q (); begin if a then f end; begin end."
    ∃ p, parseText "p.pas" text = .ok p ∧ p.size + 3 ≤ (scan text).length ∧
      (scan text).length = 19 := by
  intro text
  have hrun : (parseText "p.pas" text).toOption.isSome = true := by decide +kernel
  rcases h : parseText "p.pas" text with _ | p
  · rw [h] at hrun
    cases hrun
  · exact ⟨p, rfl, size_le_scan.1 "p.pas" text p h, by decide +kernel⟩

end MiniPascal
