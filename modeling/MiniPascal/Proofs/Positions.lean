import MiniPascal.Parse.Parser
import MiniPascal.Print.Tree
import MiniPascal.Proofs.Natural
import MiniPascal.Proofs.Printing.Grouping

/-!
# Positions do not matter

No rule of the parser looks at the positions of tokens, and no part of a tree is printed with them.
So tokens that differ in their positions only are read as the same program
(`Parse.program_of_same_tokens`), and such programs are printed alike (`Program.print_eq_of_same`).
If one list of tokens is rejected, so is the other one, for the same cause
(`Parse.program_error_of_same_tokens`), and a message does not quote a position. So parsers fail
with the same message over them (`Parser.sameButPlaces_parse`).
-/

namespace MiniPascal

/-! ### Parsing -/

/-- The change that takes the positions away. Kinds do not depend on positions, so it is a
relabelling. -/
def Change.unplacing : Change :=
  .relabelling Token.unplaced fun _ => rfl

namespace Parse

variable {ts us : List Token} {n n' : ExprId} {p : Program}

theorem program_map_unplaced (h : program ⟨ts, n⟩ = .ok p ⟨us, n'⟩) :
    program ⟨ts.map Token.unplaced, n⟩ = .ok p.unplaced ⟨us.map Token.unplaced, n'⟩ :=
  Natural.program_eq_ok .unplacing rfl rfl h

theorem program_map_unplaced_of_error {cause : Cause}
    (h : program ⟨ts, n⟩ = .error cause ⟨us, n'⟩) :
    program ⟨ts.map Token.unplaced, n⟩ = .error cause ⟨us.map Token.unplaced, n'⟩ :=
  Natural.program_eq_error .unplacing rfl rfl h

/-- From tokens that differ in their positions only, the same program is read. -/
theorem program_of_same_tokens {c : Cursor} (h : program ⟨ts, n⟩ = .ok p c)
    (hsame : us.map Token.unplaced = ts.map Token.unplaced) :
    ∃ q d, program ⟨us, n⟩ = .ok q d ∧ q.same p = true := by
  have hp := program_map_unplaced h
  rw [← hsame] at hp
  -- both runs do without positions what a third one does, so the second one cannot fail
  cases hrun : program ⟨us, n⟩ with
  | ok q d =>
    have hq := program_map_unplaced hrun
    rw [hp] at hq
    injection hq with hprogram
    exact ⟨q, d, rfl, (Program.same_iff q p).2 hprogram.symm⟩
  | error cause d =>
    have hq := program_map_unplaced_of_error hrun
    rw [hp] at hq
    cases hq

/-- If tokens are rejected, those that differ in their positions only are rejected for the same cause
and at the same place. -/
theorem program_error_of_same_tokens {cause : Cause} {c : Cursor}
    (h : program ⟨ts, n⟩ = .error cause c)
    (hsame : us.map Token.unplaced = ts.map Token.unplaced) :
    ∃ d, program ⟨us, n⟩ = .error cause d ∧
      d.rest.map Token.unplaced = c.rest.map Token.unplaced := by
  have hp := program_map_unplaced_of_error h
  rw [← hsame] at hp
  cases hrun : program ⟨us, n⟩ with
  | ok q d =>
    have hq := program_map_unplaced hrun
    rw [hp] at hq
    cases hq
  | error cause' d =>
    have hq := program_map_unplaced_of_error hrun
    rw [hp] at hq
    injection hq with hcause hcursor
    exact ⟨d, hcause ▸ rfl, (congrArg Cursor.rest hcursor).symm⟩

end Parse

/-- Whether two results of parsing are the same but for positions: programs that are the same, or
failures with the same message. -/
inductive SameButPlaces : Except Diagnostic Program → Except Diagnostic Program → Prop where
  | ok {p q : Program} (same : q.same p = true) : SameButPlaces (.ok p) (.ok q)
  | error {d e : Diagnostic} (message : e.message = d.message) : SameButPlaces (.error d) (.error e)

/-- A message does not say where the token stands. -/
theorem Cause.message_unplaced (cause : Cause) (found : Token) :
    cause.message found.unplaced = cause.message found :=
  rfl

/-- Parsers that see tokens which differ in their positions only give the same results but for
positions. -/
theorem Parser.sameButPlaces_parse {p q : Parser} (hid : q.nextId = p.nextId)
    (htokens : q.feed.tokens.map Token.unplaced = p.feed.tokens.map Token.unplaced)
    (heof : q.feed.eof.unplaced = p.feed.eof.unplaced) : SameButPlaces p.parse.1 q.parse.1 := by
  have hhead : ∀ {us ts : List Token}, us.map Token.unplaced = ts.map Token.unplaced →
      (us.headD q.feed.eof).unplaced = (ts.headD p.feed.eof).unplaced := by
    intro us ts h
    rw [← List.headD_map (f := Token.unplaced), h, heof, List.headD_map]
  rw [parse, parse, hid]
  cases hrun : Parse.program ⟨p.feed.tokens, p.nextId⟩ with
  | ok program c =>
    obtain ⟨program', d, hrun', hsame⟩ := Parse.program_of_same_tokens hrun htokens
    rw [hrun']
    exact .ok hsame
  | error cause c =>
    obtain ⟨d, hrun', hrest⟩ := Parse.program_error_of_same_tokens hrun htokens
    rw [hrun']
    refine .error ?_
    change cause.message (d.rest.headD q.feed.eof) = cause.message (c.rest.headD p.feed.eof)
    rw [← Cause.message_unplaced, hhead hrest, Cause.message_unplaced]

/-! ### Printing -/

namespace Expr

theorem isUnary_map (f : Token → Token) (g : ExprId → ExprId) (e : Expr) :
    (e.map f g).isUnary = e.isUnary := by
  cases e <;> rfl

mutual

theorem print_unplaced (g : ExprId → ExprId) (e : Expr) :
    (e.map Token.unplaced g).print = e.print := by
  cases e with
  | literal | name => rfl
  | unary id op operand =>
    rw [map, print, print, isUnary_map, print_unplaced]
    rfl
  | binary id left op right =>
    rw [map, print, print, print_unplaced, print_unplaced]
    rfl
  | call id callee args =>
    rw [map, print, print, printList_unplaced]
    rfl

theorem printList_unplaced (g : ExprId → ExprId) (es : List Expr) :
    printList (mapList Token.unplaced g es) = printList es := by
  cases es with
  | nil => rfl
  | cons e es => rw [mapList, printList, printList, print_unplaced, printList_unplaced]

end

end Expr

namespace Stmt

mutual

theorem print_unplaced (g : ExprId → ExprId) (s : Stmt) (level : Nat) :
    (s.map Token.unplaced g).print level = s.print level := by
  cases s with
  | read => rfl
  | write => rw [map, print, print, Expr.printList_unplaced]
  | call =>
    rw [map, print, print, Expr.printList_unplaced]
    rfl
  | assign =>
    rw [map, print, print, Expr.print_unplaced]
    rfl
  | ifThen | whileDo | repeatUntil =>
    rw [map, print, print, Expr.print_unplaced, printList_unplaced]
  | ifElse =>
    rw [map, print, print, Expr.print_unplaced, printList_unplaced, printList_unplaced]
  | forLoop =>
    rw [map, print, print, Expr.print_unplaced, Expr.print_unplaced, printList_unplaced]
    rfl
  | compound => rw [map, print, print, printList_unplaced]

theorem printList_unplaced (g : ExprId → ExprId) (ss : List Stmt) (level : Nat) :
    printList (mapList Token.unplaced g ss) level = printList ss level := by
  cases ss with
  | nil => rfl
  | cons s ss => rw [mapList, printList, printList, print_unplaced, printList_unplaced]

end

end Stmt

namespace VarDecl

theorem printParams_unplaced (params : List VarDecl) :
    printParams (params.map (map Token.unplaced)) = printParams params := by
  rw [printParams, printParams, List.map_map]
  rfl

theorem printSection_unplaced (vars : List VarDecl) (level : Nat) :
    printSection (vars.map (map Token.unplaced)) level = printSection vars level := by
  have hgroup : ∀ t, printGroup (vars.map (map Token.unplaced)) (level + 1) t =
      printGroup vars (level + 1) t := by
    intro t
    rw [printGroup, printGroup, ofType_map, List.map_map]
    rfl
  rw [printSection, printSection, List.isEmpty_map, types_map,
    List.map_congr_left fun t _ => hgroup t]

end VarDecl

mutual

theorem Block.print_unplaced (g : ExprId → ExprId) (b : Block) (level : Nat) :
    (b.map Token.unplaced g).print level = b.print level := by
  obtain ⟨vars, routines, body⟩ := b
  rw [Block.map, Block.print, Block.print, VarDecl.printSection_unplaced,
    Routine.printList_unplaced, Stmt.printList_unplaced]

theorem Routine.print_unplaced (g : ExprId → ExprId) (r : Routine) (level : Nat) :
    (r.map Token.unplaced g).print level = r.print level := by
  obtain ⟨name, params, result, block⟩ := r
  simp only [Routine.map, Routine.print, VarDecl.printParams_unplaced, Block.print_unplaced]
  rfl

theorem Routine.printList_unplaced (g : ExprId → ExprId) (rs : List Routine) (level : Nat) :
    Routine.printList (Routine.mapList Token.unplaced g rs) level =
      Routine.printList rs level := by
  cases rs with
  | nil => rfl
  | cons r rs =>
    rw [Routine.mapList, Routine.printList, Routine.printList, Routine.print_unplaced,
      Routine.printList_unplaced]

end

/-- Programs that differ in positions only are printed alike. -/
theorem Program.print_eq_of_same {p q : Program} (h : p.same q = true) (level : Nat) :
    p.print level = q.print level := by
  have hunplaced : ∀ p : Program, p.unplaced.print level = p.print level := by
    intro p
    rw [Program.print, Program.print, Program.unplaced, Program.map, Block.print_unplaced]
    rfl
  -- without their positions the two programs are one
  rw [← hunplaced p, (Program.same_iff p q).1 h, hunplaced q]

end MiniPascal
