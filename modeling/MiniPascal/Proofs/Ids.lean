import Mathlib.Algebra.Group.Nat.Defs
import Mathlib.Data.List.Nodup
import Mathlib.Data.List.Perm.Basic
import MiniPascal.Parse.Parser
import MiniPascal.Proofs.Printing.Numbering
import MiniPascal.Proofs.Reading.Sound
import MiniPascal.Syntax.Listing
import MiniPascal.Syntax.Node

/-!
# Ids are post-order numbers

The ids of a tree **count up** if each is one more than the one before it, in post-order. Those of a
numbered tree do (`Program.countsUp_number`), so those of a tree that a parser returns do. A fresh
parser begins at zero, and as long as ids do not wrap around, the listing of all ids is then a range
of numbers (`Parser.ids_eq_range_of_parse`). Nothing but the number of expressions matters for it.

The listing is tied to the nodes of the tree in two ways: every expression among the nodes has its
id in it once (`Node.perm_ids`), and the ids below an expression stand right before its own
(`Node.ids_isInfix_of_mem_exprs`).
-/

namespace MiniPascal

/-- Whether ids are consecutive from one id up to, and not including, another. After the last id of
all, they begin again. -/
def CountsUp : ExprId → List ExprId → ExprId → Prop
  | n, [], n' => n = n'
  | n, i :: is, n' => i = n ∧ CountsUp (n + 1) is n'

namespace CountsUp

variable {n n' n'' : ExprId} {is js : List ExprId}

theorem one (n : ExprId) : CountsUp n [n] (n + 1) :=
  ⟨rfl, rfl⟩

theorem append (h : CountsUp n is n') (h' : CountsUp n' js n'') : CountsUp n (is ++ js) n'' := by
  induction is generalizing n with
  | nil =>
    cases h
    exact h'
  | cons i is ih => exact ⟨h.1, ih h.2⟩

/-- Ids that count up are the first one with the numbers from zero on added to it. -/
theorem eq_map (h : CountsUp n is n') :
    is = (List.range is.length).map fun k => n + UInt32.ofNat k := by
  induction is generalizing n with
  | nil => rfl
  | cons i is ih =>
    obtain ⟨rfl, h⟩ := h
    have hsucc : ∀ k, i + 1 + UInt32.ofNat k = i + UInt32.ofNat (k + 1) := by
      intro k
      rw [UInt32.ofNat_add, UInt32.add_assoc, UInt32.add_comm 1]
      rfl
    rw [List.length_cons, List.range_succ_eq_map, List.map_cons, List.map_map]
    congr 1
    · exact (UInt32.add_zero i).symm
    · rw [ih h, List.length_map, List.length_range]
      exact List.map_congr_left fun k _ => hsucc k

/-- Ids that count up without reaching the greatest one are a range of numbers. -/
theorem map_toNat (h : CountsUp n is n') (hlength : n.toNat + is.length ≤ 2 ^ 32) :
    is.map UInt32.toNat = List.range' n.toNat is.length := by
  have hmap := congrArg (List.map UInt32.toNat) h.eq_map
  rw [hmap, List.map_map, List.range'_eq_map_range]
  refine List.map_congr_left fun k hk => ?_
  rw [List.mem_range] at hk
  change (n + UInt32.ofNat k).toNat = n.toNat + k
  rw [UInt32.toNat_add, UInt32.toNat_ofNat', Nat.mod_eq_of_lt (a := k) (by omega),
    Nat.mod_eq_of_lt (by omega)]

/-- Ids that count up are different, as long as there are not more of them than ids. -/
theorem nodup (h : CountsUp n is n') (hlength : is.length ≤ 2 ^ 32) : is.Nodup := by
  rw [h.eq_map]
  refine List.Nodup.map_on (fun j hj k hk heq => ?_) List.nodup_range
  rw [List.mem_range] at hj hk
  have hnat := congrArg UInt32.toNat ((UInt32.add_right_inj n).1 heq)
  rw [UInt32.toNat_ofNat', UInt32.toNat_ofNat'] at hnat
  rw [Nat.mod_eq_of_lt (by omega), Nat.mod_eq_of_lt (by omega)] at hnat
  exact hnat

end CountsUp

/-! ### Numbered trees -/

namespace Expr

mutual

/-- The ids of a numbered expression count up. -/
theorem countsUp_number (e : Expr) (n : ExprId) :
    CountsUp n (e.number n).1.ids (e.number n).2 := by
  cases e with
  | literal | name => exact .one n
  | unary _ _ operand => exact (countsUp_number operand n).append (.one _)
  | binary _ left _ right =>
    exact ((countsUp_number left n).append (countsUp_number right _)).append (.one _)
  | call _ _ args => exact (countsUp_numberList args n).append (.one _)

/-- The ids of a numbered list of expressions count up. -/
theorem countsUp_numberList (es : List Expr) (n : ExprId) :
    CountsUp n (idsList (numberList es n).1) (numberList es n).2 := by
  cases es with
  | nil => exact rfl
  | cons e es => exact (countsUp_number e n).append (countsUp_numberList es _)

end

end Expr

namespace Stmt

mutual

/-- The ids of a numbered statement count up. -/
theorem countsUp_number (s : Stmt) (n : ExprId) :
    CountsUp n (s.number n).1.ids (s.number n).2 := by
  cases s with
  | write _ args | call _ args => exact Expr.countsUp_numberList args n
  | read => exact rfl
  | assign _ value => exact value.countsUp_number n
  | ifThen condition body | whileDo condition body =>
    exact (condition.countsUp_number n).append (countsUp_numberList body _)
  | ifElse condition body otherwise =>
    exact ((condition.countsUp_number n).append (countsUp_numberList body _)).append
      (countsUp_numberList otherwise _)
  | repeatUntil body condition =>
    exact (countsUp_numberList body n).append (condition.countsUp_number _)
  | forLoop _ first _ last body =>
    exact ((first.countsUp_number n).append (last.countsUp_number _)).append
      (countsUp_numberList body _)
  | compound body => exact countsUp_numberList body n

/-- The ids of a numbered list of statements count up. -/
theorem countsUp_numberList (ss : List Stmt) (n : ExprId) :
    CountsUp n (idsList (numberList ss n).1) (numberList ss n).2 := by
  cases ss with
  | nil => exact rfl
  | cons s ss => exact (countsUp_number s n).append (countsUp_numberList ss _)

end

end Stmt

mutual

/-- The ids of a numbered block count up, those of its routines first. -/
theorem Block.countsUp_number (b : Block) (n : ExprId) :
    CountsUp n (b.number n).1.ids (b.number n).2 := by
  obtain ⟨_, routines, body⟩ := b
  exact (Routine.countsUp_numberList routines n).append (Stmt.countsUp_numberList body _)

/-- The ids of a numbered routine count up. -/
theorem Routine.countsUp_number (r : Routine) (n : ExprId) :
    CountsUp n (r.number n).1.ids (r.number n).2 := by
  obtain ⟨_, _, _, block⟩ := r
  exact Block.countsUp_number block n

/-- The ids of a numbered list of routines count up. -/
theorem Routine.countsUp_numberList (rs : List Routine) (n : ExprId) :
    CountsUp n (Routine.idsList (Routine.numberList rs n).1) (Routine.numberList rs n).2 := by
  cases rs with
  | nil => exact rfl
  | cons r rs => exact (Routine.countsUp_number r n).append (Routine.countsUp_numberList rs _)

end

/-- The ids of a numbered program count up. -/
theorem Program.countsUp_number (p : Program) (n : ExprId) :
    CountsUp n (p.number n).1.ids (p.number n).2 :=
  p.block.countsUp_number n

/-- The ids of a program that is read count up. -/
theorem ReadsProgram.countsUp {c c' : Cursor} {p : Program} (h : ReadsProgram c p c') :
    CountsUp c.nextId p.ids c'.nextId := by
  have hcounts := p.countsUp_number c.nextId
  rw [h.number_eq] at hcounts
  exact hcounts

/-! ### The expressions among the nodes -/

namespace Node

/-- The ids of a part, in post-order, for parts of every sort. Declared variables and parameters
have none. -/
def ids : Node → List ExprId
  | .program p => p.ids
  | .block b => b.ids
  | .declarations _ routines => Routine.idsList routines
  | .varDecl _ | .params _ => []
  | .routine r => r.ids
  | .stmt s => s.ids
  | .expr e => e.ids

/-- A node itself, if it is an expression: what a node adds to the expressions of the parts below
it. -/
def self : Node → List Expr
  | .expr e => [e]
  | _ => []

private theorem flatMap_ids_expr (es : List Expr) :
    (es.map expr).flatMap ids = Expr.idsList es := by
  induction es with
  | nil => rfl
  | cons e es ih => rw [List.map_cons, List.flatMap_cons, ih]; rfl

private theorem flatMap_ids_stmt (ss : List Stmt) :
    (ss.map stmt).flatMap ids = Stmt.idsList ss := by
  induction ss with
  | nil => rfl
  | cons s ss ih => rw [List.map_cons, List.flatMap_cons, ih]; rfl

private theorem flatMap_ids_varDecl (ds : List VarDecl) : (ds.map varDecl).flatMap ids = [] := by
  induction ds with
  | nil => rfl
  | cons d ds ih => rw [List.map_cons, List.flatMap_cons, ih]; rfl

private theorem flatMap_ids_routine (rs : List Routine) :
    (rs.map routine).flatMap ids = Routine.idsList rs := by
  induction rs with
  | nil => rfl
  | cons r rs ih => rw [List.map_cons, List.flatMap_cons, ih]; rfl

/-- The ids of the children come before that of the node. -/
theorem ids_eq (node : Node) : node.ids = node.children.flatMap ids ++ node.self.map Expr.id := by
  cases node with
  | program p => simp [children, self, ids, Program.ids]
  | block b =>
    cases b
    simp [children, self, ids, Block.ids, Stmt.ids]
  | declarations vars routines =>
    simp [children, self, ids, flatMap_ids_varDecl, flatMap_ids_routine]
  | varDecl => rfl
  | routine r =>
    cases r
    simp [children, self, ids, Routine.ids]
  | params ps => simp [children, self, ids, flatMap_ids_varDecl]
  | stmt s =>
    cases s <;> simp [children, self, ids, Stmt.ids, flatMap_ids_expr, flatMap_ids_stmt]
  | expr e => cases e <;> simp [children, self, ids, Expr.ids, Expr.id, flatMap_ids_expr]

/-- At whatever depth an outline begins, it has the same nodes. -/
private theorem map_snd_outline (node : Node) :
    ∀ depth, (node.outline depth).map Prod.snd = (node.outline 0).map Prod.snd := by
  induction node using induction with
  | step node ih =>
    intro depth
    have hchild : ∀ child ∈ node.children, (child.outline (depth + 1)).map Prod.snd =
        (child.outline 1).map Prod.snd :=
      fun child hmem => (ih child hmem (depth + 1)).trans (ih child hmem 1).symm
    rw [outline_eq, outline_eq 0, List.map_cons, List.map_cons, List.map_flatMap,
      List.map_flatMap, List.flatMap_congr hchild]

/-- The expressions are found one node after the other. -/
private theorem exprs_eq_flatMap (depth : Nat) (node : Node) :
    node.exprs = ((node.outline depth).map Prod.snd).flatMap self := by
  rw [map_snd_outline, exprs]
  induction node.outline 0 with
  | nil => rfl
  | cons entry entries ih =>
    rw [List.filterMap_cons, List.map_cons, List.flatMap_cons, ← ih]
    obtain ⟨_, node⟩ := entry
    cases node <;> rfl

/-- A node comes before what is below it. -/
theorem exprs_eq (node : Node) : node.exprs = node.self ++ node.children.flatMap exprs := by
  have hchild : ∀ child ∈ node.children,
      child.exprs = ((child.outline 1).map Prod.snd).flatMap self :=
    fun child _ => exprs_eq_flatMap 1 child
  rw [exprs_eq_flatMap 0, outline_eq, List.map_cons, List.flatMap_cons, List.map_flatMap,
    List.flatMap_assoc, List.flatMap_congr hchild]

/-- Every expression among the nodes has its id in the listing once. -/
theorem perm_ids (node : Node) : (node.exprs.map Expr.id).Perm node.ids := by
  induction node using induction with
  | step node ih =>
    rw [exprs_eq, ids_eq, List.map_append, List.map_flatMap]
    exact List.perm_append_comm.trans ((List.Perm.flatMap_left _ ih).append_right _)

/-- The ids of an expression among the nodes stand next to each other in the listing. -/
theorem ids_isInfix_of_mem_exprs {node : Node} {e : Expr} (h : e ∈ node.exprs) :
    e.ids <:+: node.ids := by
  induction node using induction with
  | step node ih =>
    rw [exprs_eq, List.mem_append, List.mem_flatMap] at h
    obtain hself | ⟨child, hchild, h⟩ := h
    · cases node <;> cases hself
      · exact List.infix_rfl
      · contradiction
    · have hinfix : child.ids <:+: node.ids := by
        obtain ⟨before, behind, hsplit⟩ := List.append_of_mem hchild
        refine ⟨before.flatMap ids, behind.flatMap ids ++ node.self.map Expr.id, ?_⟩
        rw [ids_eq node, hsplit, List.flatMap_append, List.flatMap_cons, List.append_assoc,
          List.append_assoc, List.append_assoc]
      exact (ih child hchild h).trans hinfix

end Node

/-! ### What a parser returns -/

/-- A program that a fresh parser returns has ids that count up from zero. -/
theorem Parser.countsUp_of_parse {source : TokenSource} {p : Program}
    (h : (ofSource source).parse.1 = .ok p) : ∃ n, CountsUp 0 p.ids n := by
  obtain ⟨c, hrun⟩ := parse_eq_ok_iff.1 h
  obtain ⟨hreads, -⟩ := Parse.readsProgram_of_program hrun
  exact ⟨c.nextId, hreads.countsUp⟩

/-- Ids that are a range of numbers grow along the listing. -/
private theorem pairwise_lt_of_map_toNat {is : List ExprId} {count : Nat}
    (h : is.map UInt32.toNat = List.range count) : is.Pairwise (· < ·) := by
  have hpairwise := List.pairwise_lt_range (n := count)
  rw [← h, List.pairwise_map] at hpairwise
  exact hpairwise.imp UInt32.lt_iff_toNat_lt.2

/-- The ids of the expressions of a program that a fresh parser returns, in post-order, are the
numbers from zero on, as long as there are not more expressions than ids. So no two expressions have
the same id, and an expression has a greater id than all below it. How many expressions there are is
all that matters: whatever parentheses, compound statements and variables stand in two texts, the
ids of as many expressions are the same. -/
theorem Parser.ids_eq_range_of_parse {source : TokenSource} {p : Program}
    (h : (ofSource source).parse.1 = .ok p)
    (hcount : (Node.program p).exprs.length < 2 ^ 32) :
    p.ids.map UInt32.toNat = List.range (Node.program p).exprs.length ∧
      ((Node.program p).exprs.map Expr.id).Perm p.ids ∧
      ((Node.program p).exprs.map Expr.id).Nodup ∧
      (∀ e ∈ (Node.program p).exprs, ∀ child ∈ (Node.expr e).children, ∀ d ∈ child.exprs,
        d.id < e.id) ∧
      ∀ source' p', (ofSource source').parse.1 = .ok p' →
        (Node.program p').exprs.length = (Node.program p).exprs.length → p'.ids = p.ids := by
  -- every program with as many expressions has the same listing
  have hrange : ∀ {source' : TokenSource} {p' : Program}, (ofSource source').parse.1 = .ok p' →
      (Node.program p').exprs.length = (Node.program p).exprs.length →
      p'.ids.map UInt32.toNat = List.range (Node.program p).exprs.length := by
    intro source' p' h' hlength
    obtain ⟨n, hcounts⟩ := countsUp_of_parse h'
    have hids : p'.ids.length = (Node.program p).exprs.length := by
      have hperm := (Node.program p').perm_ids.length_eq
      rw [List.length_map, hlength] at hperm
      exact hperm.symm
    rw [hcounts.map_toNat (by rw [hids, UInt32.toNat_zero]; omega), hids, UInt32.toNat_zero,
      List.range_eq_range']
  have hids := hrange h rfl
  have hperm : ((Node.program p).exprs.map Expr.id).Perm p.ids := (Node.program p).perm_ids
  have hpairwise := pairwise_lt_of_map_toNat hids
  refine ⟨hids, hperm, ?_, ?_, ?_⟩
  · exact hperm.nodup_iff.2 (hpairwise.imp UInt32.ne_of_lt)
  · intro e he child hchild d hd
    have hbelow : d.id ∈ (Node.expr e).children.flatMap Node.ids :=
      List.mem_flatMap.2 ⟨child, hchild, child.perm_ids.mem_iff.1 (List.mem_map_of_mem hd)⟩
    have hsorted := hpairwise.sublist (Node.ids_isInfix_of_mem_exprs he).sublist
    rw [show e.ids = _ from Node.ids_eq (.expr e)] at hsorted
    exact (List.pairwise_append.1 hsorted).2.2 _ hbelow _ List.mem_cons_self
  · intro source' p' h' hlength
    have hmap := (hrange h' hlength).trans hids.symm
    exact List.map_injective_iff.2 (fun _ _ => UInt32.toNat_inj.1) hmap

/-- Expressions in parentheses, in a routine, and in and behind the body of a loop. -/
theorem Parser.ids_eq_range_of_parse_loops :
    let source := TokenSource.lexer (Lexer.ofText
      "program p; procedure q (); begin write ((1)) end; begin repeat b := -2 until f (3, x) end."
      "p.pas")
    ∃ p, (ofSource source).parse.1 = .ok p ∧ (Node.program p).exprs.length < 2 ^ 32 ∧
      p.ids.map UInt32.toNat = List.range (Node.program p).exprs.length := by
  intro source
  have hrun : (ofSource source).parse.1.toOption.any fun p => p.ids.length = 6 := by decide +kernel
  rcases h : (ofSource source).parse.1 with _ | p
  · rw [h] at hrun
    cases hrun
  · have hlength : p.ids.length = 6 := by
      rw [h] at hrun
      exact of_decide_eq_true hrun
    have hcount : (Node.program p).exprs.length < 2 ^ 32 := by
      have hperm := (Node.program p).perm_ids.length_eq
      rw [List.length_map, show (Node.program p).ids = p.ids from rfl, hlength] at hperm
      omega
    exact ⟨p, rfl, hcount, (Parser.ids_eq_range_of_parse h hcount).1⟩

end MiniPascal
