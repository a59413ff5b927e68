import MiniPascal.Syntax.Program

/-!
# Nodes

A **node** is any part of a tree that has a size of its own: a program, a block, the declarations of
a block, one declaration, a parameter list, a statement or an expression. The children of a node are
listed in the order in which its source text names them, save that a conditional loop that tests
last has its test last.

`Node.size_eq` relates the two accounts of a tree: a node is one more than its children together.
`Node.outline` is the tree in pre-order with depths, and has as many entries as the tree has nodes
(`length_outline`).
-/

namespace MiniPascal

/-- A part of a tree, of whatever sort. Declarations and parameters are parts together as well as
one by one, since a tree counts them so. A visitor can begin at any of them. -/
inductive Node where
  | program (program : Program)
  | block (block : Block)
  | declarations (vars : List VarDecl) (routines : List Routine)
  | varDecl (decl : VarDecl)
  | routine (routine : Routine)
  | params (params : List VarDecl)
  | stmt (stmt : Stmt)
  | expr (expr : Expr)
deriving Repr

namespace Node

/-- The number of nodes of a part, itself included. It is one more than that of the parts right
below it together (`size_eq`). It is what counting the nodes of the part gives. -/
def size : Node → Nat
  | .program p => p.size
  | .block b => b.size
  | .declarations vars routines => 1 + vars.length + Routine.sizeList routines
  | .varDecl _ => 1
  | .routine r => r.size
  | .params ps => 1 + ps.length
  | .stmt s => s.size
  | .expr e => e.size

/-- The parts right below a part, in the order of the source. The body of a block, a branch or a
loop is a compound statement here. The recursion of `outline` goes along these lists. -/
def children : Node → List Node
  | .program p => [.block p.block]
  | .block b => [.declarations b.vars b.routines, .stmt (.compound b.body)]
  | .declarations vars routines => vars.map .varDecl ++ routines.map .routine
  | .varDecl _ => []
  | .routine r => [.params r.params, .block r.block]
  | .params ps => ps.map .varDecl
  | .stmt s =>
    match s with
    | .write _ args | .call _ args => args.map .expr
    | .read _ => []
    | .assign _ value => [.expr value]
    | .ifThen condition body => [.expr condition, .stmt (.compound body)]
    | .ifElse condition body otherwise =>
      [.expr condition, .stmt (.compound body), .stmt (.compound otherwise)]
    | .whileDo condition body => [.expr condition, .stmt (.compound body)]
    | .repeatUntil body condition => body.map .stmt ++ [.expr condition]
    | .forLoop _ first _ last body => [.expr first, .expr last, .stmt (.compound body)]
    | .compound body => body.map .stmt
  | .expr e =>
    match e with
    | .literal _ _ | .name _ _ => []
    | .unary _ _ operand => [.expr operand]
    | .binary _ left _ right => [.expr left, .expr right]
    | .call _ _ args => args.map .expr

/-- The number of nodes of several parts together, for the parts right below another one. -/
def sizeList : List Node → Nat
  | [] => 0
  | node :: rest => node.size + sizeList rest

private theorem sizeList_append (nodes more : List Node) :
    sizeList (nodes ++ more) = sizeList nodes + sizeList more := by
  induction nodes with
  | nil => simp [sizeList]
  | cons node nodes ih => simp [sizeList, ih, Nat.add_assoc]

private theorem sizeList_map_expr (exprs : List Expr) :
    sizeList (exprs.map .expr) = Expr.sizeList exprs := by
  induction exprs with
  | nil => rfl
  | cons expr exprs ih => simp [sizeList, Expr.sizeList, size, ih]

private theorem sizeList_map_stmt (stmts : List Stmt) :
    sizeList (stmts.map .stmt) = Stmt.sizeList stmts := by
  induction stmts with
  | nil => rfl
  | cons stmt stmts ih => simp [sizeList, Stmt.sizeList, size, ih]

private theorem sizeList_map_varDecl (decls : List VarDecl) :
    sizeList (decls.map .varDecl) = decls.length := by
  induction decls with
  | nil => rfl
  | cons decl decls ih => simp [sizeList, size, ih, Nat.add_comm]

private theorem sizeList_map_routine (routines : List Routine) :
    sizeList (routines.map .routine) = Routine.sizeList routines := by
  induction routines with
  | nil => rfl
  | cons routine routines ih => simp [sizeList, Routine.sizeList, size, ih]

/-- A node is one more than its children together. -/
theorem size_eq (node : Node) : node.size = 1 + sizeList node.children := by
  cases node with
  | program p => simp [children, sizeList, size, Program.size]
  | block b =>
    cases b
    simp [children, sizeList, size, Block.size, Stmt.size, Nat.add_assoc]
  | declarations vars routines =>
    rw [children, sizeList_append, sizeList_map_varDecl, sizeList_map_routine, size, Nat.add_assoc]
  | varDecl v => rfl
  | routine r =>
    cases r
    simp [children, sizeList, size, Routine.size, Nat.add_assoc]
  | params ps => rw [children, sizeList_map_varDecl, size]
  | stmt s =>
    cases s <;>
      simp [children, sizeList, sizeList_append, sizeList_map_expr, sizeList_map_stmt, size,
        Stmt.size, Nat.add_assoc]
  | expr e =>
    cases e <;> simp [children, sizeList, sizeList_map_expr, size, Expr.size, Nat.add_assoc]

private theorem size_le_sizeList {node : Node} {nodes : List Node} (h : node ∈ nodes) :
    node.size ≤ sizeList nodes := by
  induction h with
  | head nodes => exact Nat.le_add_right ..
  | tail other _ ih => exact Nat.le_trans ih (Nat.le_add_left ..)

/-- A child is smaller than its parent. -/
theorem size_lt_of_mem_children {node child : Node} (h : child ∈ node.children) :
    child.size < node.size := by
  have := size_le_sizeList h
  rw [node.size_eq]
  omega

/-- What holds of every node of whose children it holds, holds of all nodes. -/
theorem induction {motive : Node → Prop}
    (step : ∀ node, (∀ child ∈ node.children, motive child) → motive node) (node : Node) :
    motive node := by
  induction h : node.size using Nat.strongRecOn generalizing node with
  | _ size ih =>
    exact step node fun child hchild => ih child.size (h ▸ size_lt_of_mem_children hchild) child rfl

/-- A part with all parts below it, each with its depth, in pre-order: a part stands before those
below it, and these stand from left to right. -/
def outline (depth : Nat) (node : Node) : List (Nat × Node) :=
  (depth, node) :: node.children.attach.flatMap fun ⟨child, _⟩ => outline (depth + 1) child
termination_by node.size
decreasing_by exact size_lt_of_mem_children ‹_›

/-- A part comes before the outlines of its children. -/
theorem outline_eq (depth : Nat) (node : Node) :
    node.outline depth = (depth, node) :: node.children.flatMap (outline (depth + 1)) := by
  rw [outline]
  simp [List.flatMap_subtype]

/-- The outline of a part has one entry for each of its nodes. -/
theorem length_outline (depth : Nat) (node : Node) : (node.outline depth).length = node.size := by
  induction node using induction generalizing depth with
  | step node ih =>
    have below : ∀ nodes, (∀ child ∈ nodes, (child.outline (depth + 1)).length = child.size) →
        (nodes.flatMap (outline (depth + 1))).length = sizeList nodes := by
      intro nodes hlength
      induction nodes with
      | nil => rfl
      | cons child nodes others =>
        obtain ⟨hchild, hnodes⟩ := List.forall_mem_cons.1 hlength
        rw [List.flatMap_cons, List.length_append, hchild, others hnodes, sizeList]
    rw [outline_eq, List.length_cons, below _ fun child hchild => ih child hchild (depth + 1),
      node.size_eq, Nat.add_comm]

/-- The expressions among a part and the parts below it, in pre-order. Their ids are those of the
part, in another order (`perm_ids`). An expression stands before its operands, with the highest id
of all of them. -/
def exprs (node : Node) : List Expr :=
  (node.outline 0).filterMap fun entry =>
    match entry.2 with
    | .expr e => some e
    | _ => none

/-- Whether two parts are of one kind and equal but for the positions of their tokens. It is the
comparison that belongs to the kind. Parts of different kinds are never the same. -/
def same : Node → Node → Bool
  | .program p, .program q => p.same q
  | .block a, .block b => a.same b
  | .declarations vars routines, .declarations vars' routines' =>
    VarDecl.sameList vars vars' && Routine.sameList routines routines'
  | .varDecl a, .varDecl b => a.same b
  | .routine a, .routine b => a.same b
  | .params as, .params bs => VarDecl.sameList as bs
  | .stmt s, .stmt t => s.same t
  | .expr a, .expr b => a.same b
  | _, _ => false

end Node

end MiniPascal
