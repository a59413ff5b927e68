import MiniPascal.Syntax.Program

/-!
# Changing the tokens and ids of a tree

`map` applies one function to every token of a tree and another to every id, and keeps all else, the
number of nodes among it (`Program.size_map`).
A tree **without positions** is one whose tokens are unplaced; two trees are the same exactly if
they are equal without positions (`Program.same_iff`).
-/

namespace MiniPascal

variable (f : Token → Token) (g : ExprId → ExprId)

mutual

/-- Applies a function to the tokens of an expression and another to its ids. The shape of the tree
stays, whatever the two functions do. -/
def Expr.map : Expr → Expr
  | .literal id value => .literal (g id) (f value)
  | .name id token => .name (g id) (f token)
  | .unary id op operand => .unary (g id) (f op) operand.map
  | .binary id left op right => .binary (g id) left.map (f op) right.map
  | .call id callee args => .call (g id) (f callee) (Expr.mapList args)

/-- Changes all expressions of a list, each by itself. It is `List.map` (`Expr.mapList_eq_map`),
written out for the recursion. -/
def Expr.mapList : List Expr → List Expr
  | [] => []
  | expr :: rest => expr.map :: Expr.mapList rest

end

mutual

/-- Applies a function to the tokens of a statement and another to its ids, also in the expressions
and statements inside. The shape of the tree stays. -/
def Stmt.map : Stmt → Stmt
  | .write newline args => .write newline (Expr.mapList f g args)
  | .read target => .read (f target)
  | .assign target value => .assign (f target) (value.map f g)
  | .call callee args => .call (f callee) (Expr.mapList f g args)
  | .ifThen condition body => .ifThen (condition.map f g) (Stmt.mapList body)
  | .ifElse condition body otherwise =>
    .ifElse (condition.map f g) (Stmt.mapList body) (Stmt.mapList otherwise)
  | .whileDo condition body => .whileDo (condition.map f g) (Stmt.mapList body)
  | .repeatUntil body condition => .repeatUntil (Stmt.mapList body) (condition.map f g)
  | .forLoop counter first direction last body =>
    .forLoop (f counter) (first.map f g) direction (last.map f g) (Stmt.mapList body)
  | .compound body => .compound (Stmt.mapList body)

/-- Changes all statements of a list, each by itself. It is `List.map` (`Stmt.mapList_eq_map`),
written out for the recursion. -/
def Stmt.mapList : List Stmt → List Stmt
  | [] => []
  | stmt :: rest => stmt.map :: Stmt.mapList rest

end

/-- Applies a function to the name of a declaration. Its type is no token and stays, and there is no
id to change. Variables and parameters are both changed like this. -/
def VarDecl.map (decl : VarDecl) : VarDecl :=
  { decl with name := f decl.name }

mutual

/-- Applies a function to the tokens of a block and another to its ids, in its variables, its
routines and its body. The types of the variables stay. -/
def Block.map : Block → Block
  | ⟨vars, routines, body⟩ =>
    ⟨vars.map (VarDecl.map f), Routine.mapList routines, Stmt.mapList f g body⟩

/-- Applies a function to the tokens of a routine and another to its ids. The type of the result
stays. Parameters are changed like variables. -/
def Routine.map : Routine → Routine
  | ⟨name, params, result, block⟩ => ⟨f name, params.map (VarDecl.map f), result, block.map⟩

/-- Changes all routines of a list, each by itself. It is `List.map` (`Routine.mapList_eq_map`),
written out for the recursion. -/
def Routine.mapList : List Routine → List Routine
  | [] => []
  | routine :: rest => routine.map :: Routine.mapList rest

end

/-- Applies a function to the tokens of a program and another to its ids. A change of positions, of
letter case or of numbers is one of these. -/
def Program.map (program : Program) : Program :=
  ⟨f program.name, program.block.map f g⟩

/-- A list is changed item by item. -/
theorem Expr.mapList_eq_map (es : List Expr) : Expr.mapList f g es = es.map (Expr.map f g) := by
  induction es with
  | nil => rfl
  | cons e es ih => rw [Expr.mapList, ih, List.map_cons]

/-- A list is changed item by item. -/
theorem Stmt.mapList_eq_map (ss : List Stmt) : Stmt.mapList f g ss = ss.map (Stmt.map f g) := by
  induction ss with
  | nil => rfl
  | cons s ss ih => rw [Stmt.mapList, ih, List.map_cons]

/-- A list is changed item by item. -/
theorem Routine.mapList_eq_map (rs : List Routine) :
    Routine.mapList f g rs = rs.map (Routine.map f g) := by
  induction rs with
  | nil => rfl
  | cons r rs ih => rw [Routine.mapList, ih, List.map_cons]

/-! ### Sizes -/

mutual

/-- Changed expressions have as many nodes. -/
theorem Expr.size_map (e : Expr) : (e.map f g).size = e.size := by
  cases e <;> simp [Expr.map, Expr.size, Expr.size_map, Expr.sizeList_mapList]

/-- Changed lists of expressions have as many nodes. -/
theorem Expr.sizeList_mapList (es : List Expr) :
    Expr.sizeList (Expr.mapList f g es) = Expr.sizeList es := by
  cases es <;> simp [Expr.mapList, Expr.sizeList, Expr.size_map, Expr.sizeList_mapList]

end

mutual

/-- Changed statements have as many nodes. -/
theorem Stmt.size_map (s : Stmt) : (s.map f g).size = s.size := by
  cases s <;>
    simp [Stmt.map, Stmt.size, Expr.size_map, Expr.sizeList_mapList, Stmt.sizeList_mapList]

/-- Changed lists of statements have as many nodes. -/
theorem Stmt.sizeList_mapList (ss : List Stmt) :
    Stmt.sizeList (Stmt.mapList f g ss) = Stmt.sizeList ss := by
  cases ss <;> simp [Stmt.mapList, Stmt.sizeList, Stmt.size_map, Stmt.sizeList_mapList]

end

mutual

/-- Changed blocks have as many nodes. -/
theorem Block.size_map (b : Block) : (b.map f g).size = b.size := by
  cases b
  simp [Block.map, Block.size, Stmt.sizeList_mapList, Routine.sizeList_mapList]

/-- Changed routines have as many nodes. -/
theorem Routine.size_map (r : Routine) : (r.map f g).size = r.size := by
  cases r
  simp [Routine.map, Routine.size, Block.size_map]

/-- Changed lists of routines have as many nodes. -/
theorem Routine.sizeList_mapList (rs : List Routine) :
    Routine.sizeList (Routine.mapList f g rs) = Routine.sizeList rs := by
  cases rs <;>
    simp [Routine.mapList, Routine.sizeList, Routine.size_map, Routine.sizeList_mapList]

end

/-- Changed programs have as many nodes. -/
theorem Program.size_map (p : Program) : (p.map f g).size = p.size := by
  simp [Program.map, Program.size, Block.size_map]

/-! ### Changing twice -/

section Twice

variable (f' : Token → Token) (g' : ExprId → ExprId)

mutual

/-- Two changes of an expression are one. -/
theorem Expr.map_map (e : Expr) : (e.map f g).map f' g' = e.map (f' ∘ f) (g' ∘ g) := by
  cases e <;> simp [Expr.map, Expr.map_map, Expr.mapList_mapList]

/-- Two changes of a list of expressions are one. -/
theorem Expr.mapList_mapList (es : List Expr) :
    Expr.mapList f' g' (Expr.mapList f g es) = Expr.mapList (f' ∘ f) (g' ∘ g) es := by
  cases es <;> simp [Expr.mapList, Expr.map_map, Expr.mapList_mapList]

end

mutual

/-- Two changes of a statement are one. -/
theorem Stmt.map_map (s : Stmt) : (s.map f g).map f' g' = s.map (f' ∘ f) (g' ∘ g) := by
  cases s <;> simp [Stmt.map, Expr.map_map, Expr.mapList_mapList, Stmt.mapList_mapList]

/-- Two changes of a list of statements are one. -/
theorem Stmt.mapList_mapList (ss : List Stmt) :
    Stmt.mapList f' g' (Stmt.mapList f g ss) = Stmt.mapList (f' ∘ f) (g' ∘ g) ss := by
  cases ss <;> simp [Stmt.mapList, Stmt.map_map, Stmt.mapList_mapList]

end

/-- Two changes of a declaration are one. -/
theorem VarDecl.map_comp_map : VarDecl.map f' ∘ VarDecl.map f = VarDecl.map (f' ∘ f) :=
  funext fun _ => rfl

mutual

/-- Two changes of a block are one. -/
theorem Block.map_map (b : Block) : (b.map f g).map f' g' = b.map (f' ∘ f) (g' ∘ g) := by
  cases b
  simp [Block.map, VarDecl.map_comp_map, Stmt.mapList_mapList, Routine.mapList_mapList]

/-- Two changes of a routine are one. -/
theorem Routine.map_map (r : Routine) : (r.map f g).map f' g' = r.map (f' ∘ f) (g' ∘ g) := by
  cases r
  simp [Routine.map, VarDecl.map_comp_map, Block.map_map]

/-- Two changes of a list of routines are one. -/
theorem Routine.mapList_mapList (rs : List Routine) :
    Routine.mapList f' g' (Routine.mapList f g rs) = Routine.mapList (f' ∘ f) (g' ∘ g) rs := by
  cases rs <;> simp [Routine.mapList, Routine.map_map, Routine.mapList_mapList]

end

/-- Two changes of a program are one. -/
theorem Program.map_map (p : Program) : (p.map f g).map f' g' = p.map (f' ∘ f) (g' ∘ g) := by
  simp [Program.map, Block.map_map]

end Twice

/-! ### Sameness -/

/-- An expression without the positions of its tokens; its ids stay. Two expressions are the same if
they are equal after this (`Expr.same_iff`). -/
def Expr.unplaced (expr : Expr) : Expr :=
  expr.map Token.unplaced fun id => id

/-- A statement without the positions of its tokens; its ids stay. Two statements are the same if
they are equal after this (`Stmt.same_iff`). -/
def Stmt.unplaced (stmt : Stmt) : Stmt :=
  stmt.map Token.unplaced fun id => id

/-- A block without the positions of its tokens; its ids stay. Two blocks are the same if they are
equal after this (`Block.same_iff`). -/
def Block.unplaced (block : Block) : Block :=
  block.map Token.unplaced fun id => id

/-- A program without the positions of its tokens; its ids stay. Two programs are the same if they
are equal after this (`Program.same_iff`). -/
def Program.unplaced (program : Program) : Program :=
  program.map Token.unplaced fun id => id

mutual

/-- Expressions are the same if they are equal without positions, and only then. -/
theorem Expr.same_iff (a b : Expr) : a.same b = true ↔ a.unplaced = b.unplaced := by
  cases a <;> cases b <;>
    simp [Expr.same, Expr.unplaced, Expr.map, Token.same_iff, Expr.sameList_iff, and_assoc] <;>
    simp [Expr.same_iff, Expr.unplaced]

/-- Lists of expressions are the same if they are equal without positions, and only then. -/
theorem Expr.sameList_iff (as bs : List Expr) :
    Expr.sameList as bs = true ↔
      Expr.mapList Token.unplaced (fun id => id) as =
        Expr.mapList Token.unplaced (fun id => id) bs := by
  cases as <;> cases bs <;>
    simp [Expr.sameList, Expr.mapList, Expr.same_iff, Expr.sameList_iff, Expr.unplaced]

end

mutual

/-- Statements are the same if they are equal without positions, and only then. -/
theorem Stmt.same_iff (s t : Stmt) : s.same t = true ↔ s.unplaced = t.unplaced := by
  cases s <;> cases t <;>
    simp [Stmt.same, Stmt.unplaced, Stmt.map, Token.same_iff, Expr.same_iff, Expr.sameList_iff,
      Expr.unplaced, Stmt.sameList_iff, and_assoc]

/-- Lists of statements are the same if they are equal without positions, and only then. -/
theorem Stmt.sameList_iff (ss ts : List Stmt) :
    Stmt.sameList ss ts = true ↔
      Stmt.mapList Token.unplaced (fun id => id) ss =
        Stmt.mapList Token.unplaced (fun id => id) ts := by
  cases ss <;> cases ts <;>
    simp [Stmt.sameList, Stmt.mapList, Stmt.same_iff, Stmt.sameList_iff, Stmt.unplaced]

end

/-- Lists of declarations are the same if they are equal without positions, and only then. -/
theorem VarDecl.sameList_iff (as bs : List VarDecl) :
    VarDecl.sameList as bs = true ↔
      as.map (VarDecl.map Token.unplaced) = bs.map (VarDecl.map Token.unplaced) := by
  induction as generalizing bs with
  | nil => cases bs <;> simp [VarDecl.sameList]
  | cons a as ih =>
    cases bs <;> simp [VarDecl.sameList, VarDecl.same, VarDecl.map, Token.same_iff, ih]

mutual

/-- Blocks are the same if they are equal without positions, and only then. -/
theorem Block.same_iff (a b : Block) : a.same b = true ↔ a.unplaced = b.unplaced := by
  cases a
  cases b
  simp [Block.same, Block.unplaced, Block.map, VarDecl.sameList_iff, Stmt.sameList_iff,
    Routine.sameList_iff, and_assoc]

/-- Routines are the same if they are equal without positions, and only then. -/
theorem Routine.same_iff (a b : Routine) :
    a.same b = true ↔
      a.map Token.unplaced (fun id => id) = b.map Token.unplaced fun id => id := by
  cases a
  cases b
  simp [Routine.same, Routine.map, Token.same_iff, VarDecl.sameList_iff, Block.same_iff,
    Block.unplaced, and_assoc]

/-- Lists of routines are the same if they are equal without positions, and only then. -/
theorem Routine.sameList_iff (as bs : List Routine) :
    Routine.sameList as bs = true ↔
      Routine.mapList Token.unplaced (fun id => id) as =
        Routine.mapList Token.unplaced (fun id => id) bs := by
  cases as <;> cases bs <;>
    simp [Routine.sameList, Routine.mapList, Routine.same_iff, Routine.sameList_iff]

end

/-- Programs are the same if they are equal without positions, and only then. -/
theorem Program.same_iff (p q : Program) : p.same q = true ↔ p.unplaced = q.unplaced := by
  simp [Program.same, Program.unplaced, Program.map, Token.same_iff, Block.same_iff,
    Block.unplaced]

end MiniPascal
