import MiniPascal.Syntax.Map

/-!
# Listings of the tokens and ids of a tree

The **tokens** of a tree are listed in the order in which they stand in its source text: the name of
a statement before its expressions, an operator between its operands. The **ids** are listed in
post-order, every id after those of the expressions below. A change of tokens or ids by `map`
changes the listings entry by entry (`Program.tokens_map`, `Program.ids_map`).
-/

namespace MiniPascal

/-! ### Tokens -/

mutual

/-- The tokens of an expression, from left to right: those that its nodes keep. Parentheses and
commas have left none. The order is that of the source, which for an operator with two operands is
between them. -/
def Expr.tokens : Expr → List Token
  | .literal _ value => [value]
  | .name _ token => [token]
  | .unary _ op operand => op :: operand.tokens
  | .binary _ left op right => left.tokens ++ op :: right.tokens
  | .call _ callee args => callee :: Expr.tokensList args

/-- The tokens of a list of expressions, one expression after the other, as they stand in the
source. -/
def Expr.tokensList : List Expr → List Token
  | [] => []
  | expr :: rest => expr.tokens ++ Expr.tokensList rest

end

mutual

/-- The tokens of a statement, from left to right: its names and those of its expressions and inner
statements. Keywords and marks have left none. -/
def Stmt.tokens : Stmt → List Token
  | .write _ args => Expr.tokensList args
  | .read target => [target]
  | .assign target value => target :: value.tokens
  | .call callee args => callee :: Expr.tokensList args
  | .ifThen condition body => condition.tokens ++ Stmt.tokensList body
  | .ifElse condition body otherwise =>
    condition.tokens ++ Stmt.tokensList body ++ Stmt.tokensList otherwise
  | .whileDo condition body => condition.tokens ++ Stmt.tokensList body
  | .repeatUntil body condition => Stmt.tokensList body ++ condition.tokens
  | .forLoop counter first _ last body =>
    counter :: (first.tokens ++ last.tokens ++ Stmt.tokensList body)
  | .compound body => Stmt.tokensList body

/-- The tokens of a list of statements, one statement after the other, as they stand in the
source. -/
def Stmt.tokensList : List Stmt → List Token
  | [] => []
  | stmt :: rest => stmt.tokens ++ Stmt.tokensList rest

end

mutual

/-- The tokens of a block, from left to right: the names of the variables, the tokens of the
routines and those of the body. The names of types have left none. -/
def Block.tokens : Block → List Token
  | ⟨vars, routines, body⟩ =>
    vars.map VarDecl.name ++ Routine.tokensList routines ++ Stmt.tokensList body

/-- The tokens of a routine, from left to right: its name, the names of its parameters and the
tokens of its block. The names of types have left none. -/
def Routine.tokens : Routine → List Token
  | ⟨name, params, _, block⟩ => name :: (params.map VarDecl.name ++ block.tokens)

/-- The tokens of a list of routines, one routine after the other, as they stand in the source. -/
def Routine.tokensList : List Routine → List Token
  | [] => []
  | routine :: rest => routine.tokens ++ Routine.tokensList rest

end

/-- The tokens of a program, from left to right: its name and those of its block.
`tokens_eq_storedTokens_of_parse` compares them to the source. -/
def Program.tokens (program : Program) : List Token :=
  program.name :: program.block.tokens

/-! ### Ids -/

mutual

/-- The ids of an expression, in post-order: those of the operands or arguments from left to right,
and then that of the node itself. This is the order in which a parser hands them out. -/
def Expr.ids : Expr → List ExprId
  | .literal id _ | .name id _ => [id]
  | .unary id _ operand => operand.ids ++ [id]
  | .binary id left _ right => left.ids ++ right.ids ++ [id]
  | .call id _ args => Expr.idsList args ++ [id]

/-- The ids of a list of expressions, one expression after the other, each in post-order. -/
def Expr.idsList : List Expr → List ExprId
  | [] => []
  | expr :: rest => expr.ids ++ Expr.idsList rest

end

mutual

/-- The ids of a statement, in post-order: those of its expressions and of the statements inside, in
the order of the source. A statement has no id of its own. -/
def Stmt.ids : Stmt → List ExprId
  | .write _ args | .call _ args => Expr.idsList args
  | .read _ => []
  | .assign _ value => value.ids
  | .ifThen condition body => condition.ids ++ Stmt.idsList body
  | .ifElse condition body otherwise =>
    condition.ids ++ Stmt.idsList body ++ Stmt.idsList otherwise
  | .whileDo condition body => condition.ids ++ Stmt.idsList body
  | .repeatUntil body condition => Stmt.idsList body ++ condition.ids
  | .forLoop _ first _ last body => first.ids ++ last.ids ++ Stmt.idsList body
  | .compound body => Stmt.idsList body

/-- The ids of a list of statements, one statement after the other, each in post-order. -/
def Stmt.idsList : List Stmt → List ExprId
  | [] => []
  | stmt :: rest => stmt.ids ++ Stmt.idsList rest

end

mutual

/-- The ids of a block, in post-order: those of the routines, and then those of the body. Variables
have none. This is the order in which a parser reads the parts of a block. -/
def Block.ids : Block → List ExprId
  | ⟨_, routines, body⟩ => Routine.idsList routines ++ Stmt.idsList body

/-- The ids of a routine, in post-order, which are those of its block: parameters have none. -/
def Routine.ids : Routine → List ExprId
  | ⟨_, _, _, block⟩ => block.ids

/-- The ids of a list of routines, one routine after the other, each in post-order. -/
def Routine.idsList : List Routine → List ExprId
  | [] => []
  | routine :: rest => routine.ids ++ Routine.idsList rest

end

/-- The ids of a program, in post-order. After a parse they count up from where the parser was
(`Parser.ids_eq_range_of_parse`). No other part of a program has any. -/
def Program.ids (program : Program) : List ExprId :=
  program.block.ids

/-! ### Listings of changed trees -/

section Map

variable (f : Token → Token) (g : ExprId → ExprId)

mutual

/-- Changed expressions have changed tokens. -/
theorem Expr.tokens_map (e : Expr) : (e.map f g).tokens = e.tokens.map f := by
  cases e <;> simp [Expr.map, Expr.tokens, Expr.tokens_map, Expr.tokensList_mapList]

/-- Changed lists of expressions have changed tokens. -/
theorem Expr.tokensList_mapList (es : List Expr) :
    Expr.tokensList (Expr.mapList f g es) = (Expr.tokensList es).map f := by
  cases es <;> simp [Expr.mapList, Expr.tokensList, Expr.tokens_map, Expr.tokensList_mapList]

end

mutual

/-- Changed statements have changed tokens. -/
theorem Stmt.tokens_map (s : Stmt) : (s.map f g).tokens = s.tokens.map f := by
  cases s <;>
    simp [Stmt.map, Stmt.tokens, Expr.tokens_map, Expr.tokensList_mapList, Stmt.tokensList_mapList]

/-- Changed lists of statements have changed tokens. -/
theorem Stmt.tokensList_mapList (ss : List Stmt) :
    Stmt.tokensList (Stmt.mapList f g ss) = (Stmt.tokensList ss).map f := by
  cases ss <;> simp [Stmt.mapList, Stmt.tokensList, Stmt.tokens_map, Stmt.tokensList_mapList]

end

/-- Changed declarations have changed names. -/
theorem VarDecl.name_comp_map : VarDecl.name ∘ VarDecl.map f = f ∘ VarDecl.name :=
  funext fun _ => rfl

mutual

/-- Changed blocks have changed tokens. -/
theorem Block.tokens_map (b : Block) : (b.map f g).tokens = b.tokens.map f := by
  cases b
  simp [Block.map, Block.tokens, VarDecl.name_comp_map, Stmt.tokensList_mapList,
    Routine.tokensList_mapList]

/-- Changed routines have changed tokens. -/
theorem Routine.tokens_map (r : Routine) : (r.map f g).tokens = r.tokens.map f := by
  cases r
  simp [Routine.map, Routine.tokens, VarDecl.name_comp_map, Block.tokens_map]

/-- Changed lists of routines have changed tokens. -/
theorem Routine.tokensList_mapList (rs : List Routine) :
    Routine.tokensList (Routine.mapList f g rs) = (Routine.tokensList rs).map f := by
  cases rs <;>
    simp [Routine.mapList, Routine.tokensList, Routine.tokens_map, Routine.tokensList_mapList]

end

/-- Changed programs have changed tokens. -/
theorem Program.tokens_map (p : Program) : (p.map f g).tokens = p.tokens.map f := by
  simp [Program.map, Program.tokens, Block.tokens_map]

mutual

/-- Changed expressions have changed ids. -/
theorem Expr.ids_map (e : Expr) : (e.map f g).ids = e.ids.map g := by
  cases e <;> simp [Expr.map, Expr.ids, Expr.ids_map, Expr.idsList_mapList]

/-- Changed lists of expressions have changed ids. -/
theorem Expr.idsList_mapList (es : List Expr) :
    Expr.idsList (Expr.mapList f g es) = (Expr.idsList es).map g := by
  cases es <;> simp [Expr.mapList, Expr.idsList, Expr.ids_map, Expr.idsList_mapList]

end

mutual

/-- Changed statements have changed ids. -/
theorem Stmt.ids_map (s : Stmt) : (s.map f g).ids = s.ids.map g := by
  cases s <;> simp [Stmt.map, Stmt.ids, Expr.ids_map, Expr.idsList_mapList, Stmt.idsList_mapList]

/-- Changed lists of statements have changed ids. -/
theorem Stmt.idsList_mapList (ss : List Stmt) :
    Stmt.idsList (Stmt.mapList f g ss) = (Stmt.idsList ss).map g := by
  cases ss <;> simp [Stmt.mapList, Stmt.idsList, Stmt.ids_map, Stmt.idsList_mapList]

end

mutual

/-- Changed blocks have changed ids. -/
theorem Block.ids_map (b : Block) : (b.map f g).ids = b.ids.map g := by
  cases b
  simp [Block.map, Block.ids, Stmt.idsList_mapList, Routine.idsList_mapList]

/-- Changed routines have changed ids. -/
theorem Routine.ids_map (r : Routine) : (r.map f g).ids = r.ids.map g := by
  cases r
  simp [Routine.map, Routine.ids, Block.ids_map]

/-- Changed lists of routines have changed ids. -/
theorem Routine.idsList_mapList (rs : List Routine) :
    Routine.idsList (Routine.mapList f g rs) = (Routine.idsList rs).map g := by
  cases rs <;>
    simp [Routine.mapList, Routine.idsList, Routine.ids_map, Routine.idsList_mapList]

end

/-- Changed programs have changed ids. -/
theorem Program.ids_map (p : Program) : (p.map f g).ids = p.ids.map g := by
  simp [Program.map, Program.ids, Block.ids_map]

end Map

end MiniPascal
