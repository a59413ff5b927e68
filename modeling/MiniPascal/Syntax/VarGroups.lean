import MiniPascal.Syntax.Program

/-!
# Variables grouped by type

Declarations of one type are brought together: the types in the order in which they first appear,
and the names of one type in the order in which they were declared. A block is regrouped at every
depth, and nothing but the order of its variables changes.
-/

namespace MiniPascal

namespace VarDecl

/-- The types of the declarations, each once and in the order in which they first appear. A printed
section has one line for each of them. It is as long as there are different types, five at most. -/
def types (decls : List VarDecl) : List Ty :=
  (decls.map ty).eraseDups

/-- The declarations of one type, in their order: those that share a line of a printed section. -/
def ofType (decls : List VarDecl) (ty : Ty) : List VarDecl :=
  decls.filter fun decl => decl.ty = ty

/-- The declarations, with those of one type next to each other: type by type, in the order of
`types`. None is lost and none is new. Within one type the order stays. -/
def regroup (decls : List VarDecl) : List VarDecl :=
  (types decls).flatMap (ofType decls)

/-- The types are those of some declaration. -/
theorem mem_types {decls : List VarDecl} {t : Ty} : t ∈ types decls ↔ ∃ d ∈ decls, d.ty = t := by
  simp [types, List.mem_eraseDups]

/-- Every declaration has a type. -/
theorem types_ne_nil {decls : List VarDecl} (h : decls ≠ []) : types decls ≠ [] := by
  obtain ⟨d, rest, rfl⟩ := List.exists_cons_of_ne_nil h
  exact List.ne_nil_of_mem (mem_types.2 ⟨d, List.mem_cons_self, rfl⟩)

/-- Regrouping keeps every declaration and makes none up. -/
theorem mem_regroup {decls : List VarDecl} {d : VarDecl} : d ∈ regroup decls ↔ d ∈ decls := by
  simp only [regroup, List.mem_flatMap, mem_types, ofType, List.mem_filter, decide_eq_true_eq]
  constructor
  · rintro ⟨_, _, h, _⟩
    exact h
  · intro h
    exact ⟨d.ty, ⟨d, h, rfl⟩, h, rfl⟩

end VarDecl

mutual

/-- A block in which variables of one type stand next to each other, at every depth: its own, and
those of the routines inside. The body stays. -/
def Block.regroup : Block → Block
  | ⟨vars, routines, body⟩ => ⟨VarDecl.regroup vars, Routine.regroupList routines, body⟩

/-- A routine in which variables of one type stand next to each other, at every depth. Its
parameters stay in their order, on which calls depend. -/
def Routine.regroup : Routine → Routine
  | ⟨name, params, result, block⟩ => ⟨name, params, result, block.regroup⟩

/-- Regroups the variables of all routines of a list. The routines themselves stay in their
order. -/
def Routine.regroupList : List Routine → List Routine
  | [] => []
  | routine :: rest => routine.regroup :: Routine.regroupList rest

end

/-- A program in which variables of one type stand next to each other, at every depth. It is what
comes back when a printed program is read (`exists_parseText_print`). -/
def Program.regroup (program : Program) : Program :=
  ⟨program.name, program.block.regroup⟩

end MiniPascal
