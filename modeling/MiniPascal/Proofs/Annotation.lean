import Mathlib.Data.Finset.Card
import Mathlib.Data.List.DropRight
import MiniPascal.Proofs.Ids
import MiniPascal.TypeTable

/-!
# Annotated expressions

The **history** of a type table lists what it was used for. The table **records** the annotations
tried since it was last cleared: an expression has the type of the first of them that names it, and
there are as many entries as expressions named (`TypeTable.records_after`). This is what later
annotations are measured by, those that were refused among them.

The expressions of a program that was read have different ids (`TypeTable.nodup_ids_of_parseText`).
So whoever visits them one by one, in any order, annotates each of them for the first time, and no
type is lost on the way (`TypeTable.run_annotateAll`).
-/

namespace MiniPascal

namespace TypeTable

/-! ### Histories -/

/-- What a table is used for: an expression is annotated, its type is asked for, or all entries are
dropped. A history of a table is a list of these. -/
inductive Use where
  | annotate (id : ExprId) (ty : Ty)
  | typeOf (id : ExprId)
  | clear
deriving DecidableEq, Repr

/-- What a table answers to a use: a type or that there is none, or else that the use has been done
or refused. A refusal says which type is recorded. -/
inductive Answer where
  | done
  | refused (e : AlreadyAnnotated)
  | type (ty : Option Ty)
deriving DecidableEq, Repr

/-- The answer of a table, and the table after it. An annotation is tried as an action of a pass, so
that a refusal leaves the table to what follows. -/
def use (table : TypeTable) : Use → Answer × TypeTable
  | .annotate id ty =>
    match (Pass.change fun table => table.annotate id ty).run.run table with
    | (.ok (), after) => (.done, after)
    | (.error e, after) => (.refused e, after)
  | .typeOf id => (.type (table.typeOf? id), table)
  | .clear => (.done, table.clear)

/-- A new table after all uses of a history, in their order. A refused annotation does not end the
history. It is the state of a pass after these uses. -/
def after (history : List Use) : TypeTable :=
  history.foldl (fun table use => (table.use use).2) empty

/-- The expression and the type that an annotation names, whether or not it is refused; none for
other uses. It leaves of a history what can have changed the table. -/
def Use.annotation? : Use → Option (ExprId × Ty)
  | .annotate id ty => some (id, ty)
  | .typeOf _ | .clear => none

/-- The annotations that were tried since a table was last cleared, the oldest first. Refused ones
are among them. The history is read from its end, so that only the latest clearing counts. -/
def annotations (history : List Use) : List (ExprId × Ty) :=
  (history.rtakeWhile fun use => use ≠ .clear).filterMap Use.annotation?

/-! ### Records -/

/-- Whether a table records annotations: the first one for each expression, and no other. The size
counts each expression once. The list may name an expression many times; all but its first type
there were refused. -/
structure Records (table : TypeTable) (entries : List (ExprId × Ty)) : Prop where
  typeOf : ∀ id, table.typeOf? id = entries.lookup id
  size : table.size = (entries.map Prod.fst).toFinset.card

/-- An annotation is refused if the expression has a type, and recorded otherwise. -/
theorem run_annotate (table : TypeTable) (id : ExprId) (ty : Ty) :
    (Pass.change fun table => table.annotate id ty).run.run table =
      match table.typeOf? id with
      | some existing => (.error ⟨id, existing⟩, table)
      | none => (.ok (), ⟨table.types.insert id ty⟩) := by
  change (ofExcept (table.annotate id ty) >>= set : Pass Unit).run.run table = _
  rw [annotate]
  cases table.typeOf? id <;> rfl

namespace Records

variable {table : TypeTable} {entries : List (ExprId × Ty)} {id : ExprId}

theorem empty : TypeTable.empty.Records [] :=
  ⟨fun _ => Std.HashMap.getElem?_empty, Std.HashMap.size_empty⟩

/-- An expression has no type if no annotation names it. -/
theorem typeOf_eq_none_iff (h : table.Records entries) :
    table.typeOf? id = none ↔ id ∉ entries.map Prod.fst := by
  rw [h.typeOf, List.lookup_eq_none_iff]
  constructor
  · intro hne hmem
    obtain ⟨entry, hentry, rfl⟩ := List.mem_map.1 hmem
    exact bne_iff_ne.1 (hne entry hentry) rfl
  · intro hnot entry hentry
    exact bne_iff_ne.2 fun heq => hnot (heq ▸ List.mem_map_of_mem hentry)

/-- An expression has a type if an annotation names it. -/
theorem exists_typeOf_iff (h : table.Records entries) :
    (∃ ty, table.typeOf? id = some ty) ↔ id ∈ entries.map Prod.fst := by
  rw [← Option.ne_none_iff_exists', ne_eq, h.typeOf_eq_none_iff, not_not]

private theorem lookup_singleton_of_ne {id' : ExprId} (h : id' ≠ id) {ty : Ty} :
    [(id, ty)].lookup id' = none :=
  List.lookup_eq_none_iff.2 (List.forall_mem_singleton.2 (bne_iff_ne.2 h))

/-- A second annotation of an expression adds nothing. -/
theorem append_of_mem (h : table.Records entries) (hid : id ∈ entries.map Prod.fst) (ty : Ty) :
    table.Records (entries ++ [(id, ty)]) where
  typeOf id' := by
    rw [List.lookup_append, ← h.typeOf]
    obtain rfl | heq := eq_or_ne id' id
    · obtain ⟨existing, hexisting⟩ := h.exists_typeOf_iff.2 hid
      rw [hexisting, Option.some_or]
    · rw [lookup_singleton_of_ne heq, Option.or_none]
  size := by
    have hkeys : ((entries ++ [(id, ty)]).map Prod.fst).toFinset =
        (entries.map Prod.fst).toFinset := by
      simpa using Finset.insert_eq_self.2 (List.mem_toFinset.2 hid)
    rw [hkeys, h.size]

/-- The first annotation of an expression adds its type. -/
theorem insert (h : table.Records entries) (hid : id ∉ entries.map Prod.fst) (ty : Ty) :
    Records ⟨table.types.insert id ty⟩ (entries ++ [(id, ty)]) where
  typeOf id' := by
    rw [List.lookup_append, ← h.typeOf, typeOf?, Std.HashMap.getElem?_insert]
    obtain rfl | heq := eq_or_ne id' id
    · have hnone : table.typeOf? id' = none := h.typeOf_eq_none_iff.2 hid
      simp [hnone]
    · rw [lookup_singleton_of_ne heq, Option.or_none, beq_false_of_ne (Ne.symm heq)]
      rfl
  size := by
    have hmem : id ∉ table.types := by
      rw [Std.HashMap.mem_iff_isSome_getElem?, show table.types[id]? = none from
        h.typeOf_eq_none_iff.2 hid]
      exact Bool.false_ne_true
    have hkeys : ((entries ++ [(id, ty)]).map Prod.fst).toFinset =
        Insert.insert id (entries.map Prod.fst).toFinset := by simp
    rw [hkeys, Finset.card_insert_of_notMem (mt List.mem_toFinset.1 hid), ← h.size]
    exact Std.HashMap.size_insert.trans (if_neg hmem)

/-- Whether it is refused or not, an annotation is one more that was tried. -/
theorem use_annotate (h : table.Records entries) (id : ExprId) (ty : Ty) :
    (table.use (.annotate id ty)).2.Records (entries ++ [(id, ty)]) := by
  rw [use, run_annotate]
  cases hid : table.typeOf? id with
  | some existing => exact h.append_of_mem (h.exists_typeOf_iff.1 ⟨existing, hid⟩) ty
  | none => exact h.insert (h.typeOf_eq_none_iff.1 hid) ty

end Records

/-- A table records what was tried since it was last cleared. -/
theorem records_after (history : List Use) : (after history).Records (annotations history) := by
  -- from the end of the history, where what was tried before is still the past of the last use
  induction history using List.reverseRecOn with
  | nil => exact .empty
  | append_singleton history use ih =>
    rw [after, List.foldl_concat, annotations]
    cases use with
    | annotate id ty =>
      rw [List.rtakeWhile_concat_pos _ _ _ (by simp), List.filterMap_append]
      exact ih.use_annotate id ty
    | typeOf id =>
      rw [List.rtakeWhile_concat_pos _ _ _ (by simp), List.filterMap_append]
      exact (List.append_nil _).symm ▸ ih
    | clear =>
      rw [List.rtakeWhile_concat_neg _ _ _ (by decide)]
      exact .empty

/-! ### Visits -/

/-- Annotates expressions one after the other, as a pass over a tree does. The first refusal ends
it. The order of the visits is any. -/
def Pass.annotateAll (visits : List (Expr × Ty)) : Pass Unit :=
  forM visits fun visit => change fun table => table.annotateExpr visit.1 visit.2

/-- The annotations of visited expressions, in the order of the visits: each expression goes by its
id. Expressions with one id would be one entry of the table. -/
def annotationsOf (visits : List (Expr × Ty)) : List (ExprId × Ty) :=
  visits.map fun visit => (visit.1.id, visit.2)

/-- Visits of expressions that have no type yet, and have different ids, all succeed. -/
theorem Records.run_annotateAll {table : TypeTable} {entries : List (ExprId × Ty)}
    (h : table.Records entries) {visits : List (Expr × Ty)}
    (hnodup : ((entries ++ annotationsOf visits).map Prod.fst).Nodup) :
    ∃ table', (Pass.annotateAll visits).run.run table = (.ok (), table') ∧
      table'.Records (entries ++ annotationsOf visits) := by
  induction visits generalizing table entries with
  | nil => exact ⟨table, rfl, (List.append_nil entries).symm ▸ h⟩
  | cons visit visits ih =>
    obtain ⟨e, ty⟩ := visit
    rw [annotationsOf, List.map_cons, List.append_cons] at hnodup ⊢
    have hid : e.id ∉ entries.map Prod.fst := by
      rw [List.map_append, List.map_append, List.append_assoc] at hnodup
      exact fun hmem => List.disjoint_of_nodup_append hnodup hmem List.mem_cons_self
    have hrun : (Pass.change fun table => table.annotateExpr e ty).run.run table =
        (.ok (), ⟨table.types.insert e.id ty⟩) := by
      refine (run_annotate table e.id ty).trans ?_
      rw [h.typeOf_eq_none_iff.2 hid]
    obtain ⟨table', hrest, hrecords⟩ := ih (h.insert hid ty) hnodup
    refine ⟨table', ?_, hrecords⟩
    rw [Pass.annotateAll, List.forM_cons, ExceptT.run_bind, StateT.run_bind, hrun]
    exact hrest

/-- Among visits of different expressions, each expression is looked up with its own type. -/
theorem lookup_annotationsOf {visits : List (Expr × Ty)}
    (hnodup : ((annotationsOf visits).map Prod.fst).Nodup) {e : Expr} {ty : Ty}
    (h : (e, ty) ∈ visits) : (annotationsOf visits).lookup e.id = some ty := by
  obtain ⟨before, behind, rfl⟩ := List.append_of_mem h
  refine List.lookup_eq_some_iff.2
    ⟨annotationsOf before, annotationsOf behind, by simp [annotationsOf], fun entry hentry => ?_⟩
  refine bne_iff_ne.2 fun heq => ?_
  rw [annotationsOf, List.map_append, List.map_append] at hnodup
  exact List.disjoint_of_nodup_append hnodup (List.mem_map_of_mem hentry) (heq ▸ by simp)

/-- A pass over expressions with different ids gives each of them its own type. -/
theorem run_annotateAll {visits : List (Expr × Ty)}
    (hnodup : (visits.map fun visit => visit.1.id).Nodup) :
    ∃ table, (Pass.annotateAll visits).run.run empty = (.ok (), table) ∧
      table.size = visits.length ∧
      ∀ e ty, (e, ty) ∈ visits → table.typeOfExpr? e = some ty := by
  have hkeys : (annotationsOf visits).map Prod.fst = visits.map fun visit => visit.1.id := by
    rw [annotationsOf, List.map_map]
    rfl
  rw [← hkeys] at hnodup
  obtain ⟨table, hrun, hrecords⟩ := Records.empty.run_annotateAll
    (show (([] ++ annotationsOf visits).map Prod.fst).Nodup from hnodup)
  refine ⟨table, hrun, ?_, fun e ty h => ?_⟩
  · rw [hrecords.size, List.nil_append, List.toFinset_card_of_nodup hnodup, hkeys,
      List.length_map]
  · rw [typeOfExpr?, hrecords.typeOf]
    exact lookup_annotationsOf hnodup h

/-- The expressions of a program that was read have different ids, if there are enough ids. -/
theorem nodup_ids_of_parseText {file text : String} {p : Program}
    (h : parseText file text = .ok p) (hcount : (Node.program p).exprs.length < 2 ^ 32) :
    ((Node.program p).exprs.map Expr.id).Nodup := by
  obtain ⟨n, hcounts⟩ := Parser.countsUp_of_parse h
  have hperm : ((Node.program p).exprs.map Expr.id).Perm p.ids := (Node.program p).perm_ids
  have hlength := hperm.length_eq
  rw [List.length_map] at hlength
  exact hperm.nodup_iff.2 (hcounts.nodup (by omega))

/-- Since it was last cleared, a table holds an expression to the first type that it was annotated
with: it refuses to change it, reports it, and is the same afterwards. It takes any other annotation,
and has as many entries as expressions were annotated.

A pass over all expressions of a program that was read is never refused, in whatever order it visits
them. At any time, every expression that was visited has the type it was visited with. -/
theorem annotated_once :
    (∀ history : List Use,
      (∀ id, (after history).use (.typeOf id) =
        (.type ((annotations history).lookup id), after history)) ∧
      (∀ id ty existing, (annotations history).lookup id = some existing →
        (after history).use (.annotate id ty) = (.refused ⟨id, existing⟩, after history)) ∧
      (∀ id ty, (annotations history).lookup id = none →
        ((after history).use (.annotate id ty)).1 = .done) ∧
      (after history).size = ((annotations history).map Prod.fst).toFinset.card ∧
      ((after history).isEmpty = true ↔ (after history).size = 0)) ∧
    ∀ (file text : String) (p : Program) (visits : List (Expr × Ty)),
      parseText file text = .ok p → (Node.program p).exprs.length < 2 ^ 32 →
      (visits.map Prod.fst).Perm (Node.program p).exprs →
      (∃ table, (Pass.annotateAll visits).run.run empty = (.ok (), table) ∧
        table.size = (Node.program p).exprs.length ∧
        ∀ e ty, (e, ty) ∈ visits → table.typeOfExpr? e = some ty) ∧
      ∀ front, front <+: visits →
        ∃ table, (Pass.annotateAll front).run.run empty = (.ok (), table) ∧
          table.size = front.length ∧
          ∀ e ty, (e, ty) ∈ front → table.typeOfExpr? e = some ty := by
  refine ⟨fun history => ?_, fun file text p visits hp hcount hvisits => ?_⟩
  · have hrecords := records_after history
    refine ⟨fun id => ?_, fun id ty existing hfirst => ?_, fun id ty hfirst => ?_,
      hrecords.size, ?_⟩
    · rw [use, hrecords.typeOf]
    · rw [use, run_annotate, hrecords.typeOf, hfirst]
    · rw [use, run_annotate, hrecords.typeOf, hfirst]
    · rw [isEmpty, Std.HashMap.isEmpty_eq_size_eq_zero, beq_iff_eq, size]
  · have hnodup : (visits.map fun visit => visit.1.id).Nodup := by
      have hids := hvisits.map Expr.id
      rw [List.map_map] at hids
      exact hids.nodup_iff.2 (nodup_ids_of_parseText hp hcount)
    have hlength : visits.length = (Node.program p).exprs.length := by
      rw [← hvisits.length_eq, List.length_map]
    exact ⟨hlength ▸ run_annotateAll hnodup, fun front hfront =>
      run_annotateAll (hnodup.sublist (hfront.sublist.map _))⟩

/-- A second annotation behind a failed one and a cleared table, and a pass from the last expression
to the first. -/
theorem annotated_once_backwards :
    let history : List Use :=
      [.annotate 7 .boolean, .clear, .annotate 7 .integer, .annotate 7 .real, .annotate 3 .char]
    (after history).use (.annotate 7 .string) = (.refused ⟨7, .integer⟩, after history) ∧
      ((after history).use (.annotate 0 .string)).1 = .done ∧
      ∃ p, parseText "p.pas" "program p; begin x := a + f (1) end." = .ok p ∧
        ∃ table, (Pass.annotateAll ((Node.program p).exprs.reverse.map fun e => (e, .real))).run.run
            empty = (.ok (), table) ∧ table.size = 4 := by
  intro history
  obtain ⟨-, hrefused, haccepted, -, -⟩ := annotated_once.1 history
  refine ⟨hrefused 7 .string .integer (by decide), haccepted 0 .string (by decide), ?_⟩
  have hrun : (parseText "p.pas" "program p; begin x := a + f (1) end.").toOption.any fun p =>
      p.ids.length = 4 := by decide +kernel
  rcases h : parseText "p.pas" "program p; begin x := a + f (1) end." with _ | p
  · rw [h] at hrun
    cases hrun
  · have hlength : (Node.program p).exprs.length = 4 := by
      have hids : p.ids.length = 4 := by
        rw [h] at hrun
        exact of_decide_eq_true hrun
      have hperm := (Node.program p).perm_ids.length_eq
      rw [List.length_map] at hperm
      exact hperm.trans hids
    have hvisits : (((Node.program p).exprs.reverse.map fun e => (e, Ty.real)).map Prod.fst).Perm
        (Node.program p).exprs := by
      rw [List.map_map]
      exact (List.map_id _).symm ▸ (Node.program p).exprs.reverse_perm
    obtain ⟨table, hpass, hsize, -⟩ :=
      (annotated_once.2 "p.pas" _ p _ h (by omega) hvisits).1
    exact ⟨p, rfl, table, hpass, hsize.trans hlength⟩

end TypeTable

end MiniPascal
