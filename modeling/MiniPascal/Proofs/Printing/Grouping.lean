import Mathlib.Data.List.Nodup
import Mathlib.Data.List.TakeWhile
import MiniPascal.Print.Tree
import MiniPascal.Syntax.Map
import MiniPascal.Syntax.VarGroups

/-!
# Laws of grouping

Declarations are **grouped** if between two of one type there is none of another type. Grouping by
type gives grouped declarations and leaves these as they are (`VarDecl.regroup_eq_self_iff`). It
looks at types only, so it can be done before or after a change of tokens and ids, and it is what
printing does, so that it cannot be seen in a printed tree (`Program.print_regroup`).
-/

namespace MiniPascal

namespace VarDecl

/-- Whether between two declarations of one type there is none of another type. Such declarations
are as they are printed (`regroup_eq_self_iff`). -/
def Grouped (ds : List VarDecl) : Prop :=
  ∀ a b c : VarDecl, [a, b, c].Sublist ds → a.ty = c.ty → b.ty = a.ty

/-! ### Types and their declarations -/

theorem nodup_eraseDups {α : Type} [DecidableEq α] (as : List α) : as.eraseDups.Nodup := by
  induction hn : as.length using Nat.strong_induction_on generalizing as with
  | _ n ih =>
    cases as with
    | nil => exact List.nodup_nil
    | cons a as =>
      rw [List.eraseDups_cons, List.nodup_cons]
      refine ⟨?_, ih _ ?_ _ rfl⟩
      · rw [List.mem_eraseDups]
        simp
      · have hlength := List.length_filter_le (fun b => !b == a) as
        rw [List.length_cons] at hn
        omega

theorem nodup_types (ds : List VarDecl) : (types ds).Nodup :=
  nodup_eraseDups _

variable {ds xs ys : List VarDecl} {t : Ty}

/-- Declarations of one type in front of others give one more type. -/
theorem types_append (hne : xs ≠ []) (hxs : ∀ d ∈ xs, d.ty = t) (hys : ∀ d ∈ ys, d.ty ≠ t) :
    types (xs ++ ys) = t :: types ys := by
  obtain ⟨x, xs, rfl⟩ := List.exists_cons_of_ne_nil hne
  have hx : x.ty = t := hxs x List.mem_cons_self
  have hfirst : (xs.map ty).filter (fun u => !u == t) = [] := by
    rw [List.filter_eq_nil_iff]
    intro u hu
    obtain ⟨d, hd, rfl⟩ := List.mem_map.1 hu
    simp [hxs d (List.mem_cons_of_mem x hd)]
  have hrest : (ys.map ty).filter (fun u => !u == t) = ys.map ty := by
    rw [List.filter_eq_self]
    intro u hu
    obtain ⟨d, hd, rfl⟩ := List.mem_map.1 hu
    simp [hys d hd]
  rw [types, List.cons_append, List.map_cons, List.eraseDups_cons, List.map_append,
    List.filter_append, hx, hfirst, hrest]
  rfl

theorem ofType_eq_nil (h : ∀ d ∈ ds, d.ty ≠ t) : ofType ds t = [] := by
  rw [ofType, List.filter_eq_nil_iff]
  intro d hd
  rw [decide_eq_true_eq]
  exact h d hd

theorem ofType_eq_self (h : ∀ d ∈ ds, d.ty = t) : ofType ds t = ds := by
  rw [ofType, List.filter_eq_self]
  intro d hd
  rw [decide_eq_true_eq]
  exact h d hd

theorem ty_of_mem_ofType {d : VarDecl} (h : d ∈ ofType ds t) : d.ty = t :=
  of_decide_eq_true (List.mem_filter.1 h).2

theorem ofType_ne_nil (h : t ∈ types ds) : ofType ds t ≠ [] := by
  obtain ⟨d, hd, rfl⟩ := mem_types.1 h
  exact List.ne_nil_of_mem (List.mem_filter.2 ⟨hd, decide_eq_true rfl⟩)

/-- Declarations of other types, one type after the other, are not of this one. -/
theorem ty_ne_of_mem_flatMap {tys : List Ty} {d : VarDecl} (h : t ∉ tys)
    (hd : d ∈ tys.flatMap (ofType ds)) : d.ty ≠ t := by
  obtain ⟨u, hu, hmem⟩ := List.mem_flatMap.1 hd
  rw [ty_of_mem_ofType hmem]
  rintro rfl
  exact h hu

/-- Grouping keeps the types in their order. -/
theorem types_regroup (ds : List VarDecl) : types (regroup ds) = types ds := by
  have hall : ∀ tys : List Ty, tys.Nodup → (∀ t ∈ tys, ofType ds t ≠ []) →
      types (tys.flatMap (ofType ds)) = tys := by
    intro tys hnodup hne
    induction tys with
    | nil => rfl
    | cons t tys ih =>
      obtain ⟨hnot, hnodup⟩ := List.nodup_cons.1 hnodup
      obtain ⟨hfirst, hrest⟩ := List.forall_mem_cons.1 hne
      rw [List.flatMap_cons, types_append hfirst (fun _ => ty_of_mem_ofType)
        (fun _ => ty_ne_of_mem_flatMap hnot), ih hnodup hrest]
  exact hall _ (nodup_types ds) fun _ => ofType_ne_nil

theorem ofType_append (xs ys : List VarDecl) (t : Ty) :
    ofType (xs ++ ys) t = ofType xs t ++ ofType ys t :=
  List.filter_append xs ys

/-- Grouping keeps the declarations of one type in their order. -/
theorem ofType_regroup (ds : List VarDecl) (t : Ty) : ofType (regroup ds) t = ofType ds t := by
  have hall : ∀ tys : List Ty, tys.Nodup → t ∈ tys →
      ofType (tys.flatMap (ofType ds)) t = ofType ds t := by
    intro tys hnodup hmem
    induction tys with
    | nil => cases hmem
    | cons u tys ih =>
      obtain ⟨hnot, hnodup⟩ := List.nodup_cons.1 hnodup
      rw [List.flatMap_cons, ofType_append]
      obtain rfl | hmem := List.mem_cons.1 hmem
      · rw [ofType_eq_self fun _ => ty_of_mem_ofType,
          ofType_eq_nil fun _ => ty_ne_of_mem_flatMap hnot, List.append_nil]
      · have hother : ∀ d ∈ ofType ds u, d.ty ≠ t := by
          intro d hd
          rw [ty_of_mem_ofType hd]
          rintro rfl
          exact hnot hmem
        rw [ofType_eq_nil hother, List.nil_append, ih hnodup hmem]
  by_cases hmem : t ∈ types ds
  · exact hall _ (nodup_types ds) hmem
  · have hnone : ∀ d ∈ ds, d.ty ≠ t := fun d hd htype => hmem (mem_types.2 ⟨d, hd, htype⟩)
    rw [ofType_eq_nil hnone, ofType_eq_nil fun d hd => hnone d (mem_regroup.1 hd)]

/-- Grouping loses no declaration and adds none. -/
theorem perm_regroup (ds : List VarDecl) : (regroup ds).Perm ds := by
  have hcount : ∀ (ds : List VarDecl) (d : VarDecl), (ofType ds d.ty).count d = ds.count d :=
    fun ds d => List.count_filter (decide_eq_true rfl)
  rw [List.perm_iff_count]
  intro d
  rw [← hcount, ofType_regroup, hcount]

/-! ### Grouped declarations -/

/-- Declarations of one type are grouped with others in front of which they stand. -/
theorem grouped_append (hxs : ∀ d ∈ xs, d.ty = t) (hys : ∀ d ∈ ys, d.ty ≠ t) (h : Grouped ys) :
    Grouped (xs ++ ys) := by
  intro a b c hsub hty
  -- by how many of the three stand in front: all or none, since the outer ones are of one type
  obtain ⟨front, back, hsplit, hfront, hback⟩ := List.sublist_append_iff.1 hsub
  match front, hsplit with
  | [], hsplit => exact h a b c (hsplit ▸ hback) hty
  | [_], hsplit =>
    cases hsplit
    have ha : a.ty = t := hxs a (hfront.subset List.mem_cons_self)
    exact absurd (hty ▸ ha) (hys c (hback.subset (by simp)))
  | [_, _], hsplit =>
    cases hsplit
    have ha : a.ty = t := hxs a (hfront.subset List.mem_cons_self)
    exact absurd (hty ▸ ha) (hys c (hback.subset (by simp)))
  | _ :: _ :: _ :: front, hsplit =>
    simp only [List.cons_append, List.cons.injEq] at hsplit
    obtain ⟨rfl, rfl, rfl, -⟩ := hsplit
    rw [hxs _ (hfront.subset List.mem_cons_self), hxs _ (hfront.subset (by simp))]

theorem Grouped.of_sublist (h : Grouped ds) (hsub : xs.Sublist ds) : Grouped xs :=
  fun a b c hlist => h a b c (hlist.trans hsub)

theorem grouped_regroup (ds : List VarDecl) : Grouped (regroup ds) := by
  have hall : ∀ tys : List Ty, tys.Nodup → Grouped (tys.flatMap (ofType ds)) := by
    intro tys hnodup
    induction tys with
    | nil => exact fun a b c hsub => by cases hsub
    | cons t tys ih =>
      obtain ⟨hnot, hnodup⟩ := List.nodup_cons.1 hnodup
      rw [List.flatMap_cons]
      exact grouped_append (fun _ => ty_of_mem_ofType) (fun _ => ty_ne_of_mem_flatMap hnot)
        (ih hnodup)
  exact hall _ (nodup_types ds)

/-- Declarations of one type in front of others stay there. -/
theorem regroup_append (hne : xs ≠ []) (hxs : ∀ d ∈ xs, d.ty = t) (hys : ∀ d ∈ ys, d.ty ≠ t) :
    regroup (xs ++ ys) = xs ++ regroup ys := by
  have hrest : (types ys).flatMap (ofType (xs ++ ys)) = (types ys).flatMap (ofType ys) := by
    refine List.flatMap_congr fun u hu => ?_
    obtain ⟨d, hd, rfl⟩ := mem_types.1 hu
    have hother : ∀ x ∈ xs, x.ty ≠ d.ty := fun x hx htype => hys d hd (htype ▸ hxs x hx)
    rw [ofType_append, ofType_eq_nil hother, List.nil_append]
  rw [regroup, types_append hne hxs hys, List.flatMap_cons, hrest, ofType_append,
    ofType_eq_self hxs, ofType_eq_nil hys, List.append_nil]
  rfl

/-- Grouped declarations stay as they are. -/
theorem regroup_of_grouped (h : Grouped ds) : regroup ds = ds := by
  induction hn : ds.length using Nat.strong_induction_on generalizing ds with
  | _ n ih =>
    cases ds with
    | nil => rfl
    | cons d ds =>
      -- the longest beginning of one type takes all declarations of that type
      obtain ⟨xs, ys, hsplit, hxs, hys⟩ : ∃ xs ys, ds = xs ++ ys ∧ (∀ e ∈ xs, e.ty = d.ty) ∧
          ∀ e ∈ ys.head?, e.ty ≠ d.ty := by
        refine ⟨ds.takeWhile (·.ty = d.ty), ds.dropWhile (·.ty = d.ty),
          List.takeWhile_append_dropWhile.symm, fun e he => ?_, fun e he => ?_⟩
        · have htype := List.mem_takeWhile_imp he
          exact of_decide_eq_true htype
        · have hhead := List.head?_dropWhile_not (·.ty = d.ty) ds
          rw [he] at hhead
          simpa using hhead
      have hother : ∀ e ∈ ys, e.ty ≠ d.ty := by
        intro e he htype
        cases ys with
        | nil => cases he
        | cons y ys =>
          obtain rfl | he := List.mem_cons.1 he
          · exact hys e rfl htype
          · have hsub : [d, y, e].Sublist (d :: ds) := by
              rw [hsplit]
              refine .cons_cons d (List.Sublist.trans ?_ (List.sublist_append_right _ _))
              exact .cons_cons y (List.singleton_sublist.2 he)
            exact hys y rfl (h d y e hsub htype.symm)
      have hsub : ys.Sublist (d :: ds) := by
        rw [hsplit, ← List.cons_append]
        exact List.sublist_append_right _ _
      have hlength : ys.length < n := by
        rw [← hn, hsplit, List.length_cons, List.length_append]
        omega
      rw [hsplit, ← List.cons_append, regroup_append (List.cons_ne_nil d xs)
        (List.forall_mem_cons.2 ⟨rfl, hxs⟩) hother, ih _ hlength (h.of_sublist hsub) rfl]

/-- Exactly the grouped declarations stay as they are. -/
theorem regroup_eq_self_iff : regroup ds = ds ↔ Grouped ds :=
  ⟨fun h => h ▸ grouped_regroup ds, regroup_of_grouped⟩

/-! ### Changes of names -/

variable (f : Token → Token)

theorem types_map (ds : List VarDecl) : types (ds.map (map f)) = types ds := by
  rw [types, List.map_map]
  rfl

theorem ofType_map (ds : List VarDecl) (t : Ty) :
    ofType (ds.map (map f)) t = (ofType ds t).map (map f) := by
  rw [ofType, List.filter_map]
  rfl

/-- Grouping looks at types only. -/
theorem regroup_map (ds : List VarDecl) : regroup (ds.map (map f)) = (regroup ds).map (map f) := by
  rw [regroup, types_map, regroup, List.map_flatMap]
  exact List.flatMap_congr fun t _ => ofType_map f ds t

/-- Whether declarations are grouped is a matter of types only. -/
theorem grouped_map (ds : List VarDecl) : Grouped (ds.map (map f)) ↔ Grouped ds := by
  constructor
  · intro h a b c hsub
    exact h (a.map f) (b.map f) (c.map f) (hsub.map (map f))
  · intro h a b c hsub
    obtain ⟨as, hpreimage, has⟩ := List.sublist_map_iff.1 hsub
    have hlength : as.length = 3 := by
      have hmapped := congrArg List.length has
      rw [List.length_map] at hmapped
      exact hmapped.symm
    obtain ⟨a', b', c', rfl⟩ := List.length_eq_three.1 hlength
    cases has
    exact h a' b' c' hpreimage

end VarDecl

/-! ### Blocks at every depth -/

mutual

/-- Whether the variables of a block and of all blocks in it are grouped. The parameters of routines
need not be. -/
def Block.Grouped : Block → Prop
  | ⟨vars, routines, _⟩ => VarDecl.Grouped vars ∧ Routine.GroupedList routines

/-- Whether the variables of all blocks of a routine are grouped. Its parameters need not be, since
they are printed one by one. -/
def Routine.Grouped : Routine → Prop
  | ⟨_, _, _, block⟩ => block.Grouped

/-- Whether the variables of all blocks of a list of routines are grouped, each routine by
itself. -/
def Routine.GroupedList : List Routine → Prop
  | [] => True
  | routine :: rest => routine.Grouped ∧ Routine.GroupedList rest

end

/-- Whether in every block of a program the variables of each type are next to each other. Such
programs come back unchanged when they are printed and read. -/
def Program.Grouped (program : Program) : Prop :=
  program.block.Grouped

mutual

theorem Block.regroup_eq_self_iff (b : Block) : b.regroup = b ↔ b.Grouped := by
  obtain ⟨vars, routines, body⟩ := b
  rw [Block.regroup, Block.Grouped, Block.mk.injEq, VarDecl.regroup_eq_self_iff,
    Routine.regroupList_eq_self_iff]
  simp only [and_true]

theorem Routine.regroup_eq_self_iff (r : Routine) : r.regroup = r ↔ r.Grouped := by
  obtain ⟨name, params, result, block⟩ := r
  rw [Routine.regroup, Routine.Grouped, Routine.mk.injEq, Block.regroup_eq_self_iff]
  simp only [true_and]

theorem Routine.regroupList_eq_self_iff (rs : List Routine) :
    Routine.regroupList rs = rs ↔ Routine.GroupedList rs := by
  cases rs with
  | nil => exact iff_of_true rfl trivial
  | cons r rs =>
    rw [Routine.regroupList, Routine.GroupedList, List.cons.injEq, Routine.regroup_eq_self_iff,
      Routine.regroupList_eq_self_iff]

end

mutual

theorem Block.regroup_map (f : Token → Token) (g : ExprId → ExprId) (b : Block) :
    (b.map f g).regroup = b.regroup.map f g := by
  obtain ⟨vars, routines, body⟩ := b
  rw [Block.map, Block.regroup, Block.regroup, Block.map, VarDecl.regroup_map,
    Routine.regroupList_mapList]

theorem Routine.regroup_map (f : Token → Token) (g : ExprId → ExprId) (r : Routine) :
    (r.map f g).regroup = r.regroup.map f g := by
  obtain ⟨name, params, result, block⟩ := r
  rw [Routine.map, Routine.regroup, Routine.regroup, Routine.map, Block.regroup_map]

theorem Routine.regroupList_mapList (f : Token → Token) (g : ExprId → ExprId) (rs : List Routine) :
    Routine.regroupList (Routine.mapList f g rs) =
      Routine.mapList f g (Routine.regroupList rs) := by
  cases rs with
  | nil => rfl
  | cons r rs =>
    rw [Routine.mapList, Routine.regroupList, Routine.regroupList, Routine.mapList,
      Routine.regroup_map, Routine.regroupList_mapList]

end

mutual

theorem Block.grouped_map (f : Token → Token) (g : ExprId → ExprId) (b : Block) :
    (b.map f g).Grouped ↔ b.Grouped := by
  obtain ⟨vars, routines, body⟩ := b
  rw [Block.map, Block.Grouped, Block.Grouped, VarDecl.grouped_map, Routine.groupedList_mapList]

theorem Routine.grouped_map (f : Token → Token) (g : ExprId → ExprId) (r : Routine) :
    (r.map f g).Grouped ↔ r.Grouped := by
  obtain ⟨name, params, result, block⟩ := r
  rw [Routine.map, Routine.Grouped, Routine.Grouped, Block.grouped_map]

theorem Routine.groupedList_mapList (f : Token → Token) (g : ExprId → ExprId) (rs : List Routine) :
    Routine.GroupedList (Routine.mapList f g rs) ↔ Routine.GroupedList rs := by
  cases rs with
  | nil => exact Iff.rfl
  | cons r rs =>
    rw [Routine.mapList, Routine.GroupedList, Routine.GroupedList, Routine.grouped_map,
      Routine.groupedList_mapList]

end

/-- A regrouped program is the same as before exactly if its variables were grouped. -/
theorem Program.regroup_same_iff (p : Program) : p.regroup.same p = true ↔ p.Grouped := by
  have hmap : p.regroup.unplaced = p.unplaced.regroup := by
    rw [Program.unplaced, Program.unplaced, Program.regroup, Program.regroup, Program.map,
      Program.map, Block.regroup_map]
  rw [Program.same_iff, hmap, Program.regroup, Program.unplaced, Program.map, Program.mk.injEq,
    Block.regroup_eq_self_iff, Block.grouped_map]
  exact and_iff_right rfl

/-! ### Sizes -/

mutual

/-- Grouping changes no number of nodes. -/
theorem Block.size_regroup (b : Block) : b.regroup.size = b.size := by
  obtain ⟨vars, routines, body⟩ := b
  rw [Block.regroup, Block.size, Block.size, (VarDecl.perm_regroup vars).length_eq,
    Routine.sizeList_regroupList]

/-- Grouping changes no number of nodes. -/
theorem Routine.size_regroup (r : Routine) : r.regroup.size = r.size := by
  obtain ⟨name, params, result, block⟩ := r
  rw [Routine.regroup, Routine.size, Routine.size, Block.size_regroup]

/-- Grouping changes no number of nodes. -/
theorem Routine.sizeList_regroupList (rs : List Routine) :
    Routine.sizeList (Routine.regroupList rs) = Routine.sizeList rs := by
  cases rs with
  | nil => rfl
  | cons r rs =>
    rw [Routine.regroupList, Routine.sizeList, Routine.sizeList, Routine.size_regroup,
      Routine.sizeList_regroupList]

end

/-- Grouping changes no number of nodes. -/
theorem Program.size_regroup (p : Program) : p.regroup.size = p.size := by
  rw [Program.size, Program.size, Program.regroup, Block.size_regroup]

/-! ### Printing -/

/-- Grouping changes nothing in printed variables. -/
theorem VarDecl.printSection_regroup (vars : List VarDecl) (level : Nat) :
    printSection (regroup vars) level = printSection vars level := by
  have hgroup : ∀ t, printGroup (regroup vars) (level + 1) t = printGroup vars (level + 1) t :=
    fun t => by rw [printGroup, printGroup, ofType_regroup]
  have hempty : (regroup vars).isEmpty = vars.isEmpty := by
    rw [Bool.eq_iff_iff, List.isEmpty_iff, List.isEmpty_iff, List.eq_nil_iff_forall_not_mem,
      List.eq_nil_iff_forall_not_mem]
    simp only [mem_regroup]
  rw [printSection, printSection, hempty, types_regroup, List.map_congr_left fun t _ => hgroup t]

mutual

theorem Block.print_regroup (b : Block) (level : Nat) : b.regroup.print level = b.print level := by
  obtain ⟨vars, routines, body⟩ := b
  rw [Block.regroup, Block.print, Block.print, VarDecl.printSection_regroup,
    Routine.printList_regroupList]

theorem Routine.print_regroup (r : Routine) (level : Nat) :
    r.regroup.print level = r.print level := by
  obtain ⟨name, params, result, block⟩ := r
  simp only [Routine.regroup, Routine.print, Block.print_regroup]

theorem Routine.printList_regroupList (rs : List Routine) (level : Nat) :
    Routine.printList (Routine.regroupList rs) level = Routine.printList rs level := by
  cases rs with
  | nil => rfl
  | cons r rs =>
    rw [Routine.regroupList, Routine.printList, Routine.printList, Routine.print_regroup,
      Routine.printList_regroupList]

end

/-- Grouping changes nothing in a printed program. -/
theorem Program.print_regroup (p : Program) (level : Nat) :
    p.regroup.print level = p.print level := by
  rw [Program.print, Program.print, Program.regroup, Block.print_regroup]

end MiniPascal
