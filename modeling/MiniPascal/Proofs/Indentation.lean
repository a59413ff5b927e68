import MiniPascal.Print.Printer
import MiniPascal.Proofs.Diagnostics
import MiniPascal.Proofs.Ids
import MiniPascal.Proofs.Listing

/-!
# Indentation

What a printer prints depends on the level that it is at, and on nothing that it printed before
(`Printing.Keeps`). It leaves the level as it was and has not been below it on the way. So it prints
what the part of the tree is printed as at this level (`Node.keeps_emit`).

A part of a tree that stands deeper has more blanks behind every line feed, and is the same apart
from that (`Layout.Shifts`). This takes that no line feed is printed but those at the beginnings of
lines, so the texts of the tokens must stay on one line. Those of a program that was read do
(`oneLine_of_mem_outline`).
-/

namespace MiniPascal

/-! ### Printers keep their level -/

namespace Printing

variable {α β : Type}

/-- Whether an action of a printer **keeps** its level: it has a result for each level, leaves the
printer at the level it was at, and goes to no level below that. -/
def Keeps (x : Printing α) (result : Nat → α) : Prop :=
  ∀ printer : Printer, ∃ visited,
    x printer = some (result printer.level, ⟨printer.level, visited ++ printer.past⟩) ∧
      ∀ level ∈ visited, printer.level ≤ level

namespace Keeps

theorem pure (a : α) : Keeps (Pure.pure a) fun _ => a :=
  fun _ => ⟨[], rfl, List.forall_mem_nil _⟩

theorem line (text : String) : Keeps (Printing.line text) fun level => Layout.line level text :=
  fun _ => ⟨[], rfl, List.forall_mem_nil _⟩

theorem bind {x : Printing α} {f : α → Printing β} {a : Nat → α} {b : α → Nat → β}
    (hx : Keeps x a) (hf : ∀ v, Keeps (f v) (b v)) :
    Keeps (x >>= f) fun level => b (a level) level := by
  intro printer
  obtain ⟨visited, hrun, hlow⟩ := hx printer
  obtain ⟨visited', hrun', hlow'⟩ := hf (a printer.level) ⟨printer.level, visited ++ printer.past⟩
  refine ⟨visited' ++ visited, ?_, List.forall_mem_append.2 ⟨hlow', hlow⟩⟩
  change (x printer >>= fun r => f r.1 r.2) = _
  rw [hrun, List.append_assoc]
  exact hrun'

theorem map {x : Printing α} {a : Nat → α} (g : α → β) (hx : Keeps x a) :
    Keeps (g <$> x) fun level => g (a level) := by
  rw [map_eq_pure_bind]
  exact hx.bind fun v => .pure (g v)

theorem ite {c : Prop} [Decidable c] {x y : Printing α} {a b : Nat → α} (hx : Keeps x a)
    (hy : Keeps y b) : Keeps (if c then x else y) fun level => if c then a level else b level := by
  split
  · exact hx
  · exact hy

/-- What is printed deeper goes back to the level that it came from. -/
theorem nested {x : Printing String} {text : Nat → String} (hx : Keeps x text) :
    Keeps (Printing.nested x) fun level => text (level + 1) := by
  intro printer
  obtain ⟨visited, hrun, hlow⟩ := hx ⟨printer.level + 1, printer.level :: printer.past⟩
  refine ⟨(printer.level + 1) :: (visited ++ [printer.level]), ?_, ?_⟩
  · change (x ⟨printer.level + 1, printer.level :: printer.past⟩ >>= fun r =>
      lower r.2 >>= fun r' => some (r.1, r'.2)) = _
    rw [hrun]
    simp [lower]
  · intro level hlevel
    simp only [List.mem_cons, List.mem_append, List.not_mem_nil, or_false] at hlevel
    obtain rfl | hlevel | rfl := hlevel
    · omega
    · exact Nat.le_of_succ_le (hlow level hlevel)
    · exact Nat.le_refl _

theorem enclosed {x : Printing String} {text : Nat → String} (hx : Keeps x text) :
    Keeps (Printing.enclosed x) fun level => Layout.enclose level (text (level + 1)) :=
  .bind (.line _) fun _ => .bind hx.nested fun _ => .bind (.line _) fun _ => .pure _

theorem mapM {xs : List α} {f : α → Printing β} {b : α → Nat → β} (hf : ∀ a, Keeps (f a) (b a)) :
    Keeps (xs.mapM f) fun level => xs.map fun a => b a level := by
  induction xs with
  | nil => exact .pure []
  | cons a xs ih =>
    rw [List.mapM_cons]
    exact (hf a).bind fun v => ih.bind fun vs => .pure (v :: vs)

end Keeps

end Printing

open Printing

namespace Expr

mutual

theorem keeps_emit (e : Expr) : Keeps e.emit fun _ => e.print := by
  cases e with
  | literal | name => exact .pure _
  | unary _ op operand =>
    exact .bind (keeps_emit operand) fun _ => .ite (.pure _) (.ite (.pure _) (.pure _))
  | binary _ left op right =>
    exact .bind (keeps_emit left) fun _ => .bind (keeps_emit right) fun _ => .pure _
  | call _ callee args => exact .bind (keeps_emitList args) fun _ => .pure _

theorem keeps_emitList (es : List Expr) : Keeps (emitList es) fun _ => printList es := by
  cases es with
  | nil => exact .pure _
  | cons e es => exact .bind (keeps_emit e) fun _ => .bind (keeps_emitList es) fun _ => .pure _

end

end Expr

namespace Stmt

mutual

theorem keeps_emit (s : Stmt) : Keeps s.emit s.print := by
  cases s with
  | write newline args => exact .bind (Expr.keeps_emitList args) fun _ => .line _
  | read => exact .line _
  | assign _ value => exact .bind value.keeps_emit fun _ => .line _
  | call _ args => exact .bind (Expr.keeps_emitList args) fun _ => .line _
  | ifThen condition body | whileDo condition body =>
    exact .bind condition.keeps_emit fun _ => .bind (.line _) fun _ =>
      .bind (keeps_emitList body).enclosed.nested fun _ => .pure _
  | ifElse condition body otherwise =>
    exact .bind condition.keeps_emit fun _ => .bind (.line _) fun _ =>
      .bind (keeps_emitList body).enclosed.nested fun _ => .bind (.line _) fun _ =>
        .bind (keeps_emitList otherwise).enclosed.nested fun _ => .pure _
  | repeatUntil body condition =>
    exact .bind (.line _) fun _ => .bind (keeps_emitList body).nested fun _ =>
      .bind condition.keeps_emit fun _ => .bind (.line _) fun _ => .pure _
  | forLoop counter first direction last body =>
    exact .bind first.keeps_emit fun _ => .bind last.keeps_emit fun _ => .bind (.line _) fun _ =>
      .bind (keeps_emitList body).enclosed.nested fun _ => .pure _
  | compound body => exact (keeps_emitList body).enclosed

theorem keeps_emitList (ss : List Stmt) : Keeps (emitList ss) (printList ss) := by
  cases ss with
  | nil => exact .pure _
  | cons s ss => exact .bind (keeps_emit s) fun _ => .bind (keeps_emitList ss) fun _ => .pure _

end

end Stmt

namespace VarDecl

theorem keeps_emitParams (params : List VarDecl) :
    Keeps (emitParams params) fun _ => printParams params :=
  .bind (.mapM fun _ => .pure _) fun _ => .pure _

theorem keeps_emitSection (vars : List VarDecl) :
    Keeps (emitSection vars) (printSection vars) :=
  .ite (.pure _) (.bind (.line _) fun _ => .bind (Keeps.map _ (.mapM fun _ => .line _)).nested
    fun _ => .pure _)

end VarDecl

mutual

theorem Block.keeps_emit (b : Block) : Keeps b.emit b.print := by
  obtain ⟨vars, routines, body⟩ := b
  exact .bind (VarDecl.keeps_emitSection vars) fun _ =>
    .bind (Routine.keeps_emitList routines) fun _ =>
      .bind (Stmt.keeps_emitList body).enclosed fun _ => .pure _

theorem Routine.keeps_emit (r : Routine) : Keeps r.emit r.print := by
  obtain ⟨name, params, result, block⟩ := r
  exact .bind (VarDecl.keeps_emitParams params) fun _ => .bind (.line _) fun _ =>
    .bind (Block.keeps_emit block).nested fun _ => .pure _

theorem Routine.keeps_emitList (rs : List Routine) :
    Keeps (Routine.emitList rs) (Routine.printList rs) := by
  cases rs with
  | nil => exact .pure _
  | cons r rs =>
    exact .bind (Routine.keeps_emit r) fun _ => .bind (Routine.keeps_emitList rs) fun _ => .pure _

end

/-- A printer prints any part of a tree as what it is printed as at the level of the printer. -/
theorem Node.keeps_emit (node : Node) : Keeps node.emit node.print := by
  cases node with
  | program p => exact .bind p.block.keeps_emit fun _ => .pure _
  | block b => exact b.keeps_emit
  | declarations vars routines =>
    exact .bind (VarDecl.keeps_emitSection vars) fun _ =>
      .bind (Routine.keeps_emitList routines) fun _ => .pure _
  | varDecl v => exact .pure _
  | routine r => exact r.keeps_emit
  | params ps => exact VarDecl.keeps_emitParams ps
  | stmt s => exact s.keeps_emit
  | expr e => exact e.keeps_emit

/-! ### Deeper levels -/

namespace Layout

/-- A text with more blanks behind every line feed, and so with all its lines but the first further
to the right. -/
def shift (count : Nat) (text : String) : String :=
  String.ofList (text.toList.flatMap fun c =>
    if c = '\n' then c :: List.replicate count ' ' else [c])

theorem shift_append (count : Nat) (text more : String) :
    shift count (text ++ more) = shift count text ++ shift count more := by
  rw [shift, String.toList_append, List.flatMap_append, String.ofList_append]
  rfl

theorem shift_of_oneLine (count : Nat) {text : String} (h : OneLine text) :
    shift count text = text := by
  have hall : ∀ c ∈ text.toList,
      (if c = '\n' then c :: List.replicate count ' ' else [c]) = [c] :=
    fun c hc => if_neg fun hnewline : c = '\n' => h (hnewline ▸ hc)
  rw [shift, List.flatMap_congr hall, List.flatMap_singleton', String.ofList_toList]

/-- A line that is shifted stands at a deeper level. -/
theorem shift_line {text : String} (h : OneLine text) (level deeper : Nat) :
    shift (indentWidth * deeper) (line level text) = line (level + deeper) text := by
  have hindent : OneLine (indent level) := OneLine.blanks _
  have hnewline : shift (indentWidth * deeper) "\n" = "\n" ++ indent deeper := by
    simp [shift, indent]
  have hblanks : indent deeper ++ indent level = indent (level + deeper) := by
    rw [indent, indent, indent, ← String.ofList_append, List.replicate_append_replicate]
    congr 2
    rw [Nat.mul_add, Nat.add_comm]
  have hline : "\n" ++ indent deeper ++ indent level = "\n" ++ indent (level + deeper) := by
    rw [String.append_assoc, hblanks]
  rw [line, shift_append, shift_append, hnewline, shift_of_oneLine _ hindent,
    shift_of_oneLine _ h, hline, line]

/-- Whether what is printed at a deeper level is the same but for more blanks behind every line
feed. Texts put together from such texts do so, too. -/
def Shifts (text : Nat → String) : Prop :=
  ∀ level deeper, shift (indentWidth * deeper) (text level) = text (level + deeper)

namespace Shifts

variable {text text' : Nat → String}

theorem const {s : String} (h : OneLine s) : Shifts fun _ => s :=
  fun _ _ => shift_of_oneLine _ h

theorem line {s : String} (h : OneLine s) : Shifts fun level => Layout.line level s :=
  shift_line h

theorem append (h : Shifts text) (h' : Shifts text') :
    Shifts fun level => text level ++ text' level := by
  intro level deeper
  rw [shift_append, h, h']

theorem deeper (h : Shifts text) (levels : Nat) : Shifts fun level => text (level + levels) := by
  intro level deeper
  rw [h, Nat.add_right_comm]

theorem enclosed (h : Shifts text) :
    Shifts fun level => Layout.enclose level (text (level + 1)) :=
  ((line (by decide)).append (h.deeper 1)).append (line (by decide))

theorem join {α : Type} {xs : List α} {f : α → Nat → String} (h : ∀ x ∈ xs, Shifts (f x)) :
    Shifts fun level => String.join (xs.map fun x => f x level) := by
  induction xs with
  | nil => exact .const (by decide)
  | cons x xs ih =>
    obtain ⟨hx, hxs⟩ := List.forall_mem_cons.1 h
    simp only [List.map_cons, String.join_cons]
    exact hx.append (ih hxs)

end Shifts

end Layout

open Layout

theorem OneLine.parenthesized {texts : List String} (h : ∀ t ∈ texts, OneLine t) :
    OneLine (parenthesized texts) :=
  (OneLine.append (by decide) (OneLine.intercalate (by decide) h)).append (by decide)

namespace Expr

mutual

/-- An expression is printed on one line. -/
theorem oneLine_print (e : Expr) (h : ∀ t ∈ e.tokens, OneLine t.text) : OneLine e.print := by
  cases e with
  | literal _ value => exact Token.oneLine_display (h value (List.mem_singleton_self _))
  | name _ token => exact h token (List.mem_singleton_self _)
  | unary _ op operand =>
    obtain ⟨hop, hoperand⟩ := List.forall_mem_cons.1 h
    have htext := oneLine_print operand hoperand
    rw [print]
    split
    · exact hop.append htext
    · split
      · exact ((hop.append (by decide)).append htext).append (by decide)
      · exact (hop.append (by decide)).append htext
  | binary _ left op right =>
    obtain ⟨hleft, hrest⟩ := List.forall_mem_append.1 h
    obtain ⟨hop, hright⟩ := List.forall_mem_cons.1 hrest
    rw [print]
    exact ((((((OneLine.append (by decide) (oneLine_print left hleft)).append (by decide)).append
      hop).append (by decide)).append (oneLine_print right hright)).append (by decide))
  | call _ callee args =>
    obtain ⟨hcallee, hargs⟩ := List.forall_mem_cons.1 h
    rw [print]
    exact ((Token.oneLine_display hcallee).append (by decide)).append
      (.parenthesized (oneLine_printList args hargs))

/-- Each of several expressions is printed on one line. -/
theorem oneLine_printList (es : List Expr) (h : ∀ t ∈ tokensList es, OneLine t.text) :
    ∀ text ∈ printList es, OneLine text := by
  cases es with
  | nil => exact List.forall_mem_nil _
  | cons e es =>
    obtain ⟨he, hes⟩ := List.forall_mem_append.1 h
    exact List.forall_mem_cons.2 ⟨oneLine_print e he, oneLine_printList es hes⟩

end

end Expr

namespace Stmt

mutual

/-- A statement that stands deeper is the same but for its indentation. -/
theorem shifts_print (s : Stmt) (h : ∀ t ∈ s.tokens, OneLine t.text) : Shifts s.print := by
  cases s with
  | write newline args =>
    have hargs := OneLine.parenthesized (Expr.oneLine_printList args h)
    have hword : OneLine (if newline then Keyword.writeln else .write).spelling := by
      cases newline <;> decide
    exact .line ((hword.append (by decide)).append hargs)
  | read target =>
    have htarget := Token.oneLine_display (h target (List.mem_singleton_self _))
    exact .line ((OneLine.append (by decide) htarget).append (by decide))
  | assign target value =>
    obtain ⟨htarget, hvalue⟩ := List.forall_mem_cons.1 h
    exact .line (((Token.oneLine_display htarget).append (by decide)).append
      (value.oneLine_print hvalue))
  | call callee args =>
    obtain ⟨hcallee, hargs⟩ := List.forall_mem_cons.1 h
    exact .line (((Token.oneLine_display hcallee).append (by decide)).append
      (.parenthesized (Expr.oneLine_printList args hargs)))
  | ifThen condition body | whileDo condition body =>
    obtain ⟨hcondition, hbody⟩ := List.forall_mem_append.1 h
    have htext := condition.oneLine_print hcondition
    exact (Shifts.line ((OneLine.append (by decide) htext).append (by decide))).append
      ((shifts_printList body hbody).enclosed.deeper 1)
  | ifElse condition body otherwise =>
    obtain ⟨hbefore, hotherwise⟩ := List.forall_mem_append.1 h
    obtain ⟨hcondition, hbody⟩ := List.forall_mem_append.1 hbefore
    have htext := condition.oneLine_print hcondition
    exact (((Shifts.line ((OneLine.append (by decide) htext).append (by decide))).append
      ((shifts_printList body hbody).enclosed.deeper 1)).append (.line (by decide))).append
      ((shifts_printList otherwise hotherwise).enclosed.deeper 1)
  | repeatUntil body condition =>
    obtain ⟨hbody, hcondition⟩ := List.forall_mem_append.1 h
    have htext := condition.oneLine_print hcondition
    exact ((Shifts.line (by decide)).append ((shifts_printList body hbody).deeper 1)).append
      (.line (OneLine.append (by decide) htext))
  | forLoop counter first direction last body =>
    obtain ⟨hcounter, hrest⟩ := List.forall_mem_cons.1 h
    obtain ⟨hbounds, hbody⟩ := List.forall_mem_append.1 hrest
    obtain ⟨hfirst, hlast⟩ := List.forall_mem_append.1 hbounds
    have hassign := (OneLine.append (show OneLine "for " by decide)
      (Token.oneLine_display hcounter)).append (show OneLine " := " by decide)
    have hdirection : OneLine direction.keyword.spelling := by cases direction <;> decide
    have hheading := (((((hassign.append (first.oneLine_print hfirst)).append
      (show OneLine " " by decide)).append hdirection).append
      (show OneLine " " by decide)).append (last.oneLine_print hlast)).append
      (show OneLine " do" by decide)
    exact (Shifts.line hheading).append ((shifts_printList body hbody).enclosed.deeper 1)
  | compound body => exact (shifts_printList body h).enclosed

/-- Statements that stand deeper are the same but for their indentation. -/
theorem shifts_printList (ss : List Stmt) (h : ∀ t ∈ tokensList ss, OneLine t.text) :
    Shifts (printList ss) := by
  cases ss with
  | nil => exact .const (show OneLine "" by decide)
  | cons s ss =>
    obtain ⟨hs, hss⟩ := List.forall_mem_append.1 h
    exact ((shifts_print s hs).append (.const (show OneLine ";" by decide))).append
      (shifts_printList ss hss)

end

end Stmt

theorem Ty.oneLine_spelling (ty : Ty) : OneLine ty.spelling := by
  cases ty <;> decide

namespace VarDecl

/-- A declaration is printed on one line. -/
theorem oneLine_print {v : VarDecl} (h : OneLine v.name.text) : OneLine v.print :=
  ((Token.oneLine_display h).append (by decide)).append v.ty.oneLine_spelling

/-- A parameter list is printed on one line. -/
theorem oneLine_printParams {params : List VarDecl}
    (h : ∀ t ∈ params.map name, OneLine t.text) : OneLine (printParams params) :=
  .parenthesized (List.forall_mem_map.2 fun v hv =>
    oneLine_print (h v.name (List.mem_map_of_mem hv)))

/-- The variables of a block that stands deeper are the same but for their indentation. -/
theorem shifts_printSection {vars : List VarDecl} (h : ∀ t ∈ vars.map name, OneLine t.text) :
    Shifts (printSection vars) := by
  have hgroup : ∀ ty, OneLine (commaSeparated ((ofType vars ty).map fun decl => decl.name.text)) :=
    fun ty => .intercalate (by decide)
      (List.forall_mem_map.2 fun v hv =>
        h v.name (List.mem_map_of_mem (List.mem_of_mem_filter hv)))
  have hgroups : Shifts fun level => String.join ((types vars).map (printGroup vars level)) :=
    .join fun ty _ => .line ((((hgroup ty).append (by decide)).append ty.oneLine_spelling).append
      (by decide))
  cases vars with
  | nil => exact .const (show OneLine "" by decide)
  | cons v vars => exact (Shifts.line (by decide)).append (hgroups.deeper 1)

end VarDecl

mutual

/-- A block that stands deeper is the same but for its indentation. -/
theorem Block.shifts_print (b : Block) (h : ∀ t ∈ b.tokens, OneLine t.text) :
    Shifts b.print := by
  obtain ⟨vars, routines, body⟩ := b
  obtain ⟨hdeclared, hbody⟩ := List.forall_mem_append.1 h
  obtain ⟨hvars, hroutines⟩ := List.forall_mem_append.1 hdeclared
  exact ((VarDecl.shifts_printSection hvars).append
    (Routine.shifts_printList routines hroutines)).append
    (Stmt.shifts_printList body hbody).enclosed

/-- A routine that stands deeper is the same but for its indentation. -/
theorem Routine.shifts_print (r : Routine) (h : ∀ t ∈ r.tokens, OneLine t.text) :
    Shifts r.print := by
  obtain ⟨name, params, result, block⟩ := r
  obtain ⟨hname, hrest⟩ := List.forall_mem_cons.1 h
  obtain ⟨hparams, hblock⟩ := List.forall_mem_append.1 hrest
  have hname := Token.oneLine_display hname
  have hparams := VarDecl.oneLine_printParams hparams
  have hblock := (Block.shifts_print block hblock).deeper 1
  have hend : OneLine ";" := by decide
  cases result with
  | none =>
    have hheading : OneLine ("procedure " ++ name.display ++ " " ++ VarDecl.printParams params ++
        ";") :=
      (((OneLine.append (by decide) hname).append (by decide)).append hparams).append hend
    exact ((Shifts.line hheading).append hblock).append (.const hend)
  | some ty =>
    have hheading : OneLine ("function " ++ name.display ++ " " ++ VarDecl.printParams params ++
        " : " ++ ty.spelling ++ ";") :=
      (((((OneLine.append (by decide) hname).append (by decide)).append hparams).append
        (by decide)).append ty.oneLine_spelling).append hend
    exact ((Shifts.line hheading).append hblock).append (.const hend)

/-- Routines that stand deeper are the same but for their indentation. -/
theorem Routine.shifts_printList (rs : List Routine)
    (h : ∀ t ∈ Routine.tokensList rs, OneLine t.text) : Shifts (Routine.printList rs) := by
  cases rs with
  | nil => exact .const (show OneLine "" by decide)
  | cons r rs =>
    obtain ⟨hr, hrs⟩ := List.forall_mem_append.1 h
    exact (Routine.shifts_print r hr).append (Routine.shifts_printList rs hrs)

end

/-! ### Parts of trees -/

namespace Node

/-- The tokens of a part of a tree, from left to right, for parts of every sort. Their texts are
where line feeds could come from. -/
def tokens : Node → List Token
  | .program p => p.tokens
  | .block b => b.tokens
  | .declarations vars routines => vars.map VarDecl.name ++ Routine.tokensList routines
  | .varDecl v => [v.name]
  | .routine r => r.tokens
  | .params ps => ps.map VarDecl.name
  | .stmt s => s.tokens
  | .expr e => e.tokens

/-- A part that stands deeper is the same but for its indentation. -/
theorem shifts_print (node : Node) (h : ∀ t ∈ node.tokens, OneLine t.text) :
    Shifts node.print := by
  cases node with
  | program p =>
    obtain ⟨hname, hblock⟩ := List.forall_mem_cons.1 h
    have hheading := (OneLine.append (show OneLine "program " by decide)
      (Token.oneLine_display hname)).append (show OneLine ";" by decide)
    exact ((Shifts.const hheading).append (p.block.shifts_print hblock)).append
      (.const (show OneLine "." by decide))
  | block b => exact b.shifts_print h
  | declarations vars routines =>
    obtain ⟨hvars, hroutines⟩ := List.forall_mem_append.1 h
    exact (VarDecl.shifts_printSection hvars).append (Routine.shifts_printList routines hroutines)
  | varDecl v => exact .const (VarDecl.oneLine_print (h v.name (List.mem_singleton_self _)))
  | routine r => exact r.shifts_print h
  | params ps => exact .const (VarDecl.oneLine_printParams h)
  | stmt s => exact s.shifts_print h
  | expr e => exact .const (e.oneLine_print h)

private theorem flatMap_tokens_expr (es : List Expr) :
    (es.map expr).flatMap tokens = Expr.tokensList es := by
  induction es with
  | nil => rfl
  | cons e es ih => rw [List.map_cons, List.flatMap_cons, ih]; rfl

private theorem flatMap_tokens_stmt (ss : List Stmt) :
    (ss.map stmt).flatMap tokens = Stmt.tokensList ss := by
  induction ss with
  | nil => rfl
  | cons s ss ih => rw [List.map_cons, List.flatMap_cons, ih]; rfl

private theorem flatMap_tokens_varDecl (ds : List VarDecl) :
    (ds.map varDecl).flatMap tokens = ds.map VarDecl.name := by
  induction ds with
  | nil => rfl
  | cons d ds ih => rw [List.map_cons, List.flatMap_cons, ih]; rfl

private theorem flatMap_tokens_routine (rs : List Routine) :
    (rs.map routine).flatMap tokens = Routine.tokensList rs := by
  induction rs with
  | nil => rfl
  | cons r rs ih => rw [List.map_cons, List.flatMap_cons, ih]; rfl

/-- The tokens of the children are among those of the node, in their order. -/
theorem flatMap_tokens_sublist (node : Node) :
    (node.children.flatMap tokens).Sublist node.tokens := by
  cases node with
  | program p => simp [children, tokens, Program.tokens]
  | block b =>
    cases b
    simp [children, tokens, Block.tokens, Stmt.tokens]
  | declarations vars routines =>
    simp [children, tokens, flatMap_tokens_varDecl, flatMap_tokens_routine]
  | varDecl => exact List.nil_sublist _
  | routine r =>
    cases r
    simp [children, tokens, Routine.tokens]
  | params ps => simp [children, tokens, flatMap_tokens_varDecl]
  | stmt s =>
    cases s <;> simp [children, tokens, Stmt.tokens, flatMap_tokens_expr, flatMap_tokens_stmt]
  | expr e => cases e <;> simp [children, tokens, Expr.tokens, flatMap_tokens_expr]

/-- The tokens of every part below a part are among those of the part. -/
theorem tokens_subset_of_mem_outline {node part : Node} {depth depth' : Nat}
    (h : (depth', part) ∈ node.outline depth) : part.tokens ⊆ node.tokens := by
  induction node using Node.induction generalizing depth with
  | step node ih =>
    rw [outline_eq, List.mem_cons, List.mem_flatMap] at h
    obtain heq | ⟨child, hchild, h⟩ := h
    · cases heq
      exact List.Subset.refl _
    · intro t ht
      exact node.flatMap_tokens_sublist.subset
        (List.mem_flatMap.2 ⟨child, hchild, ih child hchild h ht⟩)

end Node

/-- The tokens of every part of a program that was read stay on one line. -/
theorem oneLine_of_mem_outline {file text : String} {p : Program} (h : parseText file text = .ok p)
    {depth : Nat} {part : Node} (hpart : (depth, part) ∈ (Node.program p).outline 0) :
    ∀ t ∈ part.tokens, OneLine t.text := by
  intro t ht
  obtain ⟨c, hrun⟩ := parseText_eq_ok_iff.1 h
  have hstored := (Parse.readsProgram_of_program hrun).1.storedTokens_eq
  have hmem : t ∈ p.tokens := Node.tokens_subset_of_mem_outline hpart ht
  exact Lexer.oneLine_text (List.mem_of_mem_filter (hstored ▸ List.mem_append_left _ hmem))

/-- A printer prints any part of a tree as a printer that has printed nothing does, with the blanks
of its level behind every line feed. It is left at its level and goes to none below that. What it
printed before does not matter. -/
theorem emit_eq_shift :
    (∀ (node : Node) (printer : Printer), (∀ t ∈ node.tokens, OneLine t.text) →
      ∃ text visited visited', node.emit .fresh = some (text, ⟨0, visited'⟩) ∧
        node.emit printer = some (shift (indentWidth * printer.level) text,
          ⟨printer.level, visited ++ printer.past⟩) ∧
        ∀ level ∈ visited, printer.level ≤ level) ∧
    ∀ (file text : String) (p : Program), parseText file text = .ok p →
      ∀ entry ∈ (Node.program p).outline 0, ∀ t ∈ entry.2.tokens, OneLine t.text := by
  refine ⟨fun node printer h => ?_, fun file text p hp entry hentry =>
    oneLine_of_mem_outline hp hentry⟩
  obtain ⟨visited', hfresh, -⟩ := node.keeps_emit .fresh
  obtain ⟨visited, hrun, hlow⟩ := node.keeps_emit printer
  have hshift : shift (indentWidth * printer.level) (node.print 0) = node.print printer.level := by
    rw [node.shifts_print h 0 printer.level, Nat.zero_add]
  exact ⟨node.print 0, visited, visited' ++ [], hfresh, hshift ▸ hrun, hlow⟩

/-- A program with a loop in a routine is printed at level two by a printer that was deeper. -/
theorem emit_eq_shift_loop :
    let text := "program p; procedure q(); begin while a do b := 'x' end; begin end."
    ∃ p, parseText "p.pas" text = .ok p ∧ (∀ t ∈ (Node.program p).tokens, OneLine t.text) ∧
      ∃ out visited visited', (Node.program p).emit .fresh = some (out, ⟨0, visited'⟩) ∧
        (Node.program p).emit ⟨2, [3, 2, 1, 0]⟩ =
          some (shift 6 out, ⟨2, visited ++ [3, 2, 1, 0]⟩) ∧ ∀ level ∈ visited, 2 ≤ level := by
  intro text
  have hrun : (parseText "p.pas" text).toOption.isSome = true := by decide +kernel
  rcases h : parseText "p.pas" text with _ | p
  · rw [h] at hrun
    cases hrun
  · have htokens := emit_eq_shift.2 "p.pas" text p h (0, .program p)
      ((Node.program p).outline_eq 0 ▸ List.mem_cons_self)
    exact ⟨p, rfl, htokens, emit_eq_shift.1 (.program p) ⟨2, [3, 2, 1, 0]⟩ htokens⟩

end MiniPascal
