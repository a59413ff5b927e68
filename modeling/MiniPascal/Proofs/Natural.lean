import MiniPascal.Proofs.Change

/-!
# Parsing is natural

All rules do after a change what they do before it. In a rule that takes another rule as an argument
the two runs may use different ones, since a recursive rule is cut off elsewhere when the input gets
longer or shorter.
-/

namespace MiniPascal

namespace Change

variable (g : Change)

/-- What becomes of expressions when a parser reads the changed input: their tokens and ids are
changed, and the shape of the tree stays. -/
abbrev expr : Expr → Expr :=
  Expr.map g.token g.id

/-- What becomes of statements when a parser reads the changed input: the expressions and statements
inside are changed, too. -/
abbrev stmt : Stmt → Stmt :=
  Stmt.map g.token g.id

/-- What becomes of declarations when a parser reads the changed input. Their types stay, since
tokens keep their kinds. -/
abbrev decl : VarDecl → VarDecl :=
  VarDecl.map g.token

/-- What becomes of routines when a parser reads the changed input: name, parameters and block are
changed, and the type of the result stays. -/
abbrev routine : Routine → Routine :=
  Routine.map g.token g.id

/-- What becomes of blocks when a parser reads the changed input: variables, routines and body are
changed. -/
abbrev block : Block → Block :=
  Block.map g.token g.id

/-- What becomes of programs when a parser reads the changed input: the name and the block are
changed. -/
abbrev program : Program → Program :=
  Program.map g.token g.id

end Change

namespace Natural

variable {α β : Type} {g : Change} {m : α → β}

/-- A result that is changed in the same manner. -/
theorem pure_of_eq {a : α} {b : β} (h : b = m a) : Natural g m (Pure.pure a) (Pure.pure b) :=
  h ▸ .pure a

/-! ### Expressions -/

section Expressions

variable {p q : Parse Expr}

theorem primary (h : Natural g g.expr p q) :
    Natural g g.expr (Parse.primary p) (Parse.primary q) := by
  refine .bind .peek fun k => ?_
  cases k with
  | ident =>
    refine .bind .take fun t => .bind .peek fun _ => .ite (fun _ => ?_) fun _ => ?_
    · refine .bind (.parenthesized h) fun es => .bind .freshId fun i => .pure_of_eq ?_
      exact congrArg (Expr.call (g.id i) (g.token t)) (Expr.mapList_eq_map ..).symm
    · exact .bind .freshId fun i => .pure (Expr.name i t)
  | literal ty => exact .bind .take fun t => .bind .freshId fun i => .pure (Expr.literal i t)
  | mark mk =>
    cases mk with
    | openParen => exact .bind .take fun _ => .bind h fun e => .bind (.mark _) fun _ => .pure e
    | assign | semicolon | period | comma | colon | closeParen => exact .throw _
  | typeName | keyword | operator | eof | error => exact .throw _

theorem unary (h : Natural g g.expr p q) : Natural g g.expr (Parse.unary p) (Parse.unary q) := by
  refine .fix_unit fun self self' hself => .bind .peek fun k => ?_
  cases k with
  | operator op =>
    cases op with
    | plus | minus =>
      exact .bind .take fun t => .bind (hself ()) fun e => .bind .freshId fun i =>
        .pure (Expr.unary i t e)
    | not =>
      exact .bind .take fun t => .bind (.primary h) fun e => .bind .freshId fun i =>
        .pure (Expr.unary i t e)
    | times | divide | equal | notEqual | less | lessEqual | greater | greaterEqual | and | or
    | mod => exact .primary h
  | ident | literal | typeName | keyword | mark | eof | error => exact .primary h

theorem chain {ops : List Operator} (h : Natural g g.expr p q) :
    Natural g g.expr (Parse.chain ops p) (Parse.chain ops q) := by
  -- the left operand is carried along, so it is changed from round to round
  refine .bind h fun left => .fix (k := g.expr) (fun self self' hself left => ?_) left
  refine .bind .peek fun k => ?_
  cases k with
  | operator op =>
    exact .ite (fun _ => .bind .take fun t => .bind h fun right => .bind .freshId fun i =>
      hself (.binary i left t right)) fun _ => .pure left
  | ident | literal | typeName | keyword | mark | eof | error => exact .pure left

theorem single {ops : List Operator} (h : Natural g g.expr p q) :
    Natural g g.expr (Parse.single ops p) (Parse.single ops q) := by
  refine .bind h fun left => .bind .peek fun k => ?_
  cases k with
  | operator op =>
    exact .ite (fun _ => .bind .take fun t => .bind h fun right => .bind .freshId fun i =>
      .pure (Expr.binary i left t right)) fun _ => .pure left
  | ident | literal | typeName | keyword | mark | eof | error => exact .pure left

theorem equality (h : Natural g g.expr p q) :
    Natural g g.expr (Parse.equality p) (Parse.equality q) :=
  .single (.single (.chain (.chain (.unary h))))

theorem expression : Natural g g.expr Parse.expression Parse.expression :=
  .fix_unit fun _ _ hself => .equality (hself ())

theorem arguments : Natural g (List.map g.expr) Parse.arguments Parse.arguments :=
  .parenthesized .expression

end Expressions

/-! ### Statements -/

section Statements

variable {p q : Parse Stmt}

theorem statements {stop : Keyword} (h : Natural g g.stmt p q) :
    Natural g (List.map g.stmt) (Parse.statements stop p) (Parse.statements stop q) :=
  .fix_unit fun _ _ hself => .bind .peek fun _ => .ite (fun _ => .pure []) fun _ =>
    .bind h fun _ => .bind .peek fun _ =>
      .ite (fun _ => .bind .take fun _ => .bind (hself ()) fun _ => .pure _) fun _ => .pure [_]

theorem compound (h : Natural g g.stmt p q) :
    Natural g (List.map g.stmt) (Parse.compound p) (Parse.compound q) :=
  .bind (.keyword _) fun _ => .bind (.statements h) fun _ => .bind (.keyword _) fun _ => .pure _

theorem body (h : Natural g g.stmt p q) :
    Natural g (List.map g.stmt) (Parse.body p) (Parse.body q) :=
  .bind .peek fun _ => .ite (fun _ => .compound h) fun _ => .bind h fun _ => .pure [_]

theorem direction : Natural g id Parse.direction Parse.direction := by
  refine .bind .peek fun k => ?_
  -- the kind is the same in both runs, and so is what it stands for
  cases hk : Direction.ofKind? k with
  | none => simp only [id, hk]; exact .throw _
  | some d => simp only [id, hk]; exact .bind .take fun _ => .pure d

theorem afterName (t : Token) :
    Natural g g.stmt (Parse.afterName t) (Parse.afterName (g.token t)) := by
  have hbare : Natural g g.stmt (Pure.pure (.call t [])) (Pure.pure (.call (g.token t) [])) :=
    .pure _
  refine .bind .peek fun k => ?_
  cases k with
  | mark mk =>
    cases mk with
    | assign => exact .bind .take fun _ => .bind .expression fun e => .pure (Stmt.assign t e)
    | openParen =>
      refine .bind .arguments fun es => .pure_of_eq ?_
      exact congrArg (Stmt.call (g.token t)) (Expr.mapList_eq_map ..).symm
    | semicolon | period | comma | colon | closeParen => exact hbare
  | ident | literal | typeName | keyword | operator | eof | error => exact hbare

theorem afterIf (h : Natural g g.stmt p q) :
    Natural g g.stmt (Parse.afterIf p) (Parse.afterIf q) := by
  refine .bind .expression fun e => .bind (.keyword _) fun _ => .bind (.body h) fun ss =>
    .bind .peek fun _ => .ite (fun _ => ?_) fun _ => ?_
  · refine .bind .take fun _ => .bind (.body h) fun ts => .pure_of_eq ?_
    simp only [Stmt.map, Stmt.mapList_eq_map]
  · refine .pure_of_eq ?_
    simp only [Stmt.map, Stmt.mapList_eq_map]

theorem afterWhile (h : Natural g g.stmt p q) :
    Natural g g.stmt (Parse.afterWhile p) (Parse.afterWhile q) := by
  refine .bind .expression fun e => .bind (.keyword _) fun _ => .bind (.body h) fun ss =>
    .pure_of_eq ?_
  simp only [Stmt.map, Stmt.mapList_eq_map]

theorem afterRepeat (h : Natural g g.stmt p q) :
    Natural g g.stmt (Parse.afterRepeat p) (Parse.afterRepeat q) := by
  refine .bind .peek fun _ => .ite (fun _ => .throw _) fun _ => ?_
  refine .bind (.statements h) fun ss => .bind (.keyword _) fun _ => .bind .expression fun e =>
    .pure_of_eq ?_
  simp only [Stmt.map, Stmt.mapList_eq_map]

theorem afterFor (h : Natural g g.stmt p q) :
    Natural g g.stmt (Parse.afterFor p) (Parse.afterFor q) := by
  refine .bind .name fun t => .bind (.mark _) fun _ => .bind .expression fun e =>
    .bind .direction fun d => .bind .expression fun f => .bind (.keyword _) fun _ =>
      .bind (.body h) fun ss => .pure_of_eq ?_
  simp only [Stmt.map, Stmt.mapList_eq_map, id]

theorem statementWith (h : Natural g g.stmt p q) :
    Natural g g.stmt (Parse.statementWith p) (Parse.statementWith q) := by
  refine .bind .peek fun k => ?_
  cases k with
  | ident => exact .bind .take fun t => .afterName t
  | keyword w =>
    cases w with
    | write | writeln =>
      refine .bind .take fun _ => .bind .arguments fun es => .pure_of_eq ?_
      exact congrArg (Stmt.write _) (Expr.mapList_eq_map ..).symm
    | read =>
      exact .bind .take fun _ => .bind (.mark _) fun _ => .bind .name fun t =>
        .bind (.mark _) fun _ => .pure (Stmt.read t)
    | «if» => exact .bind .take fun _ => .afterIf h
    | «while» => exact .bind .take fun _ => .afterWhile h
    | «repeat» => exact .bind .take fun _ => .afterRepeat h
    | «for» => exact .bind .take fun _ => .afterFor h
    | begin =>
      refine .bind (.compound h) fun ss => .pure_of_eq ?_
      exact congrArg Stmt.compound (Stmt.mapList_eq_map ..).symm
    | program | var | procedure | function | «end» | «then» | «else» | «do» | «until» | «to»
    | downto =>
      exact .throw _
  | literal | typeName | operator | mark | eof | error => exact .throw _

theorem statement : Natural g g.stmt Parse.statement Parse.statement :=
  .fix_unit fun _ _ hself => .statementWith (hself ())

end Statements

/-! ### Declarations and programs -/

section Blocks

variable {p q : Parse Block}

theorem typeName : Natural g id Parse.typeName Parse.typeName := by
  refine .bind .peek fun k => ?_
  cases hk : Ty.ofKind? k with
  | none => simp only [id, hk]; exact .throw _
  | some ty => simp only [id, hk]; exact .bind .take fun _ => .pure ty

theorem declaration : Natural g (List.map g.decl) Parse.declaration Parse.declaration := by
  refine .bind (.separated .name) fun ts => .bind (.mark _) fun _ => .bind .typeName fun ty =>
    .pure_of_eq ?_
  simp only [List.map_map]
  rfl

theorem varLines : Natural g (List.map g.decl) Parse.varLines Parse.varLines := by
  refine .fix_unit fun _ _ hself => .bind .declaration fun ds => .bind (.mark _) fun _ =>
    .bind .peek fun _ => .ite (fun _ => .bind (hself ()) fun es => .pure_of_eq ?_) fun _ => .pure ds
  exact List.map_append.symm

theorem variableSection : Natural g (List.map g.decl) Parse.variableSection Parse.variableSection :=
  .bind .peek fun _ => .ite (fun _ => .bind .take fun _ => .varLines) fun _ => .pure []

theorem parameters : Natural g (List.map g.decl) Parse.parameters Parse.parameters :=
  .bind (.parenthesized .declaration) fun _ => .pure_of_eq List.map_flatten.symm

theorem afterProcedure (h : Natural g g.block p q) :
    Natural g g.routine (Parse.afterProcedure p) (Parse.afterProcedure q) :=
  .bind .name fun t => .bind .parameters fun ds => .bind (.mark _) fun _ => .bind h fun b =>
    .bind (.mark _) fun _ => .pure (Routine.mk t ds none b)

theorem afterFunction (h : Natural g g.block p q) :
    Natural g g.routine (Parse.afterFunction p) (Parse.afterFunction q) :=
  .bind .name fun t => .bind .parameters fun ds => .bind (.mark _) fun _ =>
    .bind .typeName fun ty => .bind (.mark _) fun _ => .bind h fun b => .bind (.mark _) fun _ =>
      .pure (Routine.mk t ds (some ty) b)

theorem routines (h : Natural g g.block p q) :
    Natural g (List.map g.routine) (Parse.routines p) (Parse.routines q) := by
  refine .fix_unit fun _ _ hself => .bind .peek fun k => ?_
  cases k with
  | keyword w =>
    cases w with
    | procedure =>
      exact .bind .take fun _ => .bind (.afterProcedure h) fun r => .bind (hself ()) fun rs =>
        .pure (r :: rs)
    | function =>
      exact .bind .take fun _ => .bind (.afterFunction h) fun r => .bind (hself ()) fun rs =>
        .pure (r :: rs)
    | program | var | begin | «end» | «if» | «then» | «else» | «while» | «do» | «repeat» | «until»
    | «for» | «to» | downto | write | writeln | read => exact .pure []
  | ident | literal | typeName | operator | mark | eof | error => exact .pure []

theorem blockWith (h : Natural g g.block p q) :
    Natural g g.block (Parse.blockWith p) (Parse.blockWith q) := by
  refine .bind .variableSection fun ds => .bind (.routines h) fun rs =>
    .bind (.compound .statement) fun ss => .pure_of_eq ?_
  simp only [Block.map, Routine.mapList_eq_map, Stmt.mapList_eq_map]

theorem block : Natural g g.block Parse.block Parse.block :=
  .fix_unit fun _ _ hself => .blockWith (hself ())

/-- The rule for programs does after a change what it does before it. -/
theorem program : Natural g g.program Parse.program Parse.program :=
  .bind (.keyword _) fun _ => .bind .name fun t => .bind (.mark _) fun _ => .bind .block fun b =>
    .bind (.mark _) fun _ => .bind .peek fun _ =>
      .ite (fun _ => .pure (Program.mk t b)) fun _ => .throw _

end Blocks

/-! ### Changes of all tokens -/

section Whole

variable {ts us : List Token} {n n' : ExprId}

/-- A change that leaves no end as it is changes all of what is read. -/
theorem program_eq_ok (g : Change) (hbefore : g.before = []) (hafter : g.after = []) {p : Program}
    (h : Parse.program ⟨ts, n⟩ = .ok p ⟨us, n'⟩) :
    Parse.program ⟨ts.map g.token, g.id n⟩ = .ok (g.program p) ⟨us.map g.token, g.id n'⟩ := by
  rw [← g.source_of_nil hbefore, ← g.source_of_nil hbefore] at h
  have hrun := program.ok h
  rw [g.target_of_nil hafter, g.target_of_nil hafter] at hrun
  exact hrun

/-- Failures stay failures when all of what is read is changed. -/
theorem program_eq_error (g : Change) (hbefore : g.before = []) (hafter : g.after = [])
    {cause : Cause} (h : Parse.program ⟨ts, n⟩ = .error cause ⟨us, n'⟩) :
    Parse.program ⟨ts.map g.token, g.id n⟩ = .error cause ⟨us.map g.token, g.id n'⟩ := by
  rw [← g.source_of_nil hbefore, ← g.source_of_nil hbefore] at h
  have hrun := program.error h
  rw [g.target_of_nil hafter, g.target_of_nil hafter] at hrun
  exact hrun

end Whole

end Natural

end MiniPascal
