import MiniPascal.Proofs.Window.Tracks
import MiniPascal.Window.Rules

/-!
# No rule looks back past its own tokens

Every rule of a parser with a window tracks the rule of the grammar that it stands for, whatever the
window holds when the rule begins. Where a rule chooses by the token in hand, the kinds are gone
through one by one; where it looks back, it has taken the token that it finds itself.
-/

namespace MiniPascal

open WindowParser

namespace Tracks

/-! ### Tokens that stand for something -/

/-- A token of several kinds is taken and looked back at, for what its kind stands for. As it is one
of these kinds, it stands for something. -/
theorem expect_bind {α : Type} {kinds : List Kind} {read : Token → Windowed α} {p : Parse α}
    (value? : Kind → Option α) (hkinds : ∀ k, k ∈ kinds ↔ (value? k).isSome = true)
    (heof : value? .eof = none) (hread : ∀ t x, value? t.kind = some x → read t = Pure.pure x)
    (hsome : ∀ c x, value? c.kind = some x → p c = (Parse.take >>= fun _ => Pure.pure x) c)
    (hnone : ∀ c, value? c.kind = none → p c = .error (.expected kinds) c) :
    Tracks (Windowed.expect kinds >>= read) p := by
  intro m hm
  have hchoice : (Windowed.expect kinds >>= read) = Windowed.accept kinds >>= fun b =>
      if b = true then Windowed.prev >>= read
        else Windowed.fail (Windowed.expecting kinds) >>= read := by
    rw [Windowed.expect, bind_assoc]
    refine congrArg _ (funext fun b => ?_)
    split <;> rfl
  rw [hchoice]
  cases hvalue : value? m.token.kind with
  | none =>
    rw [hnone m.cursor (by rw [kind_cursor, hvalue])]
    have hk : m.token.kind ∉ kinds := by
      rw [hkinds, hvalue]
      exact Bool.false_ne_true
    refine .accept_of_not_mem hk ?_
    change Agrees m (Windowed.fail _ m) _
    exact .fail hm fun _ => rfl
  | some x =>
    have hk : m.token.kind ∈ kinds := by
      rw [hkinds, hvalue]
      rfl
    have hne : m.token.kind ≠ .eof := by
      intro h
      rw [h, heof] at hvalue
      cases hvalue
    rw [hsome m.cursor x (by rw [kind_cursor, hvalue])]
    refine .accept_of_mem hm hk hne (.prev ?_)
    rw [hread m.token x hvalue]
    exact .pure hm.next x

/-! ### Expressions -/

section Expressions

variable {a : Windowed Expr} {p : Parse Expr}

theorem primary (h : Tracks a p) : Tracks (Windowed.primary a) (Parse.primary p) := by
  intro m hm
  rw [Windowed.primary, Parse.primary, Parse.peek_bind, kind_cursor]
  cases hk : m.token.kind with
  | ident =>
    refine .accept_prev hm (by simp [hk]) (by simp [hk]) ?_
    refine .ifPeek (.bind (.parenthesized h) fun args => ?_) ?_
    · exact .bind .freshId fun n => .pure _
    · exact .bind .freshId fun n => .pure _
  | literal ty =>
    refine .accept_of_not_mem (by simp [hk]) (.accept_prev hm ?_ (by simp [hk]) ?_)
    · rw [hk]
      exact List.mem_map_of_mem ty.mem_all
    · exact .bind .freshId fun n => .pure _
  | mark mk =>
    refine .accept_of_not_mem (by simp [hk]) (.accept_of_not_mem (by simp [hk]) ?_)
    cases mk with
    | openParen =>
      refine .accept_of_mem hm (by simp [hk]) (by simp [hk]) ?_
      exact bind h (fun e => .mark_bind (.pure e)) m.advance hm.next
    | assign | semicolon | period | comma | colon | closeParen =>
      exact .accept_of_not_mem (by simp [hk]) (.fail hm fun _ => rfl)
  | typeName | keyword | operator | eof | error =>
    exact .accept_of_not_mem (by simp [hk]) (.accept_of_not_mem (by simp [hk])
      (.accept_of_not_mem (by simp [hk]) (.fail hm fun _ => rfl)))

theorem unary (h : Tracks a p) : Tracks (Windowed.unary a) (Parse.unary p) := by
  refine .fix_unit fun self self' hself m hm => ?_
  have hsigned : ∀ (b : Windowed Expr) (q : Parse Expr), Tracks b q → ∀ op : Token, Tracks
      (b >>= fun operand => Windowed.freshId >>= fun n => Pure.pure (Expr.unary n op operand))
      (q >>= fun operand => Parse.freshId >>= fun n => Pure.pure (Expr.unary n op operand)) :=
    fun _ _ hb op => .bind hb fun _ => .bind .freshId fun _ => .pure _
  rw [Parse.peek_bind, kind_cursor]
  cases hk : m.token.kind with
  | operator op =>
    cases op with
    | plus | minus =>
      exact .accept_prev hm (by simp [hk]) (by simp [hk]) (hsigned _ _ (hself ()) m.token)
    | not =>
      refine .accept_of_not_mem (by simp [hk]) ?_
      exact .accept_prev hm (by simp [hk]) (by simp [hk]) (hsigned _ _ (.primary h) m.token)
    | times | divide | equal | notEqual | less | lessEqual | greater | greaterEqual | and | or
    | mod =>
      exact .accept_of_not_mem (by simp [hk]) (.accept_of_not_mem (by simp [hk]) (primary h m hm))
  | ident | literal | typeName | keyword | mark | eof | error =>
    exact .accept_of_not_mem (by simp [hk]) (.accept_of_not_mem (by simp [hk]) (primary h m hm))

/-- A choice by whether the token in hand is one of some operators, which is then taken. -/
theorem ifOperator {ops : List Operator} {b : Windowed Expr} {q : Parse Expr}
    {f : Token → Windowed Expr} {g : Token → Parse Expr} (hf : ∀ t, Tracks (f t) (g t))
    (hb : Tracks b q) :
    Tracks (Windowed.accept (ops.map .operator) >>= fun c =>
        if c = true then Windowed.prev >>= f else b)
      (Parse.peek >>= fun k =>
        match k with
        | .operator op => if op ∈ ops then Parse.take >>= g else q
        | _ => q) := by
  intro m hm
  rw [Parse.peek_bind, kind_cursor]
  cases hk : m.token.kind with
  | operator op =>
    dsimp only
    split
    · next hop =>
      refine .accept_prev hm ?_ (by simp [hk]) (hf m.token)
      rw [hk]
      exact List.mem_map_of_mem hop
    · next hop => exact .accept_of_not_mem (by simpa [hk] using hop) (hb m hm)
  | ident | literal | typeName | keyword | mark | eof | error =>
    exact .accept_of_not_mem (by simp [hk]) (hb m hm)

theorem chain {ops : List Operator} (h : Tracks a p) :
    Tracks (Windowed.chain ops a) (Parse.chain ops p) :=
  .bind h fun left => .fix (fun _ _ hself left => .ifOperator
    (fun op => .bind h fun right => .bind .freshId fun n => hself (.binary n left op right))
    (.pure left)) left

theorem single {ops : List Operator} (h : Tracks a p) :
    Tracks (Windowed.single ops a) (Parse.single ops p) :=
  .bind h fun left => .ifOperator
    (fun op => .bind h fun right => .bind .freshId fun n => .pure (Expr.binary n left op right))
    (.pure left)

theorem equality (h : Tracks a p) : Tracks (Windowed.equality a) (Parse.equality p) :=
  .single (.single (.chain (.chain (.unary h))))

theorem expression : Tracks Windowed.expression Parse.expression :=
  .fix_unit fun _ _ hself => .equality (hself ())

theorem arguments : Tracks Windowed.arguments Parse.arguments :=
  .parenthesized .expression

end Expressions

/-! ### Statements -/

section Statements

variable {a : Windowed Stmt} {p : Parse Stmt}

theorem statements {stop : Keyword} (h : Tracks a p) :
    Tracks (Windowed.statements stop a) (Parse.statements stop p) :=
  .fix_unit fun _ _ hself => .ifPeek (.pure []) (.bind h fun first =>
    .ifAccept nofun (fun _ => .bind (hself ()) fun rest => .pure (first :: rest)) (.pure [first]))

theorem compound (h : Tracks a p) : Tracks (Windowed.compound a) (Parse.compound p) :=
  .keyword_bind (.bind (.statements h) fun body => .keyword_bind (.pure body))

theorem body (h : Tracks a p) : Tracks (Windowed.body a) (Parse.body p) :=
  .ifPeek (.compound h) (.bind h fun s => .pure [s])

theorem afterIf (h : Tracks a p) : Tracks (Windowed.afterIf a) (Parse.afterIf p) :=
  .bind .expression fun _ => .keyword_bind (.bind (.body h) fun _ =>
    .ifAccept nofun (fun _ => .bind (.body h) fun _ => .pure _) (.pure _))

theorem afterWhile (h : Tracks a p) : Tracks (Windowed.afterWhile a) (Parse.afterWhile p) :=
  .bind .expression fun _ => .keyword_bind (.bind (.body h) fun _ => .pure _)

theorem failStatement {α : Type} :
    Tracks (Windowed.failStatement : Windowed α) (throw .statement) :=
  .fail fun _ => rfl

theorem afterRepeat (h : Tracks a p) : Tracks (Windowed.afterRepeat a) (Parse.afterRepeat p) :=
  .ifPeek .failStatement (.bind (.statements h) fun _ =>
    .keyword_bind (.bind .expression fun _ => .pure _))

theorem direction : Tracks
    (Windowed.expect [.keyword .to, .keyword .downto] >>= Windowed.directionOf)
    Parse.direction := by
  refine expect_bind Direction.ofKind? (fun k => ?_) rfl (fun t d hd => ?_) (fun c d hd => ?_)
    fun c hd => ?_
  · rw [Option.isSome_iff_exists]
    simp only [Direction.ofKind?_eq_some_iff]
    constructor
    · intro h
      obtain rfl | rfl := List.mem_pair.1 h
      · exact ⟨.to, rfl⟩
      · exact ⟨.downto, rfl⟩
    · rintro ⟨d, rfl⟩
      cases d <;> simp [Direction.keyword]
  · rw [Windowed.directionOf, hd]
  · rw [Parse.direction, Parse.peek_bind, hd]
  · rw [Parse.direction, Parse.peek_bind, hd]
    rfl

theorem afterFor (h : Tracks a p) : Tracks (Windowed.afterFor a) (Parse.afterFor p) := by
  refine .bind .name fun counter => .mark_bind (.bind .expression fun first => ?_)
  rw [← bind_assoc]
  exact .bind .direction fun d => .bind .expression fun last =>
    .keyword_bind (.bind (.body h) fun ss => .pure _)

theorem afterRead : Tracks Windowed.afterRead
    (Parse.mark .openParen >>= fun _ => Parse.name >>= fun t =>
      Parse.mark .closeParen >>= fun _ => Pure.pure (Stmt.read t)) :=
  .mark_bind (.bind .name fun _ => .mark_bind (.pure _))

/-- The keyword that has just been taken tells whether the line ends. -/
theorem afterWrite {m : WindowParser} (hm : m.source.Ends) {newline : Bool}
    (h : decide (m.token.kind = .keyword .writeln) = newline) :
    Agrees m.advance (Windowed.afterWrite m.advance)
      ((Parse.arguments >>= fun es => Pure.pure (Stmt.write newline es)) m.advance.cursor) := by
  subst h
  exact .prev (bind .arguments (fun _ => .pure _) m.advance hm.next)

/-- The name that has just been taken is the target of an assignment if the sign for one follows,
and then it is the token before the last; otherwise it is that of a call. -/
theorem afterName {m : WindowParser} (hm : m.source.Ends) :
    Agrees m.advance
      ((Windowed.accept [.mark .assign] >>= fun b =>
        if b = true then Windowed.afterAssign else Windowed.afterCallee) m.advance)
      (Parse.afterName m.token m.advance.cursor) := by
  have hbare : m.advance.token.kind ∉ [.mark .assign, .mark .openParen] → Agrees m.advance
      ((Windowed.accept [.mark .assign] >>= fun b =>
        if b = true then Windowed.afterAssign else Windowed.afterCallee) m.advance)
      ((Pure.pure (Stmt.call m.token []) : Parse Stmt) m.advance.cursor) := by
    intro hk
    simp only [List.mem_cons, List.not_mem_nil, or_false, not_or] at hk
    refine .accept_of_not_mem (by simp [hk.1]) (.prev ?_)
    rw [Windowed.peek_bind, if_neg (by simp [hk.2])]
    exact .pure hm.next _
  rw [Parse.afterName, Parse.peek_bind, kind_cursor]
  cases hk : m.advance.token.kind with
  | mark mk =>
    cases mk with
    | assign =>
      refine .accept_of_mem hm.next (by simp [hk]) (by simp [hk]) (.prevPrev ?_)
      exact bind .expression (fun _ => .pure _) m.advance.advance hm.next.next
    | openParen =>
      refine .accept_of_not_mem (by simp [hk]) (.prev ?_)
      rw [Windowed.peek_bind, if_pos (by simp [hk])]
      exact bind .arguments (fun _ => .pure _) m.advance hm.next
    | semicolon | period | comma | colon | closeParen => exact hbare (by simp [hk])
  | ident | literal | typeName | keyword | operator | eof | error => exact hbare (by simp [hk])

/-- A token that begins no statement is none that the rule accepts. -/
private theorem failStatement_of_not_mem {m : WindowParser} (hm : m.source.Ends)
    (hk : m.token.kind ∉ [.keyword .write, .keyword .writeln, .keyword .read, .ident, .keyword .if,
      .keyword .while, .keyword .repeat, .keyword .for, .keyword .begin]) :
    Agrees m (Windowed.statementWith a m) (.error .statement m.cursor) := by
  simp only [List.mem_cons, List.not_mem_nil, or_false, not_or] at hk
  obtain ⟨hwrite, hwriteln, hread, hident, hif, hwhile, hrepeat, hfor, hbegin⟩ := hk
  refine .accept_of_not_mem (by simp [hwrite, hwriteln]) ?_
  refine .accept_of_not_mem (by simp [hread]) ?_
  refine .accept_of_not_mem (by simp [hident]) ?_
  refine .accept_of_not_mem (by simp [hif]) ?_
  refine .accept_of_not_mem (by simp [hwhile]) ?_
  refine .accept_of_not_mem (by simp [hrepeat]) ?_
  refine .accept_of_not_mem (by simp [hfor]) ?_
  rw [Windowed.peek_bind, if_neg (by simp [hbegin])]
  exact failStatement m hm

theorem statementWith (h : Tracks a p) :
    Tracks (Windowed.statementWith a) (Parse.statementWith p) := by
  intro m hm
  rw [Parse.statementWith, Parse.peek_bind, kind_cursor]
  cases hk : m.token.kind with
  | ident =>
    iterate 2 refine .accept_of_not_mem (by simp [hk]) ?_
    exact .accept_of_mem hm (by simp [hk]) (by simp [hk]) (afterName hm)
  | keyword w =>
    cases w with
    | write | writeln =>
      exact .accept_of_mem hm (by simp [hk]) (by simp [hk]) (afterWrite hm (by simp [hk]))
    | read =>
      refine .accept_of_not_mem (by simp [hk]) ?_
      refine .accept_of_mem hm (by simp [hk]) (by simp [hk]) ?_
      exact afterRead m.advance hm.next
    | «if» =>
      iterate 3 refine .accept_of_not_mem (by simp [hk]) ?_
      exact .accept_of_mem hm (by simp [hk]) (by simp [hk]) (afterIf h m.advance hm.next)
    | «while» =>
      iterate 4 refine .accept_of_not_mem (by simp [hk]) ?_
      exact .accept_of_mem hm (by simp [hk]) (by simp [hk]) (afterWhile h m.advance hm.next)
    | «repeat» =>
      iterate 5 refine .accept_of_not_mem (by simp [hk]) ?_
      exact .accept_of_mem hm (by simp [hk]) (by simp [hk]) (afterRepeat h m.advance hm.next)
    | «for» =>
      iterate 6 refine .accept_of_not_mem (by simp [hk]) ?_
      exact .accept_of_mem hm (by simp [hk]) (by simp [hk]) (afterFor h m.advance hm.next)
    | begin =>
      iterate 7 refine .accept_of_not_mem (by simp [hk]) ?_
      rw [Windowed.peek_bind, if_pos (by simp [hk])]
      exact bind (.compound h) (fun _ => .pure _) m hm
    | program | var | procedure | function | «end» | «then» | «else» | «do» | «until» | «to»
    | downto =>
      exact failStatement_of_not_mem hm (by simp [hk])
  | literal | typeName | operator | mark | eof | error =>
    exact failStatement_of_not_mem hm (by simp [hk])

theorem statement : Tracks Windowed.statement Parse.statement :=
  .fix_unit fun _ _ hself => .statementWith (hself ())

end Statements

/-! ### Declarations and programs -/

section Blocks

variable {a : Windowed Block} {p : Parse Block}

theorem typeName : Tracks Windowed.typeName Parse.typeName := by
  refine expect_bind Ty.ofKind? (fun k => ?_) rfl (fun t ty hty => ?_) (fun c ty hty => ?_)
    fun c hty => ?_
  · rw [Option.isSome_iff_exists]
    simp only [Ty.ofKind?_eq_some_iff, List.mem_map]
    constructor
    · rintro ⟨ty, -, rfl⟩
      exact ⟨ty, rfl⟩
    · rintro ⟨ty, rfl⟩
      exact ⟨ty, ty.mem_all, rfl⟩
  · rw [Windowed.typeOf, hty]
  · rw [Parse.typeName, Parse.peek_bind, hty]
  · rw [Parse.typeName, Parse.peek_bind, hty]
    rfl

theorem declaration : Tracks Windowed.declaration Parse.declaration :=
  .bind (.separated .name) fun _ => .mark_bind (.bind .typeName fun _ => .pure _)

theorem varLines : Tracks Windowed.varLines Parse.varLines :=
  .fix_unit fun _ _ hself => .bind .declaration fun ds => .mark_bind
    (.ifPeek (.bind (hself ()) fun es => .pure (ds ++ es)) (.pure ds))

theorem variableSection : Tracks Windowed.variableSection Parse.variableSection :=
  .ifAccept nofun (fun _ => .varLines) (.pure [])

theorem parameters : Tracks Windowed.parameters Parse.parameters :=
  .bind (.parenthesized .declaration) fun ds => .pure ds.flatten

theorem afterProcedure (h : Tracks a p) :
    Tracks (Windowed.afterProcedure a) (Parse.afterProcedure p) :=
  .bind .name fun _ => .bind .parameters fun _ => .mark_bind (.bind h fun _ =>
    .mark_bind (.pure _))

theorem afterFunction (h : Tracks a p) :
    Tracks (Windowed.afterFunction a) (Parse.afterFunction p) :=
  .bind .name fun _ => .bind .parameters fun _ => .mark_bind (.bind .typeName fun _ =>
    .mark_bind (.bind h fun _ => .mark_bind (.pure _)))

theorem routines (h : Tracks a p) : Tracks (Windowed.routines a) (Parse.routines p) := by
  refine .fix_unit fun self self' hself m hm => ?_
  rw [Parse.peek_bind, kind_cursor]
  have hmore : ∀ {b : Windowed Routine} {q : Parse Routine}, Tracks b q → Tracks
      (b >>= fun r => self () >>= fun rs => Pure.pure (r :: rs))
      (q >>= fun r => self' () >>= fun rs => Pure.pure (r :: rs)) :=
    fun hb => .bind hb fun r => .bind (hself ()) fun rs => .pure (r :: rs)
  have hnone : m.token.kind ∉ [.keyword .procedure, .keyword .function] → Agrees m
      ((Windowed.accept [.keyword .procedure] >>= fun b =>
        if b = true then Windowed.afterProcedure a >>= fun r => self () >>= fun rs =>
          Pure.pure (r :: rs)
        else Windowed.accept [.keyword .function] >>= fun b =>
          if b = true then Windowed.afterFunction a >>= fun r => self () >>= fun rs =>
            Pure.pure (r :: rs)
          else Pure.pure []) m)
      ((Pure.pure [] : Parse (List Routine)) m.cursor) := by
    intro hk
    simp only [List.mem_cons, List.not_mem_nil, or_false, not_or] at hk
    exact .accept_of_not_mem (by simp [hk.1]) (.accept_of_not_mem (by simp [hk.2]) (.pure hm []))
  cases hk : m.token.kind with
  | keyword w =>
    cases w with
    | procedure =>
      refine .accept_of_mem hm (by simp [hk]) (by simp [hk]) ?_
      exact hmore (.afterProcedure h) m.advance hm.next
    | function =>
      refine .accept_of_not_mem (by simp [hk]) ?_
      refine .accept_of_mem hm (by simp [hk]) (by simp [hk]) ?_
      exact hmore (.afterFunction h) m.advance hm.next
    | program | var | begin | «end» | «if» | «then» | «else» | «while» | «do» | «repeat» | «until»
    | «for» | «to» | downto | write | writeln | read =>
      exact hnone (by simp [hk])
  | ident | literal | typeName | operator | mark | eof | error => exact hnone (by simp [hk])

theorem blockWith (h : Tracks a p) : Tracks (Windowed.blockWith a) (Parse.blockWith p) :=
  .bind .variableSection fun _ => .bind (.routines h) fun _ =>
    .bind (.compound .statement) fun _ => .pure _

theorem block : Tracks Windowed.block Parse.block :=
  .fix_unit fun _ _ hself => .blockWith (hself ())

/-- The rule for programs tracks that of the grammar. -/
theorem program : Tracks Windowed.program Parse.program := by
  rw [Windowed.program, Windowed.untilPeriod]
  simp only [bind_assoc, pure_bind]
  exact .keyword_bind (.bind .name fun t => .mark_bind (.bind .block fun b =>
    .mark_bind (.ifPeek (.pure (Program.mk t b)) (.fail fun _ => rfl))))

end Blocks

end Tracks

end MiniPascal
