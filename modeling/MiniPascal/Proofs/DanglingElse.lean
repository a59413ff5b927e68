import MiniPascal.Proofs.Precedence

/-!
# The dangling `else`

The body of a branch or a loop can be written **bare**, without `begin` and `end`, if it is one
statement and no compound one. There is one exception: a branch behind which `else` comes cannot be
bare if it would **end open**, that is, with a conditional statement that has no `else` yet and
would take this one. `Renders` writes statements in this way, with a semicolon at the end of a list
or without.

Whatever is written so is read as the statements it was written from (`parse_inProgram_of_renders`).
The proof carries along that a reading is open only if what was written ends open.
-/

namespace MiniPascal

open Token

namespace Stmt

/-- Whether a statement is a block that stands by itself. As a body, it must be enclosed once more
to be told from a body of several statements. -/
def isCompound : Stmt → Bool
  | .compound _ => true
  | _ => false

mutual

/-- Whether a statement ends in a conditional one without `else`, where bodies are bare. An `else`
behind it would be taken by that one. -/
def endsOpen : Stmt → Bool
  | .ifThen .. => true
  | .ifElse _ _ otherwise => bodyEndsOpen otherwise
  | .whileDo _ body | .forLoop _ _ _ _ body => bodyEndsOpen body
  | .write .. | .read _ | .assign .. | .call .. | .repeatUntil .. | .compound _ => false

/-- Whether a body is bare and its statement ends open. A body between `begin` and `end` never does.
It is `endsOpen` for what a branch or a loop ends with. -/
def bodyEndsOpen : List Stmt → Bool
  | [s] => s.endsOpen
  | _ => false

end

/-- Whether a body is written without `begin` and `end`: it is one statement, which is no compound
one and, where the body is guarded against an `else` behind it, does not end open. -/
def isBare (guarded : Bool) : List Stmt → Bool
  | [s] => !s.isCompound && !(guarded && s.endsOpen)
  | _ => false

/-- Statements as they can stand in a program, which differ in where `begin`, `end` and semicolons
belong. They are the sorts of lists of tokens that `Renders` and `Part.Readable` are about. -/
inductive Part where
  | stmt (s : Stmt)
  /-- The body of a branch or a loop, which is guarded if `else` comes behind it. -/
  | body (guarded : Bool) (ss : List Stmt)
  /-- Statements up to `end` or `until`. -/
  | items (ss : List Stmt)

/-- The tokens are those of a statement with as few `begin` and `end` as possible, and a semicolon
may stand at the end of each list. If `free` holds, bodies that could be bare need not be. -/
inductive Renders (free : Bool) : Part → List Token → Prop where
  | write {newline : Bool} {args : List Expr} :
    Renders free (.stmt (.write newline args))
      (spelled (.keyword (if newline then .writeln else .write)) ::
        inParens (withCommas (Expr.terseList args)))
  | read {target : Token} :
    Renders free (.stmt (.read target)) (spelled (.keyword .read) :: inParens [target])
  | assign {target : Token} {value : Expr} :
    Renders free (.stmt (.assign target value)) (target :: spelled (.mark .assign) :: value.terse)
  | bareCall {callee : Token} : Renders free (.stmt (.call callee [])) [callee]
  | call {callee : Token} {args : List Expr} :
    Renders free (.stmt (.call callee args))
      (callee :: inParens (withCommas (Expr.terseList args)))
  | ifThen {condition : Expr} {body : List Stmt} {ts : List Token}
      (hbody : Renders free (.body false body) ts) :
    Renders free (.stmt (.ifThen condition body))
      (spelled (.keyword .if) :: (condition.terse ++ spelled (.keyword .then) :: ts))
  | ifElse {condition : Expr} {body otherwise : List Stmt} {ts us : List Token}
      (hbody : Renders free (.body true body) ts)
      (hotherwise : Renders free (.body false otherwise) us) :
    Renders free (.stmt (.ifElse condition body otherwise))
      (spelled (.keyword .if) :: (condition.terse ++ spelled (.keyword .then) ::
        (ts ++ spelled (.keyword .else) :: us)))
  | whileDo {condition : Expr} {body : List Stmt} {ts : List Token}
      (hbody : Renders free (.body false body) ts) :
    Renders free (.stmt (.whileDo condition body))
      (spelled (.keyword .while) :: (condition.terse ++ spelled (.keyword .do) :: ts))
  | repeatUntil {body : List Stmt} {condition : Expr} {ts : List Token}
      (hbody : Renders free (.items body) ts) :
    Renders free (.stmt (.repeatUntil body condition))
      (spelled (.keyword .repeat) :: (ts ++ spelled (.keyword .until) :: condition.terse))
  | forLoop {counter : Token} {first : Expr} {direction : Direction} {last : Expr}
      {body : List Stmt} {ts : List Token} (hbody : Renders free (.body false body) ts) :
    Renders free (.stmt (.forLoop counter first direction last body))
      (spelled (.keyword .for) :: counter :: spelled (.mark .assign) :: (first.terse ++
        spelled (.keyword direction.keyword) :: (last.terse ++ spelled (.keyword .do) :: ts)))
  | compound {body : List Stmt} {ts : List Token} (hbody : Renders free (.items body) ts) :
    Renders free (.stmt (.compound body)) (inBlock ts)
  | bare {guarded : Bool} {s : Stmt} {ts : List Token} (hbare : isBare guarded [s] = true)
      (hs : Renders free (.stmt s) ts) : Renders free (.body guarded [s]) ts
  | enclosed {guarded : Bool} {body : List Stmt} {ts : List Token}
      (hbare : free = true ∨ isBare guarded body = false) (hbody : Renders free (.items body) ts) :
    Renders free (.body guarded body) (inBlock ts)
  | nil : Renders free (.items []) []
  | last {s : Stmt} {ts : List Token} (hs : Renders free (.stmt s) ts) :
    Renders free (.items [s]) ts
  | lastSemicolon {s : Stmt} {ts : List Token} (hs : Renders free (.stmt s) ts) :
    Renders free (.items [s]) (ts ++ [spelled (.mark .semicolon)])
  | cons {s s' : Stmt} {ss : List Stmt} {ts us : List Token} (hs : Renders free (.stmt s) ts)
      (hss : Renders free (.items (s' :: ss)) us) :
    Renders free (.items (s :: s' :: ss)) (ts ++ spelled (.mark .semicolon) :: us)

/-! ### Everything can be rendered -/

mutual

theorem exists_renders (free : Bool) (s : Stmt) : ∃ ts, Renders free (.stmt s) ts := by
  cases s with
  | write newline args => exact ⟨_, .write⟩
  | read target => exact ⟨_, .read⟩
  | assign target value => exact ⟨_, .assign⟩
  | call callee args => exact ⟨_, .call⟩
  | ifThen condition body =>
    obtain ⟨ts, hbody⟩ := exists_renders_body free false body
    exact ⟨_, .ifThen hbody⟩
  | ifElse condition body otherwise =>
    obtain ⟨ts, hbody⟩ := exists_renders_body free true body
    obtain ⟨us, hotherwise⟩ := exists_renders_body free false otherwise
    exact ⟨_, .ifElse hbody hotherwise⟩
  | whileDo condition body =>
    obtain ⟨ts, hbody⟩ := exists_renders_body free false body
    exact ⟨_, .whileDo hbody⟩
  | repeatUntil body condition =>
    obtain ⟨ts, hbody⟩ := exists_renders_items free body
    exact ⟨_, .repeatUntil hbody⟩
  | forLoop counter first direction last body =>
    obtain ⟨ts, hbody⟩ := exists_renders_body free false body
    exact ⟨_, .forLoop hbody⟩
  | compound body =>
    obtain ⟨ts, hbody⟩ := exists_renders_items free body
    exact ⟨_, .compound hbody⟩

theorem exists_renders_body (free guarded : Bool) (ss : List Stmt) :
    ∃ ts, Renders free (.body guarded ss) ts := by
  obtain ⟨us, hitems⟩ := exists_renders_items free ss
  by_cases hbare : isBare guarded ss = true
  · match ss with
    | [s] =>
      obtain ⟨ts, hs⟩ := exists_renders free s
      exact ⟨ts, .bare hbare hs⟩
    | [] | _ :: _ :: _ => cases hbare
  · exact ⟨_, .enclosed (.inr (Bool.eq_false_iff.2 hbare)) hitems⟩

theorem exists_renders_items (free : Bool) (ss : List Stmt) :
    ∃ ts, Renders free (.items ss) ts := by
  match ss with
  | [] => exact ⟨[], .nil⟩
  | [s] =>
    obtain ⟨ts, hs⟩ := exists_renders free s
    exact ⟨ts, .last hs⟩
  | s :: s' :: ss =>
    obtain ⟨ts, hs⟩ := exists_renders free s
    obtain ⟨us, hss⟩ := exists_renders_items free (s' :: ss)
    exact ⟨_, .cons hs hss⟩

end

/-! ### Reading -/

/-- Whether tokens can be read as statements with their expressions numbered, whatever follows. What
does not end open is read as closed, and so is what is guarded. -/
def Part.Readable (ts : List Token) : Part → Prop
  | .stmt s => s.Formed → ∀ n rest, ∃ o, (o = true → s.endsOpen = true) ∧
    ReadsStmt ⟨ts ++ rest, n⟩ (.stmt o (s.number n).1) ⟨rest, (s.number n).2⟩
  | .body guarded ss => FormedList ss → ∀ n rest,
    ∃ o, (o = true → guarded = false ∧ bodyEndsOpen ss = true) ∧
      ReadsStmt ⟨ts ++ rest, n⟩ (.body o (numberList ss n).1) ⟨rest, (numberList ss n).2⟩
  | .items ss => FormedList ss → ∀ n rest,
    ReadsStmt ⟨ts ++ rest, n⟩ (.items (numberList ss n).1) ⟨rest, (numberList ss n).2⟩

/-- Only a block begins with `begin`. -/
theorem kind_ne_begin {c c' : Cursor} {o : Bool} {s : Stmt} (h : ReadsStmt c (.stmt o s) c')
    (hs : s.isCompound = false) : c.kind ≠ .keyword .begin := by
  cases h with
  | write kind =>
    rw [Cursor.kind_cons, kind]
    split <;> exact nofun
  | read kind | assign kind | bareCall kind | call kind | ifThen kind | ifElse kind | whileDo kind
  | repeatUntil kind | forLoop kind =>
    rw [Cursor.kind_cons, kind]
    exact nofun
  | compound => cases hs

theorem isCompound_number (s : Stmt) (n : ExprId) : (s.number n).1.isCompound = s.isCompound := by
  cases s <;> rfl

theorem readable_args {args : List Expr} (h : Expr.FormedList args) (n : ExprId)
    (rest : List Token) :
    ReadsExpr ⟨inParens (withCommas (Expr.terseList args)) ++ rest, n⟩
      (.args (Expr.numberList args n).1) ⟨rest, (Expr.numberList args n).2⟩ :=
  Expr.reads_terseArgs rest fun hne => Expr.reads_terseItems args h hne n

/-- Tokens that are rendered can be read. -/
theorem Renders.readable {free : Bool} {p : Part} {ts : List Token} (h : Renders free p ts) :
    p.Readable ts := by
  induction h with
  | write =>
    intro hargs n rest
    exact ⟨false, nofun, .write rfl (readable_args hargs n rest)⟩
  | read =>
    intro htarget n rest
    rw [List.cons_append, inParens_append]
    exact ⟨false, nofun, .read rfl rfl htarget rfl⟩
  | assign =>
    rintro ⟨htarget, hvalue⟩ n rest
    exact ⟨false, nofun, .assign htarget rfl (Expr.reads_terse_whole _ hvalue n rest)⟩
  | bareCall =>
    rintro ⟨hcallee, -⟩ n rest
    exact ⟨false, nofun, .bareCall hcallee⟩
  | call =>
    rintro ⟨hcallee, hargs⟩ n rest
    exact ⟨false, nofun, .call hcallee (readable_args hargs n rest)⟩
  | ifThen _ ih =>
    rintro ⟨hcondition, hbody⟩ n rest
    obtain ⟨o, -, hread⟩ := ih hbody _ rest
    rw [List.cons_append, List.append_assoc, List.cons_append]
    exact ⟨true, fun _ => rfl,
      .ifThen rfl (Expr.reads_terse_whole _ hcondition n _) rfl hread⟩
  | ifElse _ _ ih ih' =>
    rintro ⟨hcondition, hbody, hotherwise⟩ n rest
    obtain ⟨o', hopen', hread'⟩ := ih' hotherwise _ rest
    obtain ⟨o, hopen, hread⟩ := ih hbody _ _
    -- the first branch is guarded, so it is closed
    have hclosed : o = false := Bool.eq_false_iff.2 fun ho => nomatch (hopen ho).1
    subst hclosed
    rw [List.cons_append, List.append_assoc, List.cons_append, List.append_assoc,
      List.cons_append]
    exact ⟨o', fun ho => (hopen' ho).2,
      .ifElse rfl (Expr.reads_terse_whole _ hcondition n _) rfl hread rfl hread'⟩
  | whileDo _ ih =>
    rintro ⟨hcondition, hbody⟩ n rest
    obtain ⟨o, hopen, hread⟩ := ih hbody _ rest
    rw [List.cons_append, List.append_assoc, List.cons_append]
    exact ⟨o, fun ho => (hopen ho).2,
      .whileDo rfl (Expr.reads_terse_whole _ hcondition n _) rfl hread⟩
  | repeatUntil _ ih =>
    rintro ⟨hne, hbody, hcondition⟩ n rest
    rw [List.cons_append, List.append_assoc, List.cons_append]
    exact ⟨false, nofun, .repeatUntil rfl (ih hbody n _) (numberList_ne_nil hne n) rfl
      (Expr.reads_terse_whole _ hcondition _ rest)⟩
  | forLoop _ ih =>
    rintro ⟨hcounter, hfirst, hlast, hbody⟩ n rest
    obtain ⟨o, hopen, hread⟩ := ih hbody _ rest
    rw [List.cons_append, List.cons_append, List.cons_append, List.append_assoc,
      List.cons_append, List.append_assoc, List.cons_append]
    exact ⟨o, fun ho => (hopen ho).2, .forLoop rfl hcounter rfl
      (Expr.reads_terse_whole _ hfirst n _) rfl (Expr.reads_terse_whole _ hlast _ _) rfl hread⟩
  | compound _ ih =>
    intro hbody n rest
    rw [inBlock_append]
    exact ⟨false, nofun, .compound (.block rfl (ih hbody n _) rfl)⟩
  | @bare guarded s _ hbare _ ih =>
    rintro ⟨hs, -⟩ n rest
    obtain ⟨o, hopen, hread⟩ := ih hs n rest
    obtain ⟨hcompound, hguard⟩ := Bool.and_eq_true_iff.1 hbare
    have hs : (s.number n).1.isCompound = false := by
      rw [isCompound_number]
      simpa using hcompound
    refine ⟨o, fun ho => ⟨?_, hopen ho⟩, .single hread (kind_ne_begin hread hs)⟩
    simpa [hopen ho] using hguard
  | enclosed _ _ ih =>
    intro hbody n rest
    rw [inBlock_append]
    exact ⟨false, nofun, .enclosed (.block rfl (ih hbody n _) rfl)⟩
  | nil =>
    intro _ n rest
    exact .nil
  | last _ ih =>
    rintro ⟨hs, -⟩ n rest
    obtain ⟨o, -, hread⟩ := ih hs n rest
    exact .last hread
  | lastSemicolon _ ih =>
    rintro ⟨hs, -⟩ n rest
    obtain ⟨o, -, hread⟩ := ih hs n (spelled (.mark .semicolon) :: rest)
    rw [List.append_assoc, List.singleton_append]
    exact .cons hread rfl .nil
  | cons _ _ ih ih' =>
    rintro ⟨hs, hss⟩ n rest
    obtain ⟨o, -, hread⟩ := ih hs n _
    rw [List.append_assoc, List.cons_append]
    exact .cons hread rfl (ih' hss _ rest)

end Stmt

/-! ### Parsing -/

open Stmt

/-- Statements that are rendered as the body of a program are returned. -/
theorem parse_inProgram_of_renders {name : Token} (hname : name.kind = .ident) {free : Bool}
    {ss : List Stmt} (hss : FormedList ss) {ts : List Token} (h : Renders free (.items ss) ts) :
    (Parser.ofTokens (inProgram name ts)).parse.1 = .ok ⟨name, [], [], (numberList ss 0).1⟩ :=
  Parser.parse_inProgram hname fun rest _ => h.readable hss 0 rest

/-- Every list of statements can be rendered with as few `begin` and `end` as possible, and whatever
is rendered so, or with more of them around bodies that could be bare, is returned with its ids
renumbered in post-order. So an `else` belongs to the nearest conditional statement that can take
it, and a block that is a body of its own is kept. -/
theorem parse_of_renders {name : Token} (hname : name.kind = .ident) :
    (∀ ss, ∃ ts, Renders false (.items ss) ts) ∧
    (∀ free ss ts, FormedList ss → Renders free (.items ss) ts →
      (Parser.ofTokens (inProgram name ts)).parse.1 =
        .ok ⟨name, [], [], (numberList ss 0).1⟩) ∧
    (∀ free a b ss us ts vs, a.Formed → b.Formed → FormedList ss → FormedList us →
      Renders free (.body true ss) ts → Renders free (.body false us) vs →
      (Parser.ofTokens (inProgram name (spelled (.keyword .if) :: (a.terse ++
          spelled (.keyword .then) :: spelled (.keyword .if) :: (b.terse ++
          spelled (.keyword .then) :: (ts ++ spelled (.keyword .else) :: vs)))))).parse.1 =
        .ok ⟨name, [], [], (numberList [.ifThen a [.ifElse b ss us]] 0).1⟩) ∧
    (∀ free ss ts, FormedList ss → Renders free (.items ss) ts →
      (Parser.ofTokens (inProgram name (inBlock (inBlock ts)))).parse.1 =
        .ok ⟨name, [], [], (numberList [.compound [.compound ss]] 0).1⟩) := by
  refine ⟨exists_renders_items false,
    fun free ss ts hss hts => parse_inProgram_of_renders hname hss hts, ?_, ?_⟩
  · intro free a b ss us ts vs ha hb hss hus hts hvs
    have hinner : Renders free (.body false [.ifElse b ss us]) _ := .bare rfl (.ifElse hts hvs)
    have hformed : FormedList [.ifThen a [.ifElse b ss us]] :=
      ⟨⟨ha, ⟨hb, hss, hus⟩, trivial⟩, trivial⟩
    exact parse_inProgram_of_renders hname hformed (.last (.ifThen hinner))
  · intro free ss ts hss hts
    have hformed : FormedList [.compound [.compound ss]] := ⟨⟨hss, trivial⟩, trivial⟩
    exact parse_inProgram_of_renders hname hformed (.last (.compound (.last (.compound hts))))

/-- In `while a do if b then begin if c then x end else y;` the first branch is guarded. -/
theorem parse_of_renders_guarded :
    let var (text : String) : Token := ⟨.ident, text, .start⟩
    let ss : List Stmt := [.whileDo (.name 0 (var "a")) [.ifElse (.name 0 (var "b"))
      [.ifThen (.name 0 (var "c")) [.call (var "x") []]] [.call (var "y") []]]]
    let ts : List Token := [spelled (.keyword .while), var "a", spelled (.keyword .do),
      spelled (.keyword .if), var "b", spelled (.keyword .then), spelled (.keyword .begin),
      spelled (.keyword .if), var "c", spelled (.keyword .then), var "x", spelled (.keyword .end),
      spelled (.keyword .else), var "y", spelled (.mark .semicolon)]
    (var "p").kind = .ident ∧ FormedList ss ∧ Renders false (.items ss) ts ∧
      (Parser.ofTokens (inProgram (var "p") ts)).parse.1 =
        .ok ⟨var "p", [], [], (numberList ss 0).1⟩ := by
  intro var ss ts
  have hformed : FormedList ss := ⟨⟨rfl, ⟨rfl, ⟨⟨rfl, ⟨rfl, trivial⟩, trivial⟩, trivial⟩,
    ⟨rfl, trivial⟩, trivial⟩, trivial⟩, trivial⟩
  have hfirst : Renders false
      (.body true [.ifThen (.name 0 (var "c")) [.call (var "x") []]]) _ :=
    .enclosed (.inr rfl) (.last (.ifThen (.bare rfl .bareCall)))
  have hrenders : Renders false (.items ss) ts :=
    .lastSemicolon (.whileDo (.bare rfl (.ifElse hfirst (.bare rfl .bareCall))))
  obtain ⟨-, hparse, -⟩ := @parse_of_renders (var "p") rfl
  exact ⟨rfl, hformed, hrenders, hparse false ss ts hformed hrenders⟩

end MiniPascal
