import MiniPascal.Proofs.Reading.CompleteStmt

/-!
# What can be read as a program is returned

The rules for declarations and blocks return whatever can be read as such. A block always ends in
its body, so no condition on the token behind it is needed: a `var` section goes up to the first
line that does not begin with a name, and the routines up to the `begin` of the body.
-/

namespace MiniPascal

/-- Routines before the body of a block begin with a keyword of their own. -/
theorem ReadsBlock.kind_of_routines {c c' : Cursor} {rs : List Routine}
    (h : ReadsBlock c (.routines rs) c') :
    c.kind = .keyword .procedure ∨ c.kind = .keyword .function ∨ c = c' := by
  cases h with
  | noRoutines => exact .inr (.inr rfl)
  | consRoutine routine =>
    cases routine with
    | procedure kind => exact .inl kind
    | function kind => exact .inr (.inl kind)

/-- A routine takes tokens. -/
theorem ReadsBlock.length_lt_of_routine {c c' : Cursor} {r : Routine}
    (h : ReadsBlock c (.routine r) c') : c'.rest.length < c.rest.length := by
  cases h with
  | procedure _ _ params _ body =>
    have hle := (params.reaches.tail.trans body.reaches.tail).length_le
    simp only [List.length_cons] at hle ⊢
    omega
  | function _ _ params _ _ _ body =>
    have hle := (params.reaches.tail.tail.tail.trans body.reaches.tail).length_le
    simp only [List.length_cons] at hle ⊢
    omega

/-- Whether a part of a block begins with a name, by which the parser knows that a list of such
parts goes on. -/
def BlockPhrase.beginsWithName : BlockPhrase → Bool
  | .names _ | .group _ | .groups _ | .lines _ => true
  | .params _ | .vars _ | .routine _ | .routines _ | .block _ => false

/-- Declarations begin with a name. -/
theorem ReadsBlock.kind_eq_ident {c c' : Cursor} {p : BlockPhrase} (h : ReadsBlock c p c')
    (hp : p.beginsWithName = true) : c.kind = .ident := by
  induction h with
  | lastName kind | consName kind => exact kind
  | group _ _ _ ih | lastGroup _ ih | consGroup _ _ _ ih | lastLine _ _ ih | consLine _ _ _ ih =>
    exact ih rfl
  | noParams | params | noVars | vars | procedure | function | noRoutines | consRoutine | block =>
    cases hp

/-- Statements in a block begin with `begin`. -/
theorem ReadsStmt.kind_of_block {c c' : Cursor} {ss : List Stmt}
    (h : ReadsStmt c (.block ss) c') : c.kind = .keyword .begin := by
  cases h with
  | block kind => exact kind

namespace Parse

/-- Whether an action returns every block that can be read where fewer than `m` tokens are ahead.
The rule for the blocks of routines may rely on it. -/
def TakesBlocksBelow (m : Nat) (p : Parse Block) : Prop :=
  ∀ c b c', c.rest.length < m → ReadsBlock c (.block b) c' → p c = .ok b c'

/-- What is shown of a reading where at most `m` tokens are ahead: the rule for that part of a block
returns it, if what follows cannot prolong it. -/
def ReturnsBlock (m : Nat) (p : Parse Block) (c : Cursor) : BlockPhrase → Cursor → Prop
  | .names ts, c' => c'.kind ≠ .mark .comma → separated .comma name c = .ok ts c'
  | .group ds, c' => declaration c = .ok ds c'
  | .groups ds, c' => c'.kind ≠ .mark .comma →
    ∃ dss : List (List VarDecl), dss.flatten = ds ∧ separated .comma declaration c = .ok dss c'
  | .params ds, c' => parameters c = .ok ds c'
  | .lines ds, c' => c'.kind ≠ .ident → varLines c = .ok ds c'
  | .vars ds, c' => c'.kind ≠ .ident → c'.kind ≠ .keyword .var → variableSection c = .ok ds c'
  | .routine routine, c' => c.rest.length ≤ m → ∃ t r n, c = ⟨t :: r, n⟩ ∧
    (t.kind = .keyword .procedure ∧ afterProcedure p ⟨r, n⟩ = .ok routine c' ∨
      t.kind = .keyword .function ∧ afterFunction p ⟨r, n⟩ = .ok routine c')
  | .routines rs, c' => c.rest.length ≤ m → c'.kind = .keyword .begin → routines p c = .ok rs c'
  | .block b, c' => c.rest.length ≤ m → blockWith p c = .ok b c'

/-! ### Rules at a cursor -/

variable {p : Parse Block} {r : List Token} {n : ExprId}

theorem declaration_of_names {ts : List Token} {ty : Ty} {a b : Token} {c : Cursor}
    (hts : separated .comma name c = .ok ts ⟨a :: b :: r, n⟩) (ha : a.kind = .mark .colon)
    (hb : b.kind = .typeName ty) :
    declaration c = .ok (ts.map fun name => ⟨name, ty⟩) ⟨r, n⟩ := by
  have hty : typeName ⟨b :: r, n⟩ = .ok ty ⟨r, n⟩ := typeName_eq_ok.2 ⟨b, rfl, hb⟩
  rw [declaration, bind_of_ok hts, bind_of_ok (mark_cons ha _ n), bind_of_ok hty]
  rfl

theorem varLines_of_ne {ds : List VarDecl} {a : Token} {c : Cursor}
    (hds : declaration c = .ok ds ⟨a :: r, n⟩) (ha : a.kind = .mark .semicolon)
    (hne : (Cursor.mk r n).kind ≠ .ident) : varLines c = .ok ds ⟨r, n⟩ := by
  rw [varLines, fix_eq, bind_of_ok hds, bind_of_ok (mark_cons ha r n), peek_bind, if_neg hne]
  rfl

theorem varLines_of_eq {ds es : List VarDecl} {a : Token} {c d : Cursor}
    (hds : declaration c = .ok ds ⟨a :: r, n⟩) (ha : a.kind = .mark .semicolon)
    (hk : (Cursor.mk r n).kind = .ident) (hlt : r.length < c.rest.length)
    (hes : varLines ⟨r, n⟩ = .ok es d) : varLines c = .ok (ds ++ es) d := by
  rw [varLines, fix_eq, bind_of_ok hds, bind_of_ok (mark_cons ha r n), peek_bind, if_pos hk]
  exact bind_of_ok ((if_pos hlt).trans hes)

theorem afterProcedure_cons {t b d : Token} {r' r'' : List Token} {n' n'' : ExprId}
    {ds : List VarDecl} {block : Block} (ht : t.kind = .ident)
    (hds : parameters ⟨r, n⟩ = .ok ds ⟨b :: r', n'⟩) (hb : b.kind = .mark .semicolon)
    (hblock : p ⟨r', n'⟩ = .ok block ⟨d :: r'', n''⟩) (hd : d.kind = .mark .semicolon) :
    afterProcedure p ⟨t :: r, n⟩ = .ok ⟨t, ds, none, block⟩ ⟨r'', n''⟩ := by
  rw [afterProcedure, bind_of_ok (name_cons ht r n), bind_of_ok hds,
    bind_of_ok (mark_cons hb r' n'), bind_of_ok hblock, bind_of_ok (mark_cons hd r'' n'')]
  rfl

theorem afterFunction_cons {t b y d g : Token} {r' r'' : List Token} {n' n'' : ExprId}
    {ds : List VarDecl} {ty : Ty} {block : Block} (ht : t.kind = .ident)
    (hds : parameters ⟨r, n⟩ = .ok ds ⟨b :: y :: d :: r', n'⟩) (hb : b.kind = .mark .colon)
    (hy : y.kind = .typeName ty) (hd : d.kind = .mark .semicolon)
    (hblock : p ⟨r', n'⟩ = .ok block ⟨g :: r'', n''⟩) (hg : g.kind = .mark .semicolon) :
    afterFunction p ⟨t :: r, n⟩ = .ok ⟨t, ds, some ty, block⟩ ⟨r'', n''⟩ := by
  have hty : typeName ⟨y :: d :: r', n'⟩ = .ok ty ⟨d :: r', n'⟩ := typeName_eq_ok.2 ⟨y, rfl, hy⟩
  rw [afterFunction, bind_of_ok (name_cons ht r n), bind_of_ok hds,
    bind_of_ok (mark_cons hb _ n'), bind_of_ok hty, bind_of_ok (mark_cons hd r' n'),
    bind_of_ok hblock, bind_of_ok (mark_cons hg r'' n'')]
  rfl

theorem routines_of_begin {c : Cursor} (hc : c.kind = .keyword .begin) :
    routines p c = .ok [] c := by
  rw [routines, fix_eq, peek_bind, hc]
  rfl

theorem routines_cons {t : Token} {routine : Routine} {rs : List Routine} {c d : Cursor}
    (hroutine : t.kind = .keyword .procedure ∧ afterProcedure p ⟨r, n⟩ = .ok routine c ∨
      t.kind = .keyword .function ∧ afterFunction p ⟨r, n⟩ = .ok routine c)
    (hlt : c.rest.length ≤ r.length) (hrs : routines p c = .ok rs d) :
    routines p ⟨t :: r, n⟩ = .ok (routine :: rs) d := by
  rw [routines, fix_eq, peek_bind, Cursor.kind_cons]
  obtain ⟨ht, hroutine⟩ | ⟨ht, hroutine⟩ := hroutine
  · rw [ht]
    simp only [take_bind]
    rw [bind_of_ok hroutine]
    exact bind_of_ok ((if_pos (Nat.lt_succ_of_le hlt)).trans hrs)
  · rw [ht]
    simp only [take_bind]
    rw [bind_of_ok hroutine]
    exact bind_of_ok ((if_pos (Nat.lt_succ_of_le hlt)).trans hrs)

/-! ### Readings at a cursor -/

/-- Every reading is returned, if the rule for the blocks within is right below the bound. -/
theorem returnsBlock_of_reads {m : Nat} {p : Parse Block} (hp : TakesBlocksBelow m p)
    {c c' : Cursor} {phrase : BlockPhrase} (h : ReadsBlock c phrase c') :
    ReturnsBlock m p c phrase c' := by
  induction h with
  | lastName kind => exact fun hne => separated_of_ne (name_cons kind _ _) hne
  | consName kind comma _ ih =>
    exact fun hne => separated_of_eq (name_cons kind _ _) comma
      (Nat.lt_succ_of_lt (Nat.lt_succ_self _)) (ih hne)
  | group _ colon typeName ih =>
    exact declaration_of_names (ih (by simp [colon])) colon typeName
  | lastGroup _ ih => exact fun hne => ⟨[_], List.flatten_singleton, separated_of_ne ih hne⟩
  | consGroup group comma _ ih ih' =>
    intro hne
    obtain ⟨dss, rfl, hdss⟩ := ih' hne
    exact ⟨_ :: dss, List.flatten_cons, separated_of_eq ih comma group.reaches.length_le hdss⟩
  | noParams opening closing => exact bind_of_ok (parenthesized_nil opening closing _ _)
  | params opening inner closing ih =>
    obtain ⟨dss, rfl, hdss⟩ := ih (by simp [closing])
    refine bind_of_ok (parenthesized_cons opening ?_ hdss closing)
    simp [inner.kind_eq_ident rfl]
  | lastLine _ semicolon ih => exact fun hne => varLines_of_ne ih semicolon hne
  | consLine group semicolon rest ih ih' =>
    exact fun hne => varLines_of_eq ih semicolon (rest.kind_eq_ident rfl) group.reaches.length_le
      (ih' hne)
  | noVars =>
    intro _ hne
    rw [variableSection, peek_bind, if_neg hne]
    rfl
  | vars keyword _ ih =>
    intro hne _
    rw [variableSection, peek_bind, Cursor.kind_cons, if_pos keyword, take_bind]
    exact ih hne
  | procedure keyword name params heading body ending ih _ =>
    intro hm
    have hlt := params.reaches.tail.length_le
    refine ⟨_, _, _, rfl, .inl ⟨keyword,
      afterProcedure_cons name ih heading (hp _ _ _ ?_ body) ending⟩⟩
    simp only [List.length_cons] at hm hlt ⊢
    omega
  | function keyword name params colon result heading body ending ih _ =>
    intro hm
    have hlt := params.reaches.tail.tail.tail.length_le
    refine ⟨_, _, _, rfl, .inr ⟨keyword,
      afterFunction_cons name ih colon result heading (hp _ _ _ ?_ body) ending⟩⟩
    simp only [List.length_cons] at hm hlt ⊢
    omega
  | noRoutines => exact fun _ hc => routines_of_begin hc
  | consRoutine routine rest ih ih' =>
    intro hm hc
    have hlt := routine.length_lt_of_routine
    have hrest := ih' (by omega) hc
    obtain ⟨t, r, n, rfl, hroutine⟩ := ih hm
    exact routines_cons hroutine (Nat.le_of_lt_succ hlt) hrest
  | block vars routines body ih ih' =>
    intro hm
    have hbegin := body.kind_of_block
    have hlt := vars.reaches.length_le
    -- behind the variables comes a routine or the `begin` of the body, and neither is a name
    have hvars := ih ?_ ?_
    · have hroutines := ih' (Nat.le_trans hlt hm) hbegin
      rw [blockWith, bind_of_ok hvars, bind_of_ok hroutines, bind_of_ok (compound_of_reads body)]
      rfl
    · rcases routines.kind_of_routines with h | h | rfl <;> simp [*]
    · rcases routines.kind_of_routines with h | h | rfl <;> simp [*]

/-! ### Whole programs -/

/-- What can be read as a block with declarations is returned. -/
theorem block_of_reads {c c' : Cursor} {b : Block} (h : ReadsBlock c (.block b) c') :
    block c = .ok b c' := by
  refine fix_takes (motive := fun _ c b c' => ReadsBlock c (.block b) c')
    (fun self _ c b c' hself h => ?_) h
  have hbelow : TakesBlocksBelow c.rest.length (self ()) := hself ()
  exact returnsBlock_of_reads hbelow h (Nat.le_refl _)

/-- What can be read as a program is returned, if nothing is behind it. -/
theorem program_of_reads {c c' : Cursor} {p : Program} (h : ReadsProgram c p c')
    (hend : c'.kind = .eof) : program c = .ok p c' := by
  obtain ⟨keyword, name, semicolon, body, period⟩ := h
  rw [program, bind_of_ok (keyword_cons keyword _ _), bind_of_ok (name_cons name _ _),
    bind_of_ok (mark_cons semicolon _ _), bind_of_ok (block_of_reads body),
    bind_of_ok (mark_cons period _ _), peek_bind, if_pos hend]
  rfl

/-- The programs that the rules return are those that can be read up to the end. -/
theorem program_eq_ok {c c' : Cursor} {p : Program} :
    program c = .ok p c' ↔ ReadsProgram c p c' ∧ c'.kind = .eof :=
  ⟨readsProgram_of_program, fun h => program_of_reads h.1 h.2⟩

end Parse

end MiniPascal
