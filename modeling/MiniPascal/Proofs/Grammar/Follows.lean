import MiniPascal.Parse.Program
import MiniPascal.Proofs.Grammar.Ebnf

/-!
# A run of a rule follows the grammar

Whatever a parser has taken can be completed to a word of the grammar. A run **follows** a
right-hand side if the kinds of the tokens that it takes make up a word, where it succeeds, and the
beginning of a word, where it fails (`Follows`). The rules are taken in the order in which they are
built from each other; the two facts are shown together, since a run that fails in its second part
has succeeded in the first.

That a beginning can always be completed rests on the fact that every rule has a word
(`Rule.productive`).
-/

namespace MiniPascal

/-! ### Every rule has a word -/

/-- Whether a word can be derived from a right-hand side at all, so that what has begun well can be
completed. -/
def Ebnf.Productive (e : Ebnf) : Prop :=
  ∃ w, Derives e w

/-- Whether a right-hand side names at least one kind wherever it wants a token. Otherwise no word
could be derived there. -/
def Ebnf.namesKinds : Ebnf → Bool
  | .token ks => !ks.isEmpty
  | .rule _ => true
  | .seq a b | .alt a b => a.namesKinds && b.namesKinds
  | .opt _ | .many _ => true

/-- A word can be derived from every rule. -/
theorem Rule.productive (r : Rule) : (Ebnf.rule r).Productive := by
  -- the rules that others need come first, from the tightest expressions up to blocks
  obtain ⟨primary, hprimary⟩ : (Ebnf.rule .primary).Productive :=
    ⟨_, .rule (.left (.seq (.token (.head _)) .none))⟩
  obtain ⟨unary, hunary⟩ : (Ebnf.rule .unary).Productive :=
    ⟨_, .rule (.right (.right hprimary))⟩
  obtain ⟨factor, hfactor⟩ : (Ebnf.rule .factor).Productive := ⟨_, .rule (.seq hunary .nil)⟩
  obtain ⟨term, hterm⟩ : (Ebnf.rule .term).Productive := ⟨_, .rule (.seq hfactor .nil)⟩
  obtain ⟨comparison, hcomparison⟩ : (Ebnf.rule .comparison).Productive :=
    ⟨_, .rule (.seq hterm .none)⟩
  obtain ⟨equality, hequality⟩ : (Ebnf.rule .equality).Productive :=
    ⟨_, .rule (.seq hcomparison .none)⟩
  have hexpression : Derives (.rule .expression) equality := .rule hequality
  obtain ⟨arglist, harglist⟩ : (Ebnf.rule .arglist).Productive :=
    ⟨_, .rule (.seq (.token (.head _)) (.seq .none (.token (.head _))))⟩
  obtain ⟨call, hcall⟩ : (Ebnf.rule .callStmt).Productive :=
    ⟨_, .rule (.seq (.token (.head _)) .none)⟩
  have hstatement : Derives (.rule .statement) call :=
    .rule (.right (.right (.right (.left hcall))))
  have hbody : Derives (.rule .stmtOrBlock) call := .rule (.left hstatement)
  obtain ⟨compound, hcompound⟩ : (Ebnf.rule .compoundStmt).Productive :=
    ⟨_, .rule (.seq (.token (.head _)) (.seq .none (.token (.head _))))⟩
  obtain ⟨type, htype⟩ : (Ebnf.rule .type).Productive := ⟨_, .rule (.token (.head _))⟩
  obtain ⟨names, hnames⟩ : (Ebnf.rule .identList).Productive :=
    ⟨_, .rule (.seq (.token (.head _)) .nil)⟩
  obtain ⟨params, hparams⟩ : (Ebnf.rule .paramlist).Productive :=
    ⟨_, .rule (.seq (.token (.head _)) (.seq .none (.token (.head _))))⟩
  obtain ⟨declarations, hdeclarations⟩ : (Ebnf.rule .declarations).Productive :=
    ⟨_, .rule (.seq .none .nil)⟩
  obtain ⟨block, hblock⟩ : (Ebnf.rule .block).Productive :=
    ⟨_, .rule (.seq hdeclarations hcompound)⟩
  cases r with
  | program =>
    exact ⟨_, .rule (.seq (.token (.head _)) (.seq (.token (.head _)) (.seq (.token (.head _))
      (.seq hblock (.token (.head _))))))⟩
  | block => exact ⟨_, hblock⟩
  | declarations => exact ⟨_, hdeclarations⟩
  | varDecl => exact ⟨_, .rule (.seq hnames (.seq (.token (.head _)) htype))⟩
  | identList => exact ⟨_, hnames⟩
  | type => exact ⟨_, htype⟩
  | procDecl =>
    exact ⟨_, .rule (.seq (.token (.head _)) (.seq (.token (.head _)) (.seq hparams
      (.seq (.token (.head _)) (.seq hblock (.token (.head _)))))))⟩
  | funcDecl =>
    exact ⟨_, .rule (.seq (.token (.head _)) (.seq (.token (.head _)) (.seq hparams
      (.seq (.token (.head _)) (.seq htype (.seq (.token (.head _))
        (.seq hblock (.token (.head _)))))))))⟩
  | paramlist => exact ⟨_, hparams⟩
  | statement => exact ⟨_, hstatement⟩
  | compoundStmt => exact ⟨_, hcompound⟩
  | writeStmt => exact ⟨_, .rule (.seq (.token (.head _)) harglist)⟩
  | readStmt =>
    exact ⟨_, .rule (.seq (.token (.head _)) (.seq (.token (.head _)) (.seq (.token (.head _))
      (.token (.head _)))))⟩
  | assignStmt => exact ⟨_, .rule (.seq (.token (.head _)) (.seq (.token (.head _)) hexpression))⟩
  | callStmt => exact ⟨_, hcall⟩
  | ifStmt =>
    exact ⟨_, .rule (.seq (.token (.head _)) (.seq hexpression (.seq (.token (.head _))
      (.seq hbody .none))))⟩
  | whileStmt =>
    exact ⟨_, .rule (.seq (.token (.head _)) (.seq hexpression (.seq (.token (.head _)) hbody)))⟩
  | repeatStmt =>
    exact ⟨_, .rule (.seq (.token (.head _)) (.seq (.seq hstatement .nil) (.seq .none
      (.seq (.token (.head _)) hexpression))))⟩
  | forStmt =>
    exact ⟨_, .rule (.seq (.token (.head _)) (.seq (.token (.head _)) (.seq (.token (.head _))
      (.seq hexpression (.seq (.token (.head _)) (.seq hexpression (.seq (.token (.head _))
        hbody)))))))⟩
  | stmtOrBlock => exact ⟨_, hbody⟩
  | expression => exact ⟨_, hexpression⟩
  | equality => exact ⟨_, hequality⟩
  | comparison => exact ⟨_, hcomparison⟩
  | term => exact ⟨_, hterm⟩
  | factor => exact ⟨_, hfactor⟩
  | unary => exact ⟨_, hunary⟩
  | primary => exact ⟨_, hprimary⟩
  | literal => exact ⟨_, .rule (.token (.head _))⟩
  | arglist => exact ⟨_, harglist⟩

/-- A word can be derived from every right-hand side that names kinds for its tokens. -/
theorem Ebnf.productive {e : Ebnf} (h : e.namesKinds = true) : e.Productive := by
  induction e with
  | token ks =>
    cases ks with
    | nil => cases h
    | cons k ks => exact ⟨[k], .token (.head ks)⟩
  | rule r => exact r.productive
  | seq a b iha ihb =>
    rw [namesKinds, Bool.and_eq_true] at h
    obtain ⟨u, hu⟩ := iha h.1
    obtain ⟨v, hv⟩ := ihb h.2
    exact ⟨u ++ v, .seq hu hv⟩
  | alt a b iha _ =>
    rw [namesKinds, Bool.and_eq_true] at h
    obtain ⟨u, hu⟩ := iha h.1
    exact ⟨u, .left hu⟩
  | opt a => exact ⟨[], .none⟩
  | many a => exact ⟨[], .nil⟩

/-! ### Runs that follow the grammar -/

/-- The kinds of the tokens ahead, which is all of them that a derivation looks at. -/
def Cursor.kinds (c : Cursor) : List Kind :=
  c.rest.map Token.kind

/-- Whether a run from a cursor has taken a word, or, if it failed, the beginning of a word. What it
read is measured by what is left. -/
def Follows {α : Type} (e : Ebnf) (c : Cursor) : EStateM.Result Cause Cursor α → Prop
  | .ok _ c' => ∃ w, c.kinds = w ++ c'.kinds ∧ Derives e w
  | .error _ c' => ∃ w us, c.kinds = w ++ c'.kinds ∧ Derives e (w ++ us)

namespace Follows

variable {α β : Type} {e e' a b : Ebnf} {c : Cursor}

/-- What follows one right-hand side follows another one that has the same words. -/
theorem imp {x : EStateM.Result Cause Cursor α} (h : Follows e c x)
    (he : ∀ w, Derives e w → Derives e' w) : Follows e' c x := by
  cases x with
  | ok x c' =>
    obtain ⟨w, hw, hd⟩ := h
    exact ⟨w, hw, he w hd⟩
  | error cause c' =>
    obtain ⟨w, us, hw, hd⟩ := h
    exact ⟨w, us, hw, he _ hd⟩

theorem rule {r : Rule} {x : EStateM.Result Cause Cursor α} (h : Follows r.body c x) :
    Follows (.rule r) c x :=
  h.imp fun _ => .rule

/-- A run that takes nothing follows what has the empty word. -/
theorem ok (x : α) (h : Derives e []) : Follows e c (.ok x c) :=
  ⟨[], rfl, h⟩

/-- A run that fails at once follows what has a word at all. -/
theorem error (cause : Cause) (h : e.Productive) : Follows (α := α) e c (.error cause c) := by
  obtain ⟨w, hw⟩ := h
  exact ⟨[], w, rfl, hw⟩

/-- After a token has been taken, the rest of the run follows the rest of the right-hand side. -/
theorem cons {t : Token} {r : List Token} {n : ExprId} {x : EStateM.Result Cause Cursor α}
    (h : Follows e ⟨r, n⟩ x) (he : ∀ w, Derives e w → Derives e' (t.kind :: w)) :
    Follows e' ⟨t :: r, n⟩ x := by
  cases x with
  | ok x c' =>
    obtain ⟨w, hw, hd⟩ := h
    exact ⟨t.kind :: w, congrArg (t.kind :: ·) hw, he w hd⟩
  | error cause c' =>
    obtain ⟨w, us, hw, hd⟩ := h
    exact ⟨t.kind :: w, us, congrArg (t.kind :: ·) hw, he _ hd⟩

/-- Two parts of a run follow two parts of a right-hand side. -/
theorem bind {p : Parse α} {f : α → Parse β} (hp : Follows a c (p c))
    (hf : ∀ x d, Follows b d (f x d)) (hb : b.Productive) : Follows (.seq a b) c ((p >>= f) c) := by
  cases h : p c with
  | ok x d =>
    rw [h] at hp
    obtain ⟨u, hu, hdu⟩ := hp
    rw [Parse.bind_of_ok h]
    have hrest := hf x d
    cases hx : f x d with
    | ok y c' =>
      rw [hx] at hrest
      obtain ⟨v, hv, hdv⟩ := hrest
      exact ⟨u ++ v, by rw [hu, hv, List.append_assoc], .seq hdu hdv⟩
    | error cause c' =>
      rw [hx] at hrest
      obtain ⟨v, vs, hv, hdv⟩ := hrest
      refine ⟨u ++ v, vs, by rw [hu, hv, List.append_assoc], ?_⟩
      rw [List.append_assoc]
      exact .seq hdu hdv
  | error cause c' =>
    rw [h] at hp
    obtain ⟨u, us, hu, hdu⟩ := hp
    rw [Parse.bind_of_error h]
    -- the second part has not been tried, so any word of it completes the first one
    obtain ⟨v, hv⟩ := hb
    refine ⟨u, us ++ v, hu, ?_⟩
    rw [← List.append_assoc]
    exact .seq hdu hv

/-- What is done with a result without taking tokens does not count. -/
theorem check {p : Parse α} {f : α → Parse β} (hp : Follows e c (p c))
    (hf : ∀ x d, ∃ d', d'.rest = d.rest ∧
      ((∃ y, f x d = .ok y d') ∨ ∃ cause, f x d = .error cause d')) :
    Follows e c ((p >>= f) c) := by
  cases h : p c with
  | ok x d =>
    rw [h] at hp
    obtain ⟨w, hw, hd⟩ := hp
    obtain ⟨d', hrest, ⟨y, hy⟩ | ⟨cause, hcause⟩⟩ := hf x d
    · rw [Parse.bind_of_ok h, hy]
      exact ⟨w, by rw [hw, Cursor.kinds, Cursor.kinds, hrest], hd⟩
    · rw [Parse.bind_of_ok h, hcause]
      refine ⟨w, [], by rw [hw, Cursor.kinds, Cursor.kinds, hrest], ?_⟩
      rwa [List.append_nil]
  | error cause c' =>
    rw [h] at hp
    rw [Parse.bind_of_error h]
    exact hp

/-- What is made of a result does not count. -/
theorem map {p : Parse α} {f : α → Parse β} (hp : Follows e c (p c))
    (hf : ∀ x d, ∃ y d', f x d = .ok y d' ∧ d'.rest = d.rest) : Follows e c ((p >>= f) c) := by
  refine hp.check fun x d => ?_
  obtain ⟨y, d', hy, hrest⟩ := hf x d
  exact ⟨d', hrest, .inl ⟨y, hy⟩⟩

end Follows

/-! ### Words of lists -/

namespace Derives

variable {a b c : Ebnf} {w : List Kind}

/-- Three parts in order, taken apart in either way. -/
theorem assoc (h : Derives (.seq (.seq a b) c) w) : Derives (.seq a (.seq b c)) w := by
  obtain _ | _ | ⟨hab, hc⟩ := h
  obtain _ | _ | ⟨ha, hb⟩ := hab
  rw [List.append_assoc]
  exact .seq ha (.seq hb hc)

theorem assoc' (h : Derives (.seq a (.seq b c)) w) : Derives (.seq (.seq a b) c) w := by
  obtain _ | _ | ⟨ha, hbc⟩ := h
  obtain _ | _ | ⟨hb, hc⟩ := hbc
  rw [← List.append_assoc]
  exact .seq (.seq ha hb) hc

/-- A list behind a mark goes on with another list. -/
theorem many_of_list {m : Mark} (h : Derives (.list m a) w) :
    Derives (.many (.seq (.mark m) a)) (.mark m :: w) := by
  obtain _ | _ | ⟨ha, hrest⟩ := h
  exact .cons (.seq (.token (.head _)) ha) hrest

/-- A word of one of several right-hand sides. -/
theorem oneOf {e : Ebnf} {es : List Ebnf} (h : Derives a w) (ha : a ∈ e :: es) :
    Derives (.oneOf e es) w := by
  induction es generalizing e with
  | nil =>
    rw [List.mem_singleton] at ha
    exact ha ▸ h
  | cons e' es ih =>
    rcases List.mem_cons.1 ha with rfl | ha
    · exact .left h
    · exact .right (ih ha)

end Derives

end MiniPascal
