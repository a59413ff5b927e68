import MiniPascal.Parse.Program
import MiniPascal.Proofs.Action
import MiniPascal.Syntax.Map

/-!
# What a parser does not look at

A parser looks at the kinds of tokens, and no further ahead than at the next one. So its runs are
preserved by every **change** of the input that keeps kinds: texts and positions may become others,
ids may be counted from another number, and from some token on the input may go on in another way,
as long as a run does not get past that token. The result is then changed in the same manner
(`Natural`), in particular a failure stays a failure with the same cause.

Such a property of two runs goes through all rules: it holds of the actions they are built from and
is kept when actions are put together. For recursive rules see `Natural.fix`.
-/

namespace MiniPascal

/-- A change of what a parser reads, which its actions do not notice: tokens keep their kinds, ids
still count up, and the input ends in another way of the same first kind. -/
structure Change where
  /-- What becomes of tokens. -/
  token : Token → Token
  /-- What becomes of ids. -/
  id : ExprId → ExprId
  /-- How the input ends before the change, from some token on. -/
  before : List Token
  /-- How the input ends after the change. -/
  after : List Token
  kind_token : ∀ t, (token t).kind = t.kind
  id_succ : ∀ n, id (n + 1) = id n + 1
  /-- The token where the ends begin may be looked at. -/
  kind_head? : after.head?.map Token.kind = before.head?.map Token.kind

/-- The cursor at which a run ends, with or without a value. What a run has taken is what lies
before it. It does not say whether the run failed. -/
def endOf {α : Type} : EStateM.Result Cause Cursor α → Cursor
  | .ok _ c => c
  | .error _ c => c

namespace Change

variable (g : Change)

/-- A cursor in the input before the change: tokens that stay, and then the end of the input as it
was. Actions are compared only as long as they stay among the tokens that stay. -/
def source (ts : List Token) (n : ExprId) : Cursor :=
  ⟨ts ++ g.before, n⟩

/-- The same place after the change: the tokens that stay are changed one by one, and the new end of
the input follows. Ids are changed as well. -/
def target (ts : List Token) (n : ExprId) : Cursor :=
  ⟨ts.map g.token ++ g.after, g.id n⟩

theorem source_of_nil (h : g.before = []) (ts : List Token) (n : ExprId) :
    g.source ts n = ⟨ts, n⟩ := by
  rw [source, h, List.append_nil]

theorem target_of_nil (h : g.after = []) (ts : List Token) (n : ExprId) :
    g.target ts n = ⟨ts.map g.token, g.id n⟩ := by
  rw [target, h, List.append_nil]

/-- A change of the tokens and ids in all of the input, which has no end that is replaced as a
whole. Both ends are empty, so an action is natural for all of its runs. -/
def throughout (token : Token → Token) (id : ExprId → ExprId)
    (kind_token : ∀ t, (token t).kind = t.kind) (id_succ : ∀ n, id (n + 1) = id n + 1) : Change where
  token := token
  id := id
  before := []
  after := []
  kind_token := kind_token
  id_succ := id_succ
  kind_head? := rfl

/-- The change that replaces tokens by others of the same kinds, and nothing else. A change of
positions or of letter case is one. Ids stay as they are. -/
def relabelling (token : Token → Token) (kind_token : ∀ t, (token t).kind = t.kind) : Change :=
  throughout token (fun n => n) kind_token fun _ => rfl

/-- The next kind is not changed. -/
theorem kind_target (ts : List Token) (n : ExprId) :
    (g.target ts n).kind = (g.source ts n).kind := by
  cases ts with
  | cons t ts => exact g.kind_token t
  | nil =>
    have hhead := g.kind_head?
    rw [target, source, List.map_nil, List.nil_append, List.nil_append]
    cases hb : g.before <;> cases ha : g.after <;> simp_all

theorem source_inj {ts us : List Token} {n n' : ExprId} (h : g.source ts n = g.source us n') :
    ts = us ∧ n = n' := by
  obtain ⟨hrest, hid⟩ := Cursor.mk.inj h
  exact ⟨List.append_cancel_right hrest, hid⟩

/-- The numbers of tokens ahead differ as much as the two ends do. -/
theorem length_target (ts : List Token) (n : ExprId) : (g.target ts n).rest.length =
    (g.source ts n).rest.length - g.before.length + g.after.length := by
  simp only [target, source, List.length_append, List.length_map]
  omega

/-- Bounds that differ as much as the two ends do are kept together. -/
theorem length_target_lt_iff (ts : List Token) (n : ExprId) (bound : Nat) :
    (g.target ts n).rest.length < bound - g.before.length + g.after.length ↔
      (g.source ts n).rest.length < bound := by
  rw [g.length_target]
  simp only [source, List.length_append]
  omega

/-- Ahead of a cursor from which the end is reached there are some tokens and the end. -/
theorem exists_source {c : Cursor} {us : List Token} {n : ExprId}
    (h : c.Reaches (g.source us n)) : ∃ ts, c = g.source ts c.nextId := by
  obtain ⟨vs, hvs⟩ := h
  refine ⟨vs ++ us, ?_⟩
  rw [source, List.append_assoc]
  exact congrArg (Cursor.mk · c.nextId) hvs.symm

end Change

/-- Whether an action does after a change what another one does before it, as long as that one stays
before the end. It never gives a token back. -/
structure Natural {α β : Type} (g : Change) (m : α → β) (p : Parse α) (q : Parse β) : Prop where
  forward : ∀ c : Cursor, c.Reaches (endOf (p c))
  ok : ∀ {ts n a us n'}, p (g.source ts n) = .ok a (g.source us n') →
    q (g.target ts n) = .ok (m a) (g.target us n')
  error : ∀ {ts n cause us n'}, p (g.source ts n) = .error cause (g.source us n') →
    q (g.target ts n) = .error cause (g.target us n')

namespace Natural

variable {α β γ δ ι κ : Type} {g : Change} {m : α → β} {m' : γ → δ}

/-! ### Steps -/

theorem pure (a : α) : Natural g m (pure a) (pure (m a)) where
  forward c := .refl c
  ok h := by
    injection h with ha hc
    obtain ⟨rfl, rfl⟩ := g.source_inj hc
    exact ha ▸ rfl
  error h := by cases h

theorem throw (cause : Cause) : Natural g m (throw cause) (throw cause) where
  forward c := .refl c
  ok h := by cases h
  error h := by
    injection h with hcause hc
    obtain ⟨rfl, rfl⟩ := g.source_inj hc
    exact hcause ▸ rfl

theorem peek : Natural g id Parse.peek Parse.peek where
  forward c := by
    rw [Parse.peek_apply]
    exact .refl c
  ok h := by
    rw [Parse.peek_apply] at h ⊢
    injection h with hk hc
    obtain ⟨rfl, rfl⟩ := g.source_inj hc
    rw [g.kind_target, ← hk]
    rfl
  error h := by
    rw [Parse.peek_apply] at h
    cases h

theorem take : Natural g g.token Parse.take Parse.take where
  forward c := by
    obtain ⟨_ | ⟨t, r⟩, n⟩ := c
    · exact .refl _
    · exact (Cursor.Reaches.refl ⟨r, n⟩).cons
  ok := by
    intro ts n a us n' h
    cases ts with
    | cons t ts =>
      injection h with ha hc
      have hsource : g.source ts n = g.source us n' := hc
      obtain ⟨rfl, rfl⟩ := g.source_inj hsource
      exact ha ▸ rfl
    | nil =>
      -- the token that is taken belongs to the end
      have hlength : ∀ r, Parse.take ⟨r, n⟩ = .ok a (g.source us n') →
          g.before.length < r.length := by
        rintro (_ | ⟨t, r⟩) h
        · cases h
        · cases h
          simp only [List.length_append, List.length_cons]
          omega
      exact absurd (hlength g.before h) (Nat.lt_irrefl _)
  error := by
    intro ts n cause us n' h
    cases ts with
    | cons t ts => cases h
    | nil =>
      -- nothing is left, so the end is empty, and it is so after the change
      cases hbefore : g.before with
      | cons t r =>
        rw [Change.source, hbefore] at h
        cases h
      | nil =>
        have hafter : g.after = [] := by
          have hhead := g.kind_head?
          rw [hbefore, List.head?_nil, Option.map_none, Option.map_eq_none_iff] at hhead
          exact List.head?_eq_none_iff.1 hhead
        have hsource : g.source [] n = ⟨[], n⟩ := congrArg (Cursor.mk · n) hbefore
        have htarget : g.target [] n = ⟨[], g.id n⟩ := congrArg (Cursor.mk · (g.id n)) hafter
        rw [hsource] at h
        injection h with hcause hc
        obtain ⟨rfl, rfl⟩ := g.source_inj (hsource.trans hc)
        rw [htarget, ← hcause]
        rfl

theorem freshId : Natural g g.id Parse.freshId Parse.freshId where
  forward c := .refl c
  ok := by
    intro ts n a us n' h
    injection h with ha hc
    obtain ⟨rfl, rfl⟩ := g.source_inj (n := n + 1) hc
    subst ha
    rw [Change.target, Change.target, g.id_succ]
    rfl
  error h := by cases h

theorem bind {p : Parse α} {q : Parse β} {f : α → Parse γ} {f' : β → Parse δ}
    (hp : Natural g m p q) (hf : ∀ a, Natural g m' (f a) (f' (m a))) :
    Natural g m' (p >>= f) (q >>= f') where
  forward c := by
    have hpc := hp.forward c
    cases h : p c with
    | ok a d =>
      rw [h] at hpc
      rw [Parse.bind_of_ok h]
      -- the first step goes forward, and the second one goes on from there
      exact hpc.trans ((hf a).forward d)
    | error cause d =>
      rw [h] at hpc
      rw [Parse.bind_of_error h]
      exact hpc
  ok h := by
    obtain ⟨a, d, hpd, hfd⟩ := Parse.bind_eq_ok.1 h
    have hreaches := (hf a).forward d
    rw [hfd] at hreaches
    -- the second step never gives a token back, so the first one stopped before the end, too
    obtain ⟨vs, hd⟩ := g.exists_source hreaches
    rw [hd] at hpd hfd
    rw [Parse.bind_of_ok (hp.ok hpd)]
    exact (hf a).ok hfd
  error := by
    intro ts n cause us n' h
    cases hpd : p (g.source ts n) with
    | ok a d =>
      rw [Parse.bind_of_ok hpd] at h
      have hreaches := (hf a).forward d
      rw [h] at hreaches
      obtain ⟨vs, hd⟩ := g.exists_source hreaches
      rw [hd] at hpd h
      rw [Parse.bind_of_ok (hp.ok hpd)]
      exact (hf a).error h
    | error cause' d =>
      rw [Parse.bind_of_error hpd] at h
      injection h with hcause hd
      subst hcause hd
      exact Parse.bind_of_error (hp.error hpd)

/-- A choice that does not depend on the change. -/
theorem ite {c : Prop} [Decidable c] {p p' : Parse α} {q q' : Parse β}
    (h : c → Natural g m p q) (h' : ¬c → Natural g m p' q') :
    Natural g m (if c then p else p') (if c then q else q') := by
  split
  · next hc => exact h hc
  · next hc => exact h' hc

/-! ### Recursion -/

/-- A recursive action that is only followed where fewer than `bound` tokens are ahead. It takes the
place of the guard in `Parse.fix`, so that the induction is on `bound`. -/
private def below (rule : (ι → Parse α) → ι → Parse α) (bound : Nat) (i : ι) : Parse α := fun c =>
  if c.rest.length < bound then Parse.fix rule i c else .error .unexpected c

private theorem below_of_lt {rule : (ι → Parse α) → ι → Parse α} {bound : Nat} {i : ι} {c : Cursor}
    (h : c.rest.length < bound) : below rule bound i c = Parse.fix rule i c :=
  if_pos h

private theorem fix_eq_below (rule : (ι → Parse α) → ι → Parse α) (i : ι) (c : Cursor) :
    Parse.fix rule i c = rule (below rule c.rest.length) i c :=
  Parse.fix_eq rule i c

/-- A change may lengthen or shorten the end, and then the bounds of the two actions differ as much
as the two ends do. -/
private theorem natural_below {rule : (ι → Parse α) → ι → Parse α}
    {rule' : (κ → Parse β) → κ → Parse β} {k : ι → κ}
    (step : ∀ self self', (∀ j, Natural g m (self j) (self' (k j))) →
      ∀ i, Natural g m (rule self i) (rule' self' (k i))) (bound : Nat) (i : ι) :
    Natural g m (below rule bound i)
      (below rule' (bound - g.before.length + g.after.length) (k i)) := by
  -- what is below a bound makes rounds of which the recursion is below a smaller one
  induction bound using Nat.strongRecOn generalizing i with
  | _ bound ih =>
    have hround : ∀ c : Cursor, c.rest.length < bound → Natural g m
        (rule (below rule c.rest.length) i)
        (rule' (below rule' (c.rest.length - g.before.length + g.after.length)) (k i)) :=
      fun c hc => step _ _ (fun j => ih _ hc j) i
    refine ⟨fun c => ?_, ?_, ?_⟩
    · rw [below]
      split
      · next hc =>
        rw [fix_eq_below]
        exact (hround c hc).forward c
      · exact .refl c
    · intro ts n a us n' h
      rw [below] at h ⊢
      split at h
      · next hc =>
        rw [if_pos ((g.length_target_lt_iff ts n bound).2 hc), fix_eq_below, g.length_target]
        rw [fix_eq_below] at h
        exact (hround _ hc).ok h
      · cases h
    · intro ts n cause us n' h
      rw [below] at h ⊢
      split at h
      · next hc =>
        rw [if_pos ((g.length_target_lt_iff ts n bound).2 hc), fix_eq_below, g.length_target]
        rw [fix_eq_below] at h
        exact (hround _ hc).error h
      · next hc =>
        injection h with hcause hd
        obtain ⟨rfl, rfl⟩ := g.source_inj hd
        rw [if_neg (mt (g.length_target_lt_iff ts n bound).1 hc), hcause]

/-- The property goes over to recursive actions, if it goes through one round of them. -/
theorem fix {rule : (ι → Parse α) → ι → Parse α} {rule' : (κ → Parse β) → κ → Parse β} {k : ι → κ}
    (step : ∀ self self', (∀ j, Natural g m (self j) (self' (k j))) →
      ∀ i, Natural g m (rule self i) (rule' self' (k i))) (i : ι) :
    Natural g m (Parse.fix rule i) (Parse.fix rule' (k i)) := by
  -- from a given cursor on, the action is below a bound that is not reached
  have hbelow := fun bound => natural_below step bound i
  refine ⟨fun c => ?_, ?_, ?_⟩
  · rw [← below_of_lt (Nat.lt_succ_self c.rest.length)]
    exact (hbelow _).forward c
  · intro ts n a us n' h
    have hlt := Nat.lt_succ_self (g.source ts n).rest.length
    rw [← below_of_lt hlt] at h
    rw [← below_of_lt ((g.length_target_lt_iff ts n _).2 hlt)]
    exact (hbelow _).ok h
  · intro ts n cause us n' h
    have hlt := Nat.lt_succ_self (g.source ts n).rest.length
    rw [← below_of_lt hlt] at h
    rw [← below_of_lt ((g.length_target_lt_iff ts n _).2 hlt)]
    exact (hbelow _).error h

/-- Recursive actions that are not told anything but the cursor. -/
theorem fix_unit {rule : (Unit → Parse α) → Unit → Parse α}
    {rule' : (Unit → Parse β) → Unit → Parse β}
    (step : ∀ self self', (∀ j, Natural g m (self j) (self' j)) →
      Natural g m (rule self ()) (rule' self' ())) :
    Natural g m (Parse.fix rule ()) (Parse.fix rule' ()) :=
  fix (k := id) (fun self self' h _ => step self self' h) ()

/-! ### Tokens and lists -/

theorem expect (k : Kind) : Natural g g.token (Parse.expect k) (Parse.expect k) :=
  .bind .peek fun _ => .ite (fun _ => .take) fun _ => .throw _

theorem name : Natural g g.token Parse.name Parse.name :=
  .expect .ident

theorem keyword (w : Keyword) : Natural g id (Parse.keyword w) (Parse.keyword w) :=
  .bind (.expect _) fun _ => .pure ()

theorem mark (mk : Mark) : Natural g id (Parse.mark mk) (Parse.mark mk) :=
  .bind (.expect _) fun _ => .pure ()

theorem separated {mk : Mark} {p : Parse α} {q : Parse β} (h : Natural g m p q) :
    Natural g (List.map m) (Parse.separated mk p) (Parse.separated mk q) :=
  .fix_unit fun _ _ hself => .bind h fun _ => .bind .peek fun _ =>
    .ite (fun _ => .bind .take fun _ => .bind (hself ()) fun _ => .pure _) fun _ => .pure [_]

theorem parenthesized {p : Parse α} {q : Parse β} (h : Natural g m p q) :
    Natural g (List.map m) (Parse.parenthesized p) (Parse.parenthesized q) :=
  .bind (.mark _) fun _ => .bind .peek fun _ =>
    .ite (fun _ => .bind .take fun _ => .pure []) fun _ =>
      .bind (.separated h) fun _ => .bind (.mark _) fun _ => .pure _

end Natural

end MiniPascal
