import MiniPascal.Parse.Basic

/-!
# Runs of parsing actions

What the actions from which all rules are built do at a cursor. A run that succeeds is opened step
by step: `bind_eq_ok` splits it at the first step, `expect_eq_ok` and its companions tell which
token was taken, and `fix_eq_ok` is the induction by which a property of one round of a recursive
rule becomes a property of the rule.
-/

namespace MiniPascal

/-- The kind of the next token; at the end of the input, that of the end token. It is what `peek`
gives (`peek_apply`), as a function of the cursor. -/
def Cursor.kind (c : Cursor) : Kind :=
  match c.rest with
  | [] => .eof
  | token :: _ => token.kind

@[simp]
theorem Cursor.kind_cons (t : Token) (r : List Token) (n : ExprId) :
    (Cursor.mk (t :: r) n).kind = t.kind := rfl

@[simp]
theorem Cursor.kind_nil (n : ExprId) : (Cursor.mk [] n).kind = .eof := rfl

/-- A kind other than that of the end is the kind of a token ahead. -/
theorem Cursor.exists_of_kind {c : Cursor} {k : Kind} (h : c.kind = k) (hk : k ≠ .eof) :
    ∃ t r n, c = ⟨t :: r, n⟩ ∧ t.kind = k := by
  obtain ⟨rest, n⟩ := c
  cases rest with
  | nil => exact absurd h.symm hk
  | cons t r => exact ⟨t, r, n, rfl, h⟩

/-! ### Progress -/

/-- Whether the second cursor lies **ahead** of the first: what is left at the second is the end of
what is left at the first. Ids are not compared. Every action leads from a cursor to one that it
reaches. -/
def Cursor.Reaches (c c' : Cursor) : Prop :=
  c'.rest <:+ c.rest

namespace Cursor.Reaches

variable {c d e : Cursor} {t : Token} {r : List Token} {n : ExprId}

theorem refl (c : Cursor) : c.Reaches c :=
  List.suffix_rfl

theorem trans (h : c.Reaches d) (h' : d.Reaches e) : c.Reaches e :=
  List.IsSuffix.trans h' h

/-- What lies ahead of a cursor lies ahead of the cursors one token before. -/
theorem cons (h : (Cursor.mk r n).Reaches c) : (Cursor.mk (t :: r) n).Reaches c :=
  List.IsSuffix.trans h (List.suffix_cons t r)

/-- What comes one token after a cursor that lies ahead lies ahead, too. -/
theorem tail (h : c.Reaches ⟨t :: r, n⟩) : c.Reaches ⟨r, n⟩ :=
  List.IsSuffix.trans (List.suffix_cons t r) h

theorem length_le (h : c.Reaches d) : d.rest.length ≤ c.rest.length :=
  List.IsSuffix.length_le h

end Cursor.Reaches

namespace Parse

variable {α β ι : Type}

/-! ### Steps in sequence -/

theorem pure_apply (a : α) (c : Cursor) : (pure a : Parse α) c = .ok a c := rfl

/-- A successful run of two steps is a successful run of each. -/
theorem bind_eq_ok {p : Parse α} {f : α → Parse β} {c c' : Cursor} {b : β} :
    (p >>= f) c = .ok b c' ↔ ∃ a d, p c = .ok a d ∧ f a d = .ok b c' := by
  change EStateM.bind p f c = _ ↔ _
  rw [EStateM.bind]
  cases p c with
  | ok a d =>
    constructor
    · intro h
      exact ⟨a, d, rfl, h⟩
    · rintro ⟨_, _, ⟨⟩, h⟩
      exact h
  | error e d => simp

/-- After a first step that succeeds the second one runs. -/
theorem bind_of_ok {p : Parse α} {f : α → Parse β} {c d : Cursor} {a : α} (h : p c = .ok a d) :
    (p >>= f) c = f a d := by
  change EStateM.bind p f c = _
  rw [EStateM.bind, h]

/-- A first step that fails ends the run. -/
theorem bind_of_error {p : Parse α} {f : α → Parse β} {c d : Cursor} {cause : Cause}
    (h : p c = .error cause d) : (p >>= f) c = .error cause d := by
  change EStateM.bind p f c = _
  rw [EStateM.bind, h]

theorem peek_apply (c : Cursor) : peek c = .ok c.kind c := by
  obtain ⟨_ | _, _⟩ := c <;> rfl

theorem peek_bind (f : Kind → Parse β) (c : Cursor) : (peek >>= f) c = f c.kind c :=
  bind_of_ok (peek_apply c)

theorem take_bind (f : Token → Parse β) (t : Token) (r : List Token) (n : ExprId) :
    (take >>= f) ⟨t :: r, n⟩ = f t ⟨r, n⟩ := rfl

/-! ### Expected tokens -/

/-- A token of the expected kind is taken. -/
theorem expect_cons {t : Token} {k : Kind} (h : t.kind = k) (r : List Token) (n : ExprId) :
    expect k ⟨t :: r, n⟩ = .ok t ⟨r, n⟩ := by
  rw [expect, peek_bind, Cursor.kind_cons, if_pos h]
  rfl

/-- Without a token of the expected kind nothing is taken. -/
theorem expect_of_ne {c : Cursor} {k : Kind} (h : c.kind ≠ k) :
    expect k c = .error (.expected [k]) c := by
  rw [expect, peek_bind, if_neg h]
  rfl

/-- An expectation is met by the next token and takes it. -/
theorem expect_eq_ok {k : Kind} {c c' : Cursor} {t : Token} :
    expect k c = .ok t c' ↔ c = ⟨t :: c'.rest, c'.nextId⟩ ∧ t.kind = k := by
  constructor
  · intro h
    obtain ⟨rest, n⟩ := c
    by_cases hk : (Cursor.mk rest n).kind = k
    · cases rest with
      | nil =>
        rw [expect, peek_bind, if_pos hk] at h
        cases h
      | cons u r =>
        rw [expect_cons hk] at h
        cases h
        exact ⟨rfl, hk⟩
    · rw [expect_of_ne hk] at h
      cases h
  · rintro ⟨rfl, h⟩
    exact expect_cons h _ _

theorem name_cons {t : Token} (h : t.kind = .ident) (r : List Token) (n : ExprId) :
    name ⟨t :: r, n⟩ = .ok t ⟨r, n⟩ :=
  expect_cons h r n

theorem keyword_cons {t : Token} {w : Keyword} (h : t.kind = .keyword w) (r : List Token)
    (n : ExprId) : keyword w ⟨t :: r, n⟩ = .ok () ⟨r, n⟩ :=
  bind_of_ok (expect_cons h r n)

theorem mark_cons {t : Token} {m : Mark} (h : t.kind = .mark m) (r : List Token) (n : ExprId) :
    mark m ⟨t :: r, n⟩ = .ok () ⟨r, n⟩ :=
  bind_of_ok (expect_cons h r n)

theorem name_eq_ok {c c' : Cursor} {t : Token} :
    name c = .ok t c' ↔ c = ⟨t :: c'.rest, c'.nextId⟩ ∧ t.kind = .ident :=
  expect_eq_ok

/-- What is taken and then forgotten is still known to have been there. -/
private theorem expect_unit_eq_ok {k : Kind} {c c' : Cursor} {u : Unit} :
    (expect k >>= fun _ => pure ()) c = .ok u c' ↔
      ∃ t, c = ⟨t :: c'.rest, c'.nextId⟩ ∧ t.kind = k := by
  simp only [bind_eq_ok, expect_eq_ok, pure_apply]
  constructor
  · rintro ⟨t, d, h, ⟨⟩⟩
    exact ⟨t, h⟩
  · rintro ⟨t, h⟩
    exact ⟨t, c', h, rfl⟩

theorem keyword_eq_ok {w : Keyword} {c c' : Cursor} {u : Unit} :
    keyword w c = .ok u c' ↔ ∃ t, c = ⟨t :: c'.rest, c'.nextId⟩ ∧ t.kind = .keyword w :=
  expect_unit_eq_ok

theorem mark_eq_ok {m : Mark} {c c' : Cursor} {u : Unit} :
    mark m c = .ok u c' ↔ ∃ t, c = ⟨t :: c'.rest, c'.nextId⟩ ∧ t.kind = .mark m :=
  expect_unit_eq_ok

/-! ### Recursion -/

/-- A reference of a rule to itself, as it is followed from the given start. -/
theorem fix_apply (rule : (ι → Parse α) → ι → Parse α) (i : ι) (start : Cursor) :
    ∃ self : ι → Parse α, fix rule i start = rule self i start ∧
      ∀ j c, self j c = if c.rest.length < start.rest.length then fix rule j c
        else .error .unexpected c :=
  ⟨_, fix_eq rule i start, fun _ _ => rfl⟩

/-- What holds of the outcome of one round whenever it holds of the rounds within holds of the
whole. A round that is not followed fails without taking anything. -/
theorem fix_induct {rule : (ι → Parse α) → ι → Parse α}
    {motive : ι → Cursor → EStateM.Result Cause Cursor α → Prop}
    (stop : ∀ j c, motive j c (.error .unexpected c))
    (step : ∀ self : ι → Parse α, (∀ j c, motive j c (self j c)) →
      ∀ i c, motive i c (rule self i c)) (i : ι) (c : Cursor) : motive i c (fix rule i c) := by
  -- by induction on the number of tokens ahead, which gets smaller in the rounds that are followed
  induction h : c.rest.length using Nat.strongRecOn generalizing i c with
  | _ length ih =>
    obtain ⟨self, hfix, hself⟩ := fix_apply rule i c
    rw [hfix]
    refine step self (fun j d => ?_) i c
    rw [hself]
    split
    · next shorter => exact ih d.rest.length (h ▸ shorter) j d rfl
    · exact stop j d

/-- What holds of every successful round whenever it holds of the rounds within holds of every
successful run. -/
theorem fix_eq_ok {rule : (ι → Parse α) → ι → Parse α}
    {motive : ι → Cursor → α → Cursor → Prop}
    (step : ∀ self : ι → Parse α, (∀ j c a c', self j c = .ok a c' → motive j c a c') →
      ∀ i c a c', rule self i c = .ok a c' → motive i c a c')
    {i : ι} {c c' : Cursor} {a : α} (h : fix rule i c = .ok a c') : motive i c a c' := by
  refine fix_induct (motive := fun i c result => ∀ a c', result = .ok a c' → motive i c a c')
    (fun _ _ _ _ h => by cases h) (fun self hself i c a c' => ?_) i c a c' h
  exact step self (fun j d b d' => hself j d b d') i c a c'

/-- Whatever a round returns, if the rounds within return it where fewer tokens are ahead, is
returned by the whole. -/
theorem fix_takes {rule : (ι → Parse α) → ι → Parse α} {motive : ι → Cursor → α → Cursor → Prop}
    (step : ∀ (self : ι → Parse α) i c a c',
      (∀ j d b d', d.rest.length < c.rest.length → motive j d b d' → self j d = .ok b d') →
        motive i c a c' → rule self i c = .ok a c')
    {i : ι} {c c' : Cursor} {a : α} (h : motive i c a c') : fix rule i c = .ok a c' := by
  induction hlength : c.rest.length using Nat.strongRecOn generalizing i c a c' with
  | _ length ih =>
    obtain ⟨self, hfix, hself⟩ := fix_apply rule i c
    rw [hfix]
    refine step self i c a c' (fun j d b d' hlt hd => ?_) h
    rw [hself, if_pos hlt]
    exact ih d.rest.length (hlength ▸ hlt) hd rfl

/-! ### Lists of items -/

/-- A list ends where no separator follows an item. -/
theorem separated_of_ne {m : Mark} {item : Parse α} {c d : Cursor} {a : α} (h : item c = .ok a d)
    (hk : d.kind ≠ .mark m) : separated m item c = .ok [a] d := by
  rw [separated, fix_eq, bind_of_ok h, peek_bind, if_neg hk]
  rfl

/-- A list goes on where a separator follows an item. -/
theorem separated_of_eq {m : Mark} {item : Parse α} {c d : Cursor} {a : α} {as : List α}
    {t : Token} {r : List Token} {n : ExprId} (h : item c = .ok a ⟨t :: r, n⟩)
    (hk : t.kind = .mark m) (hlt : r.length < c.rest.length)
    (hrest : separated m item ⟨r, n⟩ = .ok as d) : separated m item c = .ok (a :: as) d := by
  rw [separated, fix_eq, bind_of_ok h, peek_bind, Cursor.kind_cons, if_pos hk, take_bind]
  -- the rest of the list is read further ahead, so the recursion is followed
  exact bind_of_ok ((if_pos hlt).trans hrest)

theorem parenthesized_nil {item : Parse α} {a b : Token} (ha : a.kind = .mark .openParen)
    (hb : b.kind = .mark .closeParen) (r : List Token) (n : ExprId) :
    parenthesized item ⟨a :: b :: r, n⟩ = .ok [] ⟨r, n⟩ := by
  rw [parenthesized, bind_of_ok (mark_cons ha _ n), peek_bind, Cursor.kind_cons, if_pos hb]
  rfl

theorem parenthesized_cons {item : Parse α} {a b : Token} {r r' : List Token} {n n' : ExprId}
    {as : List α} (ha : a.kind = .mark .openParen)
    (hne : (Cursor.mk r n).kind ≠ .mark .closeParen)
    (h : separated .comma item ⟨r, n⟩ = .ok as ⟨b :: r', n'⟩) (hb : b.kind = .mark .closeParen) :
    parenthesized item ⟨a :: r, n⟩ = .ok as ⟨r', n'⟩ := by
  rw [parenthesized, bind_of_ok (mark_cons ha r n), peek_bind, if_neg hne, bind_of_ok h,
    bind_of_ok (mark_cons hb r' n')]
  rfl

end Parse

end MiniPascal
