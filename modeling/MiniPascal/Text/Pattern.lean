/-!
# Patterns with preferences

A **pattern** matches beginnings of a text, often more than one of them. These **candidates** come in
an order of preference: more characters of a class before fewer, an optional part before none, and
what the first part of a pattern prefers before what the second one does. The **first match** is the
one that a matcher finds which tries them in this order and goes back to the latest choice whenever
it cannot go on. In general it is not the longest.
-/

namespace MiniPascal

/-- A pattern of texts, built from classes of characters. There are as many ways to build one as
`numberPattern`, the pattern of numerals, needs, and no more. -/
inductive Pattern where
  /-- One character of a class. -/
  | one (cls : Char → Bool)
  /-- One or more characters of a class. -/
  | many (cls : Char → Bool)
  /-- A match of the first pattern, and one of the second behind it. -/
  | seq (a b : Pattern)
  /-- A match of the pattern, or nothing. -/
  | optional (p : Pattern)

namespace Pattern

/-- The beginnings of a text of one or more characters of a class, the longest first. This is the
order in which a search that is greedy and goes back tries them. -/
def runs (cls : Char → Bool) : List Char → List (List Char)
  | [] => []
  | c :: cs => if cls c then (runs cls cs ++ [[]]).map (c :: ·) else []

/-- The matches at the beginning of a text, in order of preference: a repetition prefers more to
less, an option prefers a match to nothing, and a sequence decides on its first part before its
second. -/
def candidates : Pattern → List Char → List (List Char)
  | one _, [] => []
  | one cls, c :: _ => if cls c then [[c]] else []
  | many cls, cs => runs cls cs
  | seq a b, cs =>
    (a.candidates cs).flatMap fun m => (b.candidates (cs.drop m.length)).map (m ++ ·)
  | optional p, cs => p.candidates cs ++ [[]]

/-- The match at the beginning of a text that is preferred to all others, which is the one that a
leftmost-first search reports. There is none if the pattern does not match there. -/
def first? (p : Pattern) (cs : List Char) : Option (List Char) :=
  (p.candidates cs).head?

/-! ### First matches -/

theorem runs_eq_nil {cls : Char → Bool} {cs : List Char} (h : cs.takeWhile cls = []) :
    runs cls cs = [] := by
  cases cs with
  | nil => rfl
  | cons c cs =>
    by_cases hc : cls c = true
    · rw [List.takeWhile_cons_of_pos hc] at h
      cases h
    · exact if_neg hc

/-- As many characters of a class are taken as there are. -/
theorem head?_runs {cls : Char → Bool} {cs : List Char} (h : cs.takeWhile cls ≠ []) :
    (runs cls cs).head? = some (cs.takeWhile cls) := by
  induction cs with
  | nil => exact absurd rfl h
  | cons c cs ih =>
    by_cases hc : cls c = true
    · rw [runs, if_pos hc, List.takeWhile_cons_of_pos hc, List.head?_map, List.head?_append]
      by_cases hmore : cs.takeWhile cls = []
      · rw [runs_eq_nil hmore, hmore]
        rfl
      · rw [ih hmore]
        rfl
    · rw [List.takeWhile_cons_of_neg hc] at h
      exact absurd rfl h

/-- The first match of a class is as long as it can be. -/
theorem first?_many (cls : Char → Bool) (cs : List Char) :
    (many cls).first? cs =
      if cs.takeWhile cls = [] then none else some (cs.takeWhile cls) := by
  change (runs cls cs).head? = _
  split
  · next h => rw [runs_eq_nil h, List.head?_nil]
  · next h => exact head?_runs h

/-- The first match of a sequence is found along the candidates of its first part. -/
theorem first?_seq (a b : Pattern) (cs : List Char) :
    (seq a b).first? cs =
      (a.candidates cs).findSome? fun m => (b.first? (cs.drop m.length)).map (m ++ ·) := by
  rw [first?, candidates, List.head?_flatMap]
  exact congrArg (fun f => List.findSome? f _) (funext fun m => List.head?_map)

/-- One character goes before the first match of what is to follow it. -/
theorem first?_seq_one (cls : Char → Bool) (b : Pattern) (c : Char) (cs : List Char) :
    (seq (one cls) b).first? (c :: cs) = if cls c then (b.first? cs).map (c :: ·) else none := by
  rw [first?_seq, candidates]
  split
  · rw [List.findSome?_singleton]
    rfl
  · rfl

/-- The matcher does not go back if the second part matches behind the first match of the first. -/
theorem first?_seq_of_first? {a b : Pattern} {cs m m' : List Char} (ha : a.first? cs = some m)
    (hb : b.first? (cs.drop m.length) = some m') : (seq a b).first? cs = some (m ++ m') := by
  obtain ⟨ms, hms⟩ := List.head?_eq_some_iff.1 ha
  rw [first?_seq, hms, List.findSome?_cons, hb]
  rfl

/-- An optional part is left out only if it has no match. -/
theorem first?_optional (p : Pattern) (cs : List Char) :
    (optional p).first? cs = some ((p.first? cs).getD []) := by
  rw [first?, candidates, List.head?_append, first?]
  cases (p.candidates cs).head? <;> rfl

end Pattern

end MiniPascal
