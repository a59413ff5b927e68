/-!
# Sets of characters given by ranges of code points

A property of characters such as *alphabetic* is kept as a list of closed **ranges of code
points**, ascending and disjoint. `inRanges` looks a code point up from the left and stops at the
first range that lies beyond it, so an answer for a small code point reads one range only.
-/

namespace MiniPascal

/-- Ranges that **ascend**: none is reversed, and each begins beyond the end of the one before. It
is decided by running through the table once. -/
def Ascending : List (Nat × Nat) → Bool
  | [] => true
  | [r] => r.1 ≤ r.2
  | r :: s :: rs => r.1 ≤ r.2 && r.2 < s.1 && Ascending (s :: rs)

/-- Whether a code point lies in one of the ranges, which must ascend: the search stops at the first
range that begins beyond the code point. `inRanges_iff` says what it means. -/
def inRanges : List (Nat × Nat) → Nat → Bool
  | [], _ => false
  | r :: rs, n => if n < r.1 then false else n ≤ r.2 || inRanges rs n

/-- Nothing lies below the first range. -/
theorem inRanges_of_lt {r : Nat × Nat} (rs : List (Nat × Nat)) {n : Nat} (h : n < r.1) :
    inRanges (r :: rs) n = false := by
  simp [inRanges, h]

/-- Later ranges of an ascending list begin beyond the end of the first. -/
theorem Ascending.lt_of_mem {r : Nat × Nat} {rs : List (Nat × Nat)}
    (h : Ascending (r :: rs) = true) {s : Nat × Nat} (hs : s ∈ rs) : r.2 < s.1 := by
  induction rs generalizing r with
  | nil => simp at hs
  | cons t rs ih =>
    simp only [Ascending, Bool.and_eq_true, decide_eq_true_eq] at h
    have ht : t.1 ≤ t.2 := by
      cases rs <;> simp_all [Ascending]
    rcases List.mem_cons.1 hs with rfl | hs
    · exact h.1.2
    · have := ih h.2 hs
      omega

/-- The tail of an ascending list ascends. -/
theorem Ascending.tail {r : Nat × Nat} {rs : List (Nat × Nat)}
    (h : Ascending (r :: rs) = true) : Ascending rs = true := by
  cases rs with
  | nil => rfl
  | cons s rs => simp_all [Ascending]

/-- On ascending ranges the lookup is membership in one of them. -/
theorem inRanges_iff {rs : List (Nat × Nat)} (h : Ascending rs = true) {n : Nat} :
    inRanges rs n = true ↔ ∃ r ∈ rs, r.1 ≤ n ∧ n ≤ r.2 := by
  induction rs with
  | nil => simp [inRanges]
  | cons r rs ih =>
    by_cases below : n < r.1
    · have beyond : ∀ s ∈ rs, n < s.1 := fun s hs => by
        have := Ascending.lt_of_mem h hs
        have : r.1 ≤ r.2 := by cases rs <;> simp_all [Ascending]
        omega
      rw [inRanges_of_lt rs below]
      refine iff_of_false (by simp) ?_
      rintro ⟨s, hs, within⟩
      rcases List.mem_cons.1 hs with rfl | hs
      · omega
      · have := beyond s hs
        omega
    · simp [inRanges, below, ih (Ascending.tail h), Nat.le_of_not_lt below]

end MiniPascal
