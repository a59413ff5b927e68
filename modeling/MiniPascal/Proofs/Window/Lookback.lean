import Mathlib.Data.List.Basic
import Mathlib.Data.List.Induction
import Mathlib.Data.Nat.ModEq
import MiniPascal.Token.Ring

/-!
# What a window remembers

A push puts a token in front and takes the others one step back (`Lookback.back_zero_push`,
`Lookback.back_succ_push`). So a lookback window holds the end of the list of all tokens that were
pushed, and the seed where this list is too short (`Lookback.back_foldl_push`). This does not depend
on how often the slots were gone around.

A ring, which looks its indices up, does what the window does: it finds the slot for each push and
for each step back that stays in the window (`Lookback.push_ring`, `Lookback.back_ring`).
-/

namespace MiniPascal

namespace Lookback

variable {width : Nat}

/-! ### One push -/

/-- The newest token is the one that was pushed last. -/
theorem back_zero_push (window : Lookback width) (token : Token) :
    (window.push token).back 0 = .ok token := by
  have hslot : (window.push token).slot (width - 0) = window.slot 1 := by
    refine Fin.ext ?_
    simp [slot, push]
  rw [back, if_pos window.newest.pos, hslot]
  exact congrArg _ (Vector.getElem_set_self _)

/-- A push takes every slot one step further back. -/
private theorem slot_push (window : Lookback width) (token : Token) {steps : Nat}
    (h : steps + 1 < width) :
    (window.push token).slot (width - (steps + 1)) = window.slot (width - steps) := by
  refine Fin.ext ?_
  simp only [slot, push, Nat.mod_add_mod]
  congr 1
  omega

/-- A push writes to none of the slots that stay in the window. -/
private theorem slot_one_ne (window : Lookback width) {steps : Nat} (h : steps + 1 < width) :
    window.slot 1 ≠ window.slot (width - steps) := by
  intro heq
  have hmod : 1 % width = (width - steps) % width :=
    Nat.ModEq.add_left_cancel' window.newest.val (Fin.ext_iff.1 heq)
  rw [Nat.mod_eq_of_lt (by omega)] at hmod
  cases steps with
  | zero =>
    rw [Nat.sub_zero, Nat.mod_self] at hmod
    omega
  | succ steps =>
    rw [Nat.mod_eq_of_lt (by omega)] at hmod
    omega

/-- A push takes every token that stays one step further back. -/
theorem back_succ_push (window : Lookback width) (token : Token) {steps : Nat}
    (h : steps + 1 < width) : (window.push token).back (steps + 1) = window.back steps := by
  have hne : (window.slot 1).val ≠ (window.slot (width - steps)).val :=
    fun heq => slot_one_ne window h (Fin.ext heq)
  rw [back, if_pos h, back, if_pos (by omega), slot_push window token h]
  exact congrArg _ (Vector.getElem_set_ne (window.slot 1).isLt (window.slot _).isLt hne)

/-! ### Steps back in the list -/

/-- A step back that leaves the window is refused. -/
theorem back_of_le (window : Lookback width) {steps : Nat} (h : width ≤ steps) :
    window.back steps = .error ⟨steps, width⟩ :=
  if_neg (Nat.not_lt.2 h)

theorem back_ofSeed (seed : Token) (pos : 0 < width) {steps : Nat} (h : steps < width) :
    (ofSeed seed pos).back steps = .ok seed := by
  rw [back, if_pos h]
  exact congrArg _ (Vector.getElem_replicate _)

/-- After any pushes, a step back within the window is one in the list of what was pushed. Behind
the end of the list there are seeds. -/
theorem back_foldl_push (seed : Token) (pos : 0 < width) (tokens : List Token) {steps : Nat}
    (h : steps < width) :
    (tokens.foldl push (ofSeed seed pos)).back steps = .ok (tokens.reverse.getD steps seed) := by
  -- from the latest push, by which every other token came one step further back
  induction tokens using List.reverseRecOn generalizing steps with
  | nil => exact back_ofSeed seed pos h
  | append_singleton tokens token ih =>
    rw [List.foldl_concat, List.reverse_concat]
    cases steps with
    | zero => rw [back_zero_push, List.getD_cons_zero]
    | succ steps => rw [back_succ_push _ _ h, List.getD_cons_succ, ih (Nat.lt_of_succ_lt h)]

/-! ### Bare indices -/

/-- The slot that is written next is one of the ring. -/
theorem push_ring (window : Lookback width) (token : Token) :
    window.ring.push token = .ok (window.push token).ring :=
  dif_pos (Nat.mod_lt _ window.newest.pos)

/-- The slot to which steps lead back is one of the ring, unless they leave the window. -/
theorem back_ring (window : Lookback width) (steps : Nat) :
    window.ring.back steps = (window.back steps).mapError .lookback := by
  rw [Ring.back, back]
  split
  · next h =>
    have hindex : (window.ring.head + width - steps) % width = window.slot (width - steps) := by
      rw [slot, Nat.add_sub_assoc (Nat.le_of_lt h)]
      rfl
    rw [Ring.read, hindex, Vector.getElem?_eq_getElem (window.slot _).isLt]
    rfl
  · rfl

/-- A ring has no fault in any number of pushes. -/
theorem foldlM_push_ring (window : Lookback width) (tokens : List Token) :
    tokens.foldlM Ring.push window.ring = .ok (tokens.foldl push window).ring := by
  induction tokens generalizing window with
  | nil => rfl
  | cons token tokens ih =>
    rw [List.foldlM_cons, push_ring, List.foldl_cons, ← ih]
    rfl

/-- After any pushes, a window gives the token that was pushed a number of pushes before the latest,
or the seed if there were no more pushes than that number. It refuses exactly the numbers that are
not below its width. The ring, which is not held to its slots by its type, goes through the same
pushes without a fault, has its head on one of its slots, and gives the same tokens. -/
theorem back_after_pushes (pos : 0 < width) (seed : Token) (tokens : List Token) :
    let window := tokens.foldl push (ofSeed seed pos)
    (∀ steps, window.back steps =
      if steps < width then .ok (tokens.reverse.getD steps seed) else .error ⟨steps, width⟩) ∧
    tokens.foldlM Ring.push (.ofSeed width seed) = .ok window.ring ∧ window.ring.head < width ∧
    ∀ steps, window.ring.back steps =
      if steps < width then .ok (tokens.reverse.getD steps seed)
      else .error (.lookback ⟨steps, width⟩) := by
  intro window
  have hback : ∀ steps, window.back steps =
      if steps < width then .ok (tokens.reverse.getD steps seed) else .error ⟨steps, width⟩ := by
    intro steps
    split
    · next h => exact back_foldl_push seed pos tokens h
    · next h => exact back_of_le window (Nat.not_lt.1 h)
  refine ⟨hback, foldlM_push_ring (ofSeed seed pos) tokens, window.newest.isLt, fun steps => ?_⟩
  rw [back_ring, hback]
  split <;> rfl

/-- Four tokens in a window of three, and two in one of four. -/
theorem back_after_pushes_around :
    let token (text : String) : Token := ⟨.ident, text, .start⟩
    let four := [token "a", token "b", token "c", token "d"]
    let two := [token "a", token "b"]
    0 < 3 ∧ 0 < 4 ∧
      (four.foldl push (ofSeed (token "seed") (show 0 < 3 by decide))).back 2 = .ok (token "b") ∧
      (two.foldl push (ofSeed (token "seed") (show 0 < 4 by decide))).back 2 =
        .ok (token "seed") ∧
      ∃ ring, four.foldlM Ring.push (.ofSeed 3 (token "seed")) = .ok ring ∧ ring.head < 3 ∧
        ring.back 3 = .error (.lookback ⟨3, 3⟩) := by
  intro token four two
  obtain ⟨hback, hpush, hhead, hring⟩ :=
    @back_after_pushes 3 (by decide) (token "seed") four
  obtain ⟨hback', -⟩ := @back_after_pushes 4 (by decide) (token "seed") two
  exact ⟨by decide, by decide, hback 2, hback' 2, _, hpush, hhead, hring 3⟩

end Lookback

end MiniPascal
