import MiniPascal.Token.Basic

/-!
# A window on the latest tokens

A **lookback window** remembers the tokens that were pushed last, as many as it is wide, in a ring:
the next slot to be written is the one after the newest, and it holds the oldest. A window is
filled with a seed when it is made, so that every step back within its width finds a token.
-/

namespace MiniPascal

/-- A ring of tokens with the index of the newest. The slots behind it, going around the ring, hold
older and older tokens; the index is a slot by its type. -/
structure Lookback (width : Nat) where
  slots : Vector Token width
  newest : Fin width

/-- A step back that leaves the window: how many steps were asked for, and how many tokens the
window holds. No parser should ever see one. -/
structure LookbackError where
  steps : Nat
  width : Nat
deriving DecidableEq, Repr

/-- The message for a step back that leaves the window, with the number of steps and the width. -/
def LookbackError.message (e : LookbackError) : String :=
  "lookback " ++ toString e.steps ++ " exceeds window of " ++ toString e.width

namespace Lookback

variable {width : Nat}

/-- A window of positive width in which every slot holds the seed, so that looking back before the
first push gives the seed. A window of no width could not hold anything. -/
def ofSeed (seed : Token) (pos : 0 < width) : Lookback width :=
  ⟨Vector.replicate width seed, ⟨0, pos⟩⟩

/-- The slot that lies the given number of slots after the newest, around the ring. One after the
newest is the oldest. The remainder keeps it among the slots. -/
def slot (window : Lookback width) (offset : Nat) : Fin width :=
  ⟨(window.newest + offset) % width, Nat.mod_lt _ window.newest.pos⟩

/-- Makes a token the newest one, in place of the oldest: the index moves on by one slot, and the
token is written there. No other slot changes. -/
def push (window : Lookback width) (token : Token) : Lookback width :=
  let next := window.slot 1
  ⟨window.slots.set next token, next⟩

/-- The token that was pushed the given number of pushes before the newest, or an error if the
window has forgotten it. What it gives after any pushes is `back_after_pushes`. -/
def back (window : Lookback width) (steps : Nat) : Except LookbackError Token :=
  if steps < width then .ok (window.slots.get (window.slot (width - steps)))
  else .error ⟨steps, width⟩

end Lookback

end MiniPascal
