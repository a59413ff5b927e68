import MiniPascal.Token.Lookback

/-!
# Rings with bare indices

A **ring** keeps the tokens that were pushed last, as a lookback window does, but it counts with
bare numbers. Nothing in its type holds the index of the newest token, or what is computed from it,
to the slots that there are. So an index is looked up whenever a slot is read or written, and if no
slot has it, this is a fault.
-/

namespace MiniPascal

/-- Slots for tokens, and the index of the newest. The index is a bare number here, as a machine has
it, so that it may point at no slot. -/
structure Ring (width : Nat) where
  slots : Vector Token width
  head : Nat

/-- Why an action on a ring has no result: it touches what is no slot, which would be a fault of the
ring itself, or it looks back too far, which is a fault of who asks. -/
inductive RingFault where
  /-- No slot has this index. -/
  | slot (index : Nat)
  | lookback (error : LookbackError)
deriving DecidableEq, Repr

namespace Ring

variable {width : Nat}

/-- A ring of the given width in which every slot holds the seed. The width may be zero here, and
then the first push is a fault. -/
def ofSeed (width : Nat) (seed : Token) : Ring width :=
  ⟨.replicate width seed, 0⟩

/-- The token in the slot of an index, or a fault if no slot has this index. The head does not
matter to it. -/
def read (ring : Ring width) (index : Nat) : Except RingFault Token :=
  match ring.slots[index]? with
  | some token => .ok token
  | none => .error (.slot index)

/-- Puts a token into the slot of an index and leaves the head alone, or fails if no slot has this
index. The other slots stay as they are. -/
def write (ring : Ring width) (index : Nat) (token : Token) : Except RingFault (Ring width) :=
  if h : index < width then .ok ⟨ring.slots.set index token h, ring.head⟩
  else .error (.slot index)

/-- Moves the head on by one slot, around the ring, and puts a token there. `push_ring` shows that a
ring of positive width never faults here. -/
def push (ring : Ring width) (token : Token) : Except RingFault (Ring width) :=
  let head := (ring.head + 1) % width
  write ⟨ring.slots, head⟩ head token

/-- The token that was pushed the given number of pushes before the newest. The index is computed
with the width added first, so that the subtraction does not stop at zero. -/
def back (ring : Ring width) (steps : Nat) : Except RingFault Token :=
  if steps < width then ring.read ((ring.head + width - steps) % width)
  else .error (.lookback ⟨steps, width⟩)

end Ring

/-- A lookback window as a ring, which forgets that the index is a slot. Pushing and looking back
commute with it (`push_ring`, `back_ring`). -/
def Lookback.ring {width : Nat} (window : Lookback width) : Ring width :=
  ⟨window.slots, window.newest⟩

end MiniPascal
