import ManagedCode.Rejection
import ManagedCode.Slot

set_option autoImplicit false

/-! # The evaluation stack

The stack of slots that a method works on, bounded by the height the method declares. Slots are
listed from the top down. The stack remembers the greatest height it ever had.
-/

namespace ManagedCode

/-- Slots of the evaluation stack, the top first. -/
abbrev Slots := List Slot

/-- The evaluation stack. -/
structure Stack where
  slots : Slots := []
  /-- Greatest height allowed. -/
  bound : Nat
  /-- Greatest height so far. -/
  highWater : Nat := 0
  deriving DecidableEq

namespace Stack

/-- Number of slots. -/
def height (s : Stack) : Nat := s.slots.length

/-- There are no slots. -/
def isEmpty (s : Stack) : Bool := s.slots.isEmpty

/-- Replaces the slots, unless there are more than the bound allows. -/
def load (s : Stack) (slots : Slots) : Except Fault Stack :=
  if slots.length ≤ s.bound then
    .ok { s with slots := slots, highWater := max s.highWater slots.length }
  else .error (.stack .overflow)

/-- Puts a slot on top. -/
def push (s : Stack) (slot : Slot) : Except Fault Stack := s.load (slot :: s.slots)

/-- Takes the top slot off. -/
def pop (s : Stack) : Except Fault (Slot × Stack) :=
  match s.slots with
  | [] => .error (.stack .underflow)
  | slot :: rest => .ok (slot, { s with slots := rest })

/-- Takes the top `n` slots off and lists them in the order in which they were pushed. -/
def popMany (s : Stack) (n : Nat) : Except Fault (List Slot × Stack) :=
  if n ≤ s.height then .ok ((s.slots.take n).reverse, { s with slots := s.slots.drop n })
  else .error (.stack .underflow)

/-- The slot with `depth` others above it. -/
def peek (s : Stack) (depth : Nat) : Except Fault Slot :=
  match s.slots[depth]? with
  | some slot => .ok slot
  | none => .error (.stack .underflow)

/-- Takes all slots off. -/
def clear (s : Stack) : Stack := { s with slots := [] }

end Stack

end ManagedCode
