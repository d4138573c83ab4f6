import ManagedCode.Text.Quoted
import ManagedCode.Token

set_option autoImplicit false

/-! # Modifiers

Some opcodes do nothing by themselves and change what the next instruction may do or promises.
They are collected until that instruction and then handed to it together.
-/

namespace ManagedCode

/-- An instruction that modifies the next one. -/
inductive Modifier where
  /-- The address may be aligned to fewer bytes than its type asks for. -/
  | unaligned (alignment : UInt8)
  | volatile
  /-- The call is the last thing the method does. -/
  | tail
  /-- The receiver of the call is behind a pointer to this type. -/
  | constrained (token : Token)
  /-- Checks at run time may be left out. -/
  | noCheck
  /-- The address is only read through. -/
  | readonly
  deriving DecidableEq

/-- A set of modifiers. -/
structure Modifiers where
  unaligned : Bool := false
  volatile : Bool := false
  tail : Bool := false
  constrained : Bool := false
  noCheck : Bool := false
  readonly : Bool := false
  deriving DecidableEq

namespace Modifiers

/-- No modifier. -/
def none : Modifiers := {}

/-- Reads a set from its bits; bits without a meaning are dropped. -/
def ofBits (bits : Nat) : Modifiers :=
  ⟨bits.testBit 0, bits.testBit 1, bits.testBit 2, bits.testBit 3, bits.testBit 4,
   bits.testBit 5⟩

/-- The set has no members. -/
def isEmpty (m : Modifiers) : Bool := m = none

/-- A modifier of this sort is in the set. -/
def contains (m : Modifiers) : Modifier → Bool
  | .unaligned _ => m.unaligned
  | .volatile => m.volatile
  | .tail => m.tail
  | .constrained _ => m.constrained
  | .noCheck => m.noCheck
  | .readonly => m.readonly

/-- Adds a modifier. -/
def insert (m : Modifiers) : Modifier → Modifiers
  | .unaligned _ => { m with unaligned := true }
  | .volatile => { m with volatile := true }
  | .tail => { m with tail := true }
  | .constrained _ => { m with constrained := true }
  | .noCheck => { m with noCheck := true }
  | .readonly => { m with readonly := true }

/-- The names of the modifiers in the set. -/
def describe (m : Modifiers) : String :=
  Text.flags
    [(m.unaligned, "UNALIGNED"), (m.volatile, "VOLATILE"), (m.tail, "TAIL"),
     (m.constrained, "CONSTRAINED"), (m.noCheck, "NO_CHECK"), (m.readonly, "READONLY")]

end Modifiers

end ManagedCode
