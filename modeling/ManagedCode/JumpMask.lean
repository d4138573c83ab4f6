import ManagedCode.OffsetSet
import ManagedCode.Rejection

set_option autoImplicit false

/-! # Jump masks

What is known of each offset of the code before types are looked at: whether an instruction
starts there, whether control can jump there, and whether it is the border of an exception
region. `JumpMask.scan` finds the first two and rejects code that jumps out of itself or into
the middle of an instruction.
-/

namespace ManagedCode

/-- Facts about the offsets of a code block. -/
structure JumpMask where
  /-- Length of the code. -/
  size : Nat
  starts : OffsetSet
  targets : OffsetSet
  /-- Borders of exception regions, which are targets as well. -/
  special : OffsetSet

namespace JumpMask

/-- Nothing is known. -/
def empty (size : Nat) : JumpMask := ⟨size, .empty size, .empty size, .empty size⟩

/-- An instruction starts at the offset. -/
def isStart (m : JumpMask) (offset : Nat) : Bool := m.starts.contains offset

/-- Control can jump to the offset. -/
def isTarget (m : JumpMask) (offset : Nat) : Bool := m.targets.contains offset

/-- The offset is the border of an exception region. -/
def isSpecial (m : JumpMask) (offset : Nat) : Bool := m.special.contains offset

/-- An instruction starts at the offset, or the code ends there. -/
def isBoundary (m : JumpMask) (offset : Nat) : Bool := offset = m.size || m.isStart offset

/-- Marks the start of an instruction. -/
def markStart (m : JumpMask) (offset : Nat) : JumpMask :=
  { m with starts := m.starts.insert offset }

/-- Marks the target of a jump. -/
def markTarget (m : JumpMask) (offset : Nat) : JumpMask :=
  { m with targets := m.targets.insert offset }

/-- Marks the border of a region; a border at the end of the code is no place to jump to. -/
def markSpecial (m : JumpMask) (offset : Nat) : JumpMask :=
  { m with targets := m.targets.insert offset, special := m.special.insert offset }

/-! ## Scanning code -/

/-- Marks a target of the instruction at `source`. -/
def addTarget (source : Nat) (m : JumpMask) (target : Int) : Except Rejection JumpMask :=
  if 0 ≤ target ∧ target < m.size then .ok (m.markTarget target.toNat)
  else .error (.branchOutOfRange source target)

/-- Marks the start of an instruction and its targets. -/
def addInstruction (m : JumpMask) (i : Instruction) : Except Rejection JumpMask :=
  i.targets.foldlM (addTarget i.offset) (m.markStart i.offset)

/-- The offset of the first instruction with a given target. -/
def sourceOf (instructions : List Instruction) (target : Nat) : Nat :=
  ((instructions.find? fun i => (target : Int) ∈ i.targets).map (·.offset)).getD 0

/-- The mask of a code block of `size` bytes with a given listing. Targets outside the code are
found on the way, targets inside an instruction when all starts are known. -/
def ofListing (size : Nat) (listing : Listing) : Except Rejection JumpMask := do
  let mask ← listing.instructions.foldlM addInstruction (empty size)
  match listing.fault with
  | some e => .error (.ofDecodeError e)
  | none =>
      match mask.targets.firstNotIn mask.starts with
      | some target =>
          .error (.branchOutOfRange (sourceOf listing.instructions target) target)
      | none => .ok mask

/-- The mask of a code block. -/
def scan (code : Code) : Except Rejection JumpMask := ofListing code.length (disassemble code)

end JumpMask

end ManagedCode
