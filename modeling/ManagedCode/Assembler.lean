import ManagedCode.Bytes
import ManagedCode.Opcode.Catalogue
import ManagedCode.Token

set_option autoImplicit false

/-! # Assembling code

An `Assembler` collects instructions one after the other. A branch may name a label before the
label has a place: the code is kept as a list of fragments, in which a displacement is still
symbolic, and `finish` puts the numbers in. The width of a displacement follows from the opcode,
so offsets are known from the start.

Nothing is checked but that labels have a place and short displacements fit.
-/

namespace ManagedCode

/-- A piece of assembled code. -/
inductive Fragment where
  | bytes (content : List UInt8)
  /-- The distance from `base` to the place of `label`, in one byte when `short` and in four
  otherwise; `source` is the offset of the instruction it belongs to. -/
  | displacement (label base source : Nat) (short : Bool)
  deriving DecidableEq

/-- Number of bytes of a fragment. -/
def Fragment.size : Fragment → Nat
  | .bytes content => content.length
  | .displacement _ _ _ short => if short then 1 else 4

/-- Why code cannot be finished. -/
inductive AssemblyError where
  /-- A branch names a label without a place. -/
  | unboundLabel (label : Nat)
  /-- The label of a short branch is too far away. -/
  | displacementOverflow (source : Nat) (displacement : Int)
  deriving DecidableEq

/-- The error in words. -/
def AssemblyError.message : AssemblyError → String
  | .unboundLabel label => "label " ++ toString label ++ " was never marked"
  | .displacementOverflow source displacement =>
      "short branch at offset " ++ toString source ++ " cannot reach displacement " ++
        toString displacement

/-- Code under construction. -/
structure Assembler where
  fragments : Array Fragment := #[]
  /-- Offset at which the next instruction will start. -/
  offset : Nat := 0
  /-- The place of each label handed out so far. -/
  labels : Array (Option Nat) := #[]

namespace Assembler

/-! ## Labels -/

/-- Hands out a label without a place. -/
def label (a : Assembler) : Nat × Assembler :=
  (a.labels.size, { a with labels := a.labels.push none })

/-- Places a label at the current offset. A label that was not handed out here stays unknown. -/
def mark (a : Assembler) (label : Nat) : Assembler :=
  { a with labels := a.labels.setIfInBounds label (some a.offset) }

/-- Hands out a label placed at the current offset. -/
def here (a : Assembler) : Nat × Assembler :=
  let (label, a) := a.label
  (label, a.mark label)

/-- The place of a label. -/
def place? (a : Assembler) (label : Nat) : Option Nat := (a.labels[label]?).join

/-- The text of a label. -/
def describeLabel (label : Nat) : String := "Label(" ++ toString label ++ ")"

/-! ## Instructions -/

/-- Appends a fragment. -/
def append (a : Assembler) (fragment : Fragment) : Assembler :=
  { a with fragments := a.fragments.push fragment, offset := a.offset + fragment.size }

/-- Appends bytes as they are. -/
def raw (a : Assembler) (bytes : List UInt8) : Assembler := a.append (.bytes bytes)

/-- An instruction without an operand. -/
def op (a : Assembler) (opcode : Opcode) : Assembler := a.raw opcode.encoding

/-- An instruction with an operand of one byte. -/
def op8 (a : Assembler) (opcode : Opcode) (value : UInt8) : Assembler :=
  a.raw (opcode.encoding ++ [value])

/-- An instruction with an operand of two bytes. -/
def op16 (a : Assembler) (opcode : Opcode) (value : UInt16) : Assembler :=
  a.raw (opcode.encoding ++ bytes16 value)

/-- An instruction with an operand of four bytes. -/
def op32 (a : Assembler) (opcode : Opcode) (value : UInt32) : Assembler :=
  a.raw (opcode.encoding ++ bytes32 value)

/-- An instruction with an operand of eight bytes. -/
def op64 (a : Assembler) (opcode : Opcode) (value : UInt64) : Assembler :=
  a.raw (opcode.encoding ++ bytes64 value)

/-- An instruction with a token. -/
def token (a : Assembler) (opcode : Opcode) (token : Token) : Assembler := a.op32 opcode token

/-- Loads a 32-bit constant. -/
def loadInt32 (a : Assembler) (value : Int32) : Assembler := a.op32 .ldcI4 value.toUInt32

/-- Loads a 32-bit constant that fits in a byte. -/
def loadInt8 (a : Assembler) (value : Int8) : Assembler := a.op8 .ldcI4S value.toUInt8

/-- Loads a 64-bit constant. -/
def loadInt64 (a : Assembler) (value : Int64) : Assembler := a.op64 .ldcI8 value.toUInt64

/-- Loads a 32-bit floating-point constant, given by its bits. -/
def loadFloat32 (a : Assembler) (bits : UInt32) : Assembler := a.op32 .ldcR4 bits

/-- Loads a 64-bit floating-point constant, given by its bits. -/
def loadFloat64 (a : Assembler) (bits : UInt64) : Assembler := a.op64 .ldcR8 bits

/-- The displacement of the opcode takes one byte. -/
def isShort (opcode : Opcode) : Bool := opcode.layout = .shortBranch

/-- A branch to a label, short or long as the opcode says. -/
def branch (a : Assembler) (opcode : Opcode) (label : Nat) : Assembler :=
  let short := isShort opcode
  let next := a.offset + opcode.length + (if short then 1 else 4)
  (a.op opcode).append (.displacement label next a.offset short)

/-- A branch with a given displacement, of which a short branch keeps the low byte. -/
def branchBy (a : Assembler) (opcode : Opcode) (displacement : Int32) : Assembler :=
  let bytes := bytes32 displacement.toUInt32
  a.raw (opcode.encoding ++ if isShort opcode then bytes.take 1 else bytes)

/-- A switch over labels. -/
def switch (a : Assembler) (labels : List Nat) : Assembler :=
  let next := a.offset + Opcode.switch.length + 4 + 4 * labels.length
  let head := a.op32 .switch (UInt32.ofNat labels.length)
  labels.foldl (fun b label => b.append (.displacement label next a.offset false)) head

/-- A remark, with a length of one byte where that is enough. -/
def remark (a : Assembler) (payload : List UInt8) : Assembler :=
  let head :=
    if payload.length < 256 then Opcode.annDataS.encoding ++ [UInt8.ofNat payload.length]
    else Opcode.annData.encoding ++ bytes32 (UInt32.ofNat payload.length)
  a.raw (head ++ payload)

/-! ## Finishing -/

/-- The bytes of a fragment, once every label has its place. -/
def resolve (a : Assembler) : Fragment → Except AssemblyError (List UInt8)
  | .bytes content => .ok content
  | .displacement label base source short =>
      match a.place? label with
      | none => .error (.unboundLabel label)
      | some place =>
          let distance : Int := place - base
          if short then
            if -128 ≤ distance ∧ distance ≤ 127 then .ok [(Int8.ofInt distance).toUInt8]
            else .error (.displacementOverflow source distance)
          else .ok (bytes32 (Int32.ofInt distance).toUInt32)

/-- The code, or the reason why the first fragment that cannot be resolved has no bytes. -/
def finish (a : Assembler) : Except AssemblyError Code :=
  (a.fragments.toList.mapM a.resolve).map List.flatten

end Assembler

end ManagedCode
