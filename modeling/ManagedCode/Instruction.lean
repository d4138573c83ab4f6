import ManagedCode.Bytes
import ManagedCode.Opcode.Catalogue
import ManagedCode.Token

set_option autoImplicit false

/-! # Instructions

Decoding of instructions from code. An instruction is its opcode bytes, the fixed part of its
operand, and for a switch or a remark a tail whose size the fixed part gives. Displacements
count from the next instruction; a decoded operand holds the absolute target instead.

`Instruction.decode` reads the instruction at one offset, `disassemble` the whole code up to
the first error. `disassembleFrom_cons` gives the listing from one instruction on in terms of
the listing behind it.
-/

namespace ManagedCode

/-- Why no instruction can be read at an offset. -/
inductive DecodeError where
  /-- The instruction runs past the end of the code. -/
  | truncated (offset : Nat)
  /-- The opcode bytes are not assigned. -/
  | invalidOpcode (offset : Nat)
  deriving DecidableEq

namespace DecodeError

/-- Where the instruction would start. -/
def offset : DecodeError → Nat
  | .truncated offset | .invalidOpcode offset => offset

/-- The error in words. -/
def message : DecodeError → String
  | .truncated offset => "truncated instruction at offset " ++ toString offset
  | .invalidOpcode offset => "invalid opcode at offset " ++ toString offset

end DecodeError

/-- A decoded operand. -/
inductive Operand where
  | none
  | int8 (value : Int8)
  | uint8 (value : UInt8)
  | uint16 (value : UInt16)
  | int32 (value : Int32)
  | int64 (value : Int64)
  | float32 (bits : UInt32)
  | float64 (bits : UInt64)
  | token (token : Token)
  /-- The offset that a branch leads to, which may lie outside the code. -/
  | branch (target : Int)
  /-- The offsets that the cases of a switch lead to. -/
  | switch (targets : List Int)
  /-- The number of bytes of a remark. -/
  | payload (length : Nat)
  deriving DecidableEq

/-- A decoded instruction. -/
structure Instruction where
  offset : Nat
  opcode : Opcode
  /-- Size in bytes, with the tail. -/
  size : Nat
  operand : Operand
  deriving DecidableEq

namespace Instruction

/-- Offset of the instruction that follows. -/
def next (i : Instruction) : Nat := i.offset + i.size

/-- The token operand. -/
def token? (i : Instruction) : Option Token :=
  match i.operand with
  | .token token => some token
  | _ => none

/-- The target of a branch with a single target. -/
def target? (i : Instruction) : Option Int :=
  match i.operand with
  | .branch target => some target
  | _ => none

/-- The index of an argument or local in the operand. -/
def index? (i : Instruction) : Option Nat :=
  match i.operand with
  | .uint8 value => some value.toNat
  | .uint16 value => some value.toNat
  | _ => none

/-- All offsets the instruction names as targets, in order. -/
def targets (i : Instruction) : List Int :=
  match i.operand with
  | .branch target => [target]
  | .switch targets => targets
  | _ => []

end Instruction

/-! ## Decoding -/

/-- A signed 8-bit displacement. -/
def displacement8 (n : Nat) : Int := (UInt8.ofNat n).toInt8.toInt

/-- A signed 32-bit displacement. -/
def displacement32 (n : Nat) : Int := (UInt32.ofNat n).toInt32.toInt

/-- `count` numbers of 32 bits at the front of `bytes`. -/
def readWords : (count : Nat) → List UInt8 → Option (List Nat)
  | 0, _ => some []
  | count + 1, bytes => do
      let word ← readLittleEndian 4 bytes
      let words ← readWords count (bytes.drop 4)
      return word :: words

/-- Reads an operand at the front of `bytes`, which start at offset `start`. Gives the operand
and its size, or `none` when the bytes end too soon. -/
def Layout.read (layout : Layout) (start : Nat) (bytes : List UInt8) : Option (Operand × Nat) :=
  match layout with
  | .none => some (.none, 0)
  | .int8 => do
      let n ← readLittleEndian 1 bytes
      return (.int8 (UInt8.ofNat n).toInt8, 1)
  | .uint8 => do
      let n ← readLittleEndian 1 bytes
      return (.uint8 (UInt8.ofNat n), 1)
  | .uint16 => do
      let n ← readLittleEndian 2 bytes
      return (.uint16 (UInt16.ofNat n), 2)
  | .int32 => do
      let n ← readLittleEndian 4 bytes
      return (.int32 (UInt32.ofNat n).toInt32, 4)
  | .int64 => do
      let n ← readLittleEndian 8 bytes
      return (.int64 (UInt64.ofNat n).toInt64, 8)
  | .float32 => do
      let n ← readLittleEndian 4 bytes
      return (.float32 (UInt32.ofNat n), 4)
  | .float64 => do
      let n ← readLittleEndian 8 bytes
      return (.float64 (UInt64.ofNat n), 8)
  | .token => do
      let n ← readLittleEndian 4 bytes
      return (.token (UInt32.ofNat n), 4)
  | .shortBranch => do
      let n ← readLittleEndian 1 bytes
      return (.branch (start + 1 + displacement8 n), 1)
  | .branch => do
      let n ← readLittleEndian 4 bytes
      return (.branch (start + 4 + displacement32 n), 4)
  | .switch => do
      let count ← readLittleEndian 4 bytes
      let cases ← readWords count (bytes.drop 4)
      let size := 4 + 4 * count
      return (.switch (cases.map fun n => start + size + displacement32 n), size)
  | .payload8 => do
      let length ← readLittleEndian 1 bytes
      if ((bytes.drop 1).take length).length = length then
        return (.payload length, 1 + length)
      else .none
  | .payload32 => do
      let length ← readLittleEndian 4 bytes
      if ((bytes.drop 4).take length).length = length then
        return (.payload length, 4 + length)
      else .none

/-- The index of the opcode at the front of `bytes`; `none` when the bytes end inside it. -/
def readOpcodeIndex : List UInt8 → Option Nat
  | [] => none
  | first :: rest =>
      if first = escapeByte then rest.head?.map (escapedBase + ·.toNat) else some first.toNat

namespace Instruction

/-- Reads the instruction at the front of `bytes`, which start at `offset`. An unassigned opcode
is reported before a missing operand. -/
def read (offset : Nat) (bytes : List UInt8) : Except DecodeError Instruction :=
  match readOpcodeIndex bytes with
  | none => .error (.truncated offset)
  | some index =>
      match Opcode.ofIndex? index with
      | none => .error (.invalidOpcode offset)
      | some opcode =>
          match opcode.layout.read (offset + opcode.length) (bytes.drop opcode.length) with
          | none => .error (.truncated offset)
          | some (operand, size) => .ok ⟨offset, opcode, opcode.length + size, operand⟩

/-- Reads the instruction at an offset of the code. -/
def decode (code : Code) (offset : Nat) : Except DecodeError Instruction :=
  read offset (code.drop offset)

end Instruction

/-! ## Listings -/

/-- The instructions of a code block in address order, up to the first that cannot be read. -/
structure Listing where
  instructions : List Instruction
  fault : Option DecodeError
  deriving DecidableEq

/-- Puts the instructions in `before` in front of the listing of `bytes`. -/
def disassembleAfter (before : Array Instruction) (offset : Nat) (bytes : List UInt8) :
    Listing :=
  match bytes with
  | [] => ⟨before.toList, none⟩
  | b :: rest =>
      match Instruction.read offset (b :: rest) with
      | .error e => ⟨before.toList, some e⟩
      -- The first byte is `b`, so the next instruction starts `size - 1` bytes into `rest`.
      | .ok i => disassembleAfter (before.push i) i.next (rest.drop (i.size - 1))
termination_by bytes.length
decreasing_by
  simp only [List.length_cons, List.length_drop]
  omega

/-- The listing of `bytes`, which start at `offset`. -/
def disassembleFrom (offset : Nat) (bytes : List UInt8) : Listing :=
  disassembleAfter #[] offset bytes

/-- The listing of a code block. -/
def disassemble (code : Code) : Listing := disassembleFrom 0 code

/-- Instructions already read stand in front of the listing and change nothing else. -/
theorem disassembleAfter_eq (before : Array Instruction) (offset : Nat) (bytes : List UInt8) :
    disassembleAfter before offset bytes =
      ⟨before.toList ++ (disassembleFrom offset bytes).instructions,
        (disassembleFrom offset bytes).fault⟩ := by
  induction hn : bytes.length using Nat.strongRecOn generalizing before offset bytes with
  | ind n ih =>
    subst hn
    unfold disassembleFrom
    cases bytes with
    | nil => simp [disassembleAfter]
    | cons b rest =>
        rw [disassembleAfter.eq_def, disassembleAfter.eq_def #[]]
        cases h : Instruction.read offset (b :: rest) with
        | error e => simp [h]
        | ok i =>
            have hlt : (rest.drop (i.size - 1)).length < (b :: rest).length := by
              simp only [List.length_drop, List.length_cons]
              omega
            simp only [h]
            rw [ih _ hlt (before.push i) i.next _ rfl, ih _ hlt (#[].push i) i.next _ rfl]
            simp

theorem disassembleFrom_nil (offset : Nat) : disassembleFrom offset [] = ⟨[], none⟩ := by
  simp [disassembleFrom, disassembleAfter]

theorem disassembleFrom_cons (offset : Nat) (b : UInt8) (rest : List UInt8) :
    disassembleFrom offset (b :: rest) =
      match Instruction.read offset (b :: rest) with
      | .error e => ⟨[], some e⟩
      | .ok i =>
          let tail := disassembleFrom i.next (rest.drop (i.size - 1))
          ⟨i :: tail.instructions, tail.fault⟩ := by
  rw [disassembleFrom, disassembleAfter.eq_def]
  cases h : Instruction.read offset (b :: rest) with
  | error e => simp [h]
  | ok i =>
      simp only [h]
      rw [disassembleAfter_eq]
      simp

end ManagedCode
