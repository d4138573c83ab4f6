set_option autoImplicit false

/-! # Opcodes and operand layouts

An instruction is one opcode followed by an inline operand. `Opcode` enumerates the
instruction set, `Layout` the shapes an inline operand can have, and `StackCount` the
number of values an opcode takes from or leaves on the evaluation stack.

An instruction whose operand is an opaque block of bytes does nothing: it carries a
remark for other tools. Its layout is `payload8` or `payload32`, after the width of the
length that precedes the bytes.
-/

namespace ManagedCode

/-- How many values an instruction pops or pushes. -/
inductive StackCount where
  /-- A count known from the opcode alone. -/
  | fixed (n : Nat)
  /-- A count that depends on a signature. -/
  | varies
  deriving DecidableEq

instance (n : Nat) : OfNat StackCount n := ⟨.fixed n⟩

/-- The text of a count, as the catalogue listing shows it. -/
def StackCount.describe : StackCount → String
  | .fixed n => "Fixed(" ++ toString n ++ ")"
  | .varies => "Varies"

/-- The coarse class of an operand: what a search for jump targets needs to know. -/
inductive OperandClass where
  | none | shortJump | longJump | switch | payload | invalid
  deriving DecidableEq

/-- The text of an operand class. -/
def OperandClass.describe : OperandClass → String
  | .none => "None"
  | .shortJump => "ShortJump"
  | .longJump => "LongJump"
  | .switch => "Switch"
  | .payload => "VarAnnotation"
  | .invalid => "Invalid"

/-- The shape of the operand that follows the opcode bytes. -/
inductive Layout where
  | none | int8 | uint8 | uint16 | int32 | int64 | float32 | float64
  /-- A 32-bit metadata token. -/
  | token
  /-- A signed 8-bit displacement from the next instruction. -/
  | shortBranch
  /-- A signed 32-bit displacement from the next instruction. -/
  | branch
  /-- A 32-bit case count followed by that many 32-bit displacements. -/
  | switch
  /-- An 8-bit length followed by that many bytes. -/
  | payload8
  /-- A 32-bit length followed by that many bytes. -/
  | payload32
  deriving DecidableEq

namespace Layout

/-- Bytes taken by the part of the operand whose size the layout alone decides. -/
def fixedLength : Layout → Nat
  | .none => 0
  | .int8 | .uint8 | .shortBranch | .payload8 => 1
  | .uint16 => 2
  | .int32 | .float32 | .token | .branch | .switch | .payload32 => 4
  | .int64 | .float64 => 8

/-- The operand class of a layout; never `invalid`. -/
def operandClass : Layout → OperandClass
  | .shortBranch => .shortJump
  | .branch => .longJump
  | .switch => .switch
  | .payload8 | .payload32 => .payload
  | _ => .none

/-- The text of a layout. -/
def describe : Layout → String
  | .none => "None"
  | .int8 => "Int8"
  | .uint8 => "UInt8"
  | .uint16 => "UInt16"
  | .int32 => "Int32"
  | .int64 => "Int64"
  | .float32 => "Float32"
  | .float64 => "Float64"
  | .token => "Token"
  | .shortBranch => "ShortBranch"
  | .branch => "Branch"
  | .switch => "Switch"
  | .payload8 => "Annotation8"
  | .payload32 => "Annotation32"

end Layout

/-- The instruction set. Constructors are named after the mnemonics. -/
inductive Opcode where
  | nop | breakpoint | ldarg0 | ldarg1 | ldarg2 | ldarg3 | ldloc0 | ldloc1 | ldloc2 | ldloc3
  | stloc0 | stloc1 | stloc2 | stloc3 | ldargS | ldargaS | stargS | ldlocS | ldlocaS | stlocS
  | ldnull | ldcI4M1 | ldcI40 | ldcI41 | ldcI42 | ldcI43 | ldcI44 | ldcI45 | ldcI46 | ldcI47
  | ldcI48 | ldcI4S | ldcI4 | ldcI8 | ldcR4 | ldcR8 | dup | pop | jmp | call | calli | ret
  | brS | brfalseS | brtrueS | beqS | bgeS | bgtS | bleS | bltS | bneUnS | bgeUnS | bgtUnS
  | bleUnS | bltUnS | br | brfalse | brtrue | beq | bge | bgt | ble | blt | bneUn | bgeUn
  | bgtUn | bleUn | bltUn | switch | ldindI1 | ldindU1 | ldindI2 | ldindU2 | ldindI4 | ldindU4
  | ldindI8 | ldindI | ldindR4 | ldindR8 | ldindRef | stindRef | stindI1 | stindI2 | stindI4
  | stindI8 | stindR4 | stindR8 | add | sub | mul | div | divUn | rem | remUn | and | or | xor
  | shl | shr | shrUn | neg | not | convI1 | convI2 | convI4 | convI8 | convR4 | convR8
  | convU4 | convU8 | callvirt | cpobj | ldobj | ldstr | newobj | castclass | isinst | convRUn
  | unbox | throw | ldfld | ldflda | stfld | ldsfld | ldsflda | stsfld | stobj | convOvfI1Un
  | convOvfI2Un | convOvfI4Un | convOvfI8Un | convOvfU1Un | convOvfU2Un | convOvfU4Un
  | convOvfU8Un | convOvfIUn | convOvfUUn | box | newarr | ldlen | ldelema | ldelemI1
  | ldelemU1 | ldelemI2 | ldelemU2 | ldelemI4 | ldelemU4 | ldelemI8 | ldelemI | ldelemR4
  | ldelemR8 | ldelemRef | stelemI | stelemI1 | stelemI2 | stelemI4 | stelemI8 | stelemR4
  | stelemR8 | stelemRef | ldelem | stelem | unboxAny | convOvfI1 | convOvfU1 | convOvfI2
  | convOvfU2 | convOvfI4 | convOvfU4 | convOvfI8 | convOvfU8 | refanyval | ckfinite | mkrefany
  | ldtoken | convU2 | convU1 | convI | convOvfI | convOvfU | addOvf | addOvfUn | mulOvf
  | mulOvfUn | subOvf | subOvfUn | endfinally | leave | leaveS | stindI | convU | arglist | ceq
  | cgt | cgtUn | clt | cltUn | ldftn | ldvirtftn | ldarg | ldarga | starg | ldloc | ldloca
  | stloc | localloc | endfilter | unaligned | volatile | tail | initobj | constrained | cpblk
  | initblk | no | rethrow | sizeof | refanytype | readonly | annDataS | annData
  deriving DecidableEq

end ManagedCode
