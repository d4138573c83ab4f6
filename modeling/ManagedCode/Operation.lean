import ManagedCode.Instruction
import ManagedCode.Modifier
import ManagedCode.Typing.Inference

set_option autoImplicit false

/-! # Operations

What an instruction does, whichever of its encodings was chosen. Many opcodes are short forms of
one another: `ldarg.0`, `ldarg.s 0` and `ldarg 0` all load the first argument. An `Operation`
keeps only the meaning. Which one it is depends on the opcode and on one part of the operand at most
(`Opcode.meaning`), and `Instruction.operation?` reads it off both.
-/

namespace ManagedCode

/-- Arithmetic and bitwise operators on two numbers. -/
inductive BinaryOp where
  | add | sub | mul | div | divUn | rem | remUn | and | or | xor
  | addOvf | addOvfUn | subOvf | subOvfUn | mulOvf | mulOvfUn
  deriving DecidableEq

namespace BinaryOp

/-- The text of an operator. -/
def describe : BinaryOp → String
  | .add => "Add"
  | .sub => "Sub"
  | .mul => "Mul"
  | .div => "Div"
  | .divUn => "DivUn"
  | .rem => "Rem"
  | .remUn => "RemUn"
  | .and => "And"
  | .or => "Or"
  | .xor => "Xor"
  | .addOvf => "AddOvf"
  | .addOvfUn => "AddOvfUn"
  | .subOvf => "SubOvf"
  | .subOvfUn => "SubOvfUn"
  | .mulOvf => "MulOvf"
  | .mulOvfUn => "MulOvfUn"

/-- The table that says which operands the operator takes. -/
def table : BinaryOp → OperatorTable
  | .add | .sub | .mul | .div | .rem => .numeric
  | _ => .integer

/-- The operator can move a pointer. -/
def movesPointers : BinaryOp → Bool
  | .add | .sub | .addOvfUn | .subOvfUn => true
  | _ => false

end BinaryOp

/-- Shifts. -/
inductive ShiftOp where
  | shl | shr | shrUn
  deriving DecidableEq

/-- The text of a shift. -/
def ShiftOp.describe : ShiftOp → String
  | .shl => "Shl"
  | .shr => "Shr"
  | .shrUn => "ShrUn"

/-- Operators on one number. -/
inductive UnaryOp where
  | neg | not
  deriving DecidableEq

namespace UnaryOp

/-- The text of an operator. -/
def describe : UnaryOp → String
  | .neg => "Neg"
  | .not => "Not"

/-- The table that says which operand the operator takes, asked for the operand with itself. -/
def table : UnaryOp → OperatorTable
  | .neg => .numeric
  | .not => .integer

end UnaryOp

/-- Relations between two values. -/
inductive CompareOp where
  | eq | neUn | gt | gtUn | ge | geUn | lt | ltUn | le | leUn
  deriving DecidableEq

namespace CompareOp

/-- The text of a relation. -/
def describe : CompareOp → String
  | .eq => "Eq"
  | .neUn => "NeUn"
  | .gt => "Gt"
  | .gtUn => "GtUn"
  | .ge => "Ge"
  | .geUn => "GeUn"
  | .lt => "Lt"
  | .ltUn => "LtUn"
  | .le => "Le"
  | .leUn => "LeUn"

/-- The table that says which operands the relation takes. An object can be tested for equality,
and with an unsigned `>` for not being null. -/
def table : CompareOp → OperatorTable
  | .eq | .neUn | .gtUn => .equality
  | _ => .ordered

end CompareOp

/-- A conversion of a number. -/
structure Conversion where
  target : Primitive
  /-- Fails when the number does not fit. -/
  checked : Bool := false
  /-- The number is taken to be unsigned. -/
  unsigned : Bool := false
  deriving DecidableEq

/-- What an indirect access reads or writes. -/
inductive Access where
  | primitive (p : Primitive)
  /-- An object reference, of the type that the address points to. -/
  | reference
  deriving DecidableEq

/-- What an element access reads or writes. -/
inductive Element where
  | primitive (p : Primitive)
  /-- An object reference, of the type that the array holds. -/
  | reference
  /-- A value of the type that the token names. -/
  | named (token : Token)
  deriving DecidableEq

/-- The meaning of an instruction. -/
inductive Operation where
  | nop | breakpoint
  -- Arguments, local variables and constants.
  | loadArg (index : Nat) | loadArgAddress (index : Nat) | storeArg (index : Nat)
  | loadLocal (index : Nat) | loadLocalAddress (index : Nat) | storeLocal (index : Nat)
  | argList
  | loadNull
  | loadInt32 (value : Int32) | loadInt64 (value : Int64)
  | loadFloat32 (bits : UInt32) | loadFloat64 (bits : UInt64)
  | loadString (token : Token) | loadToken (token : Token)
  | dup | pop
  -- Numbers.
  | binary (op : BinaryOp) | shift (op : ShiftOp) | unary (op : UnaryOp)
  | convert (conversion : Conversion)
  | checkFinite
  | compare (op : CompareOp)
  -- Transfers of control.
  | branch (target : Int)
  | branchIf (condition : Bool) (target : Int)
  | branchCompare (op : CompareOp) (target : Int)
  | switch (targets : List Int)
  | leave (target : Int)
  | endFinally | endFilter | throw | rethrow | ret
  | jump (token : Token)
  -- Calls.
  | call (isVirtual : Bool) (token : Token)
  | callIndirect (token : Token)
  | newObject (token : Token)
  | loadFunction (token : Token) | loadVirtualFunction (token : Token)
  -- Memory.
  | loadIndirect (access : Access) | storeIndirect (access : Access)
  | loadObject (token : Token) | storeObject (token : Token) | copyObject (token : Token)
  | initObject (token : Token)
  | sizeOf (token : Token)
  | localAlloc | copyBlock | initBlock
  | loadField (token : Token) | loadFieldAddress (token : Token) | storeField (token : Token)
  | loadStatic (token : Token) | loadStaticAddress (token : Token) | storeStatic (token : Token)
  -- Objects.
  | castClass (token : Token) | isInstance (token : Token)
  | box (token : Token) | unbox (token : Token) | unboxAny (token : Token)
  | newArray (token : Token)
  | arrayLength
  | loadElement (element : Element) | loadElementAddress (token : Token)
  | storeElement (element : Element)
  | makeTypedRef (token : Token) | typedRefValue (token : Token) | typedRefType
  -- Instructions that do nothing by themselves.
  | modify (modifier : Modifier)
  | remark
  deriving DecidableEq

/-- What an opcode means: an operation, once the part of the operand is known that it depends on. -/
inductive Meaning where
  | plain (operation : Operation)
  | index (operation : Nat → Operation)
  | token (operation : Token → Operation)
  | target (operation : Int → Operation)
  | targets (operation : List Int → Operation)
  | uint8 (operation : UInt8 → Operation)
  | int8 (operation : Int8 → Operation)
  | int32 (operation : Int32 → Operation)
  | int64 (operation : Int64 → Operation)
  | float32 (operation : UInt32 → Operation)
  | float64 (operation : UInt64 → Operation)

/-- The operation of an opcode. -/
def Opcode.meaning : Opcode → Meaning
  | .nop => .plain .nop
  | .breakpoint => .plain .breakpoint
  | .ldarg0 => .plain (.loadArg 0)
  | .ldarg1 => .plain (.loadArg 1)
  | .ldarg2 => .plain (.loadArg 2)
  | .ldarg3 => .plain (.loadArg 3)
  | .ldargS | .ldarg => .index .loadArg
  | .ldargaS | .ldarga => .index .loadArgAddress
  | .stargS | .starg => .index .storeArg
  | .ldloc0 => .plain (.loadLocal 0)
  | .ldloc1 => .plain (.loadLocal 1)
  | .ldloc2 => .plain (.loadLocal 2)
  | .ldloc3 => .plain (.loadLocal 3)
  | .ldlocS | .ldloc => .index .loadLocal
  | .ldlocaS | .ldloca => .index .loadLocalAddress
  | .stloc0 => .plain (.storeLocal 0)
  | .stloc1 => .plain (.storeLocal 1)
  | .stloc2 => .plain (.storeLocal 2)
  | .stloc3 => .plain (.storeLocal 3)
  | .stlocS | .stloc => .index .storeLocal
  | .arglist => .plain .argList
  | .ldnull => .plain .loadNull
  | .ldcI4M1 => .plain (.loadInt32 (-1))
  | .ldcI40 => .plain (.loadInt32 0)
  | .ldcI41 => .plain (.loadInt32 1)
  | .ldcI42 => .plain (.loadInt32 2)
  | .ldcI43 => .plain (.loadInt32 3)
  | .ldcI44 => .plain (.loadInt32 4)
  | .ldcI45 => .plain (.loadInt32 5)
  | .ldcI46 => .plain (.loadInt32 6)
  | .ldcI47 => .plain (.loadInt32 7)
  | .ldcI48 => .plain (.loadInt32 8)
  | .ldcI4S => .int8 fun value => .loadInt32 value.toInt32
  | .ldcI4 => .int32 .loadInt32
  | .ldcI8 => .int64 .loadInt64
  | .ldcR4 => .float32 .loadFloat32
  | .ldcR8 => .float64 .loadFloat64
  | .ldstr => .token .loadString
  | .ldtoken => .token .loadToken
  | .dup => .plain .dup
  | .pop => .plain .pop
  | .add => .plain (.binary .add)
  | .sub => .plain (.binary .sub)
  | .mul => .plain (.binary .mul)
  | .div => .plain (.binary .div)
  | .divUn => .plain (.binary .divUn)
  | .rem => .plain (.binary .rem)
  | .remUn => .plain (.binary .remUn)
  | .and => .plain (.binary .and)
  | .or => .plain (.binary .or)
  | .xor => .plain (.binary .xor)
  | .addOvf => .plain (.binary .addOvf)
  | .addOvfUn => .plain (.binary .addOvfUn)
  | .subOvf => .plain (.binary .subOvf)
  | .subOvfUn => .plain (.binary .subOvfUn)
  | .mulOvf => .plain (.binary .mulOvf)
  | .mulOvfUn => .plain (.binary .mulOvfUn)
  | .shl => .plain (.shift .shl)
  | .shr => .plain (.shift .shr)
  | .shrUn => .plain (.shift .shrUn)
  | .neg => .plain (.unary .neg)
  | .not => .plain (.unary .not)
  | .ckfinite => .plain .checkFinite
  | .ceq => .plain (.compare .eq)
  | .cgt => .plain (.compare .gt)
  | .cgtUn => .plain (.compare .gtUn)
  | .clt => .plain (.compare .lt)
  | .cltUn => .plain (.compare .ltUn)
  | .convI1 => .plain (.convert ⟨.int8, false, false⟩)
  | .convI2 => .plain (.convert ⟨.int16, false, false⟩)
  | .convI4 => .plain (.convert ⟨.int32, false, false⟩)
  | .convI8 => .plain (.convert ⟨.int64, false, false⟩)
  | .convU1 => .plain (.convert ⟨.uint8, false, false⟩)
  | .convU2 => .plain (.convert ⟨.uint16, false, false⟩)
  | .convU4 => .plain (.convert ⟨.uint32, false, false⟩)
  | .convU8 => .plain (.convert ⟨.uint64, false, false⟩)
  | .convI => .plain (.convert ⟨.nativeInt, false, false⟩)
  | .convU => .plain (.convert ⟨.nativeUInt, false, false⟩)
  | .convR4 => .plain (.convert ⟨.float32, false, false⟩)
  | .convR8 => .plain (.convert ⟨.float64, false, false⟩)
  | .convRUn => .plain (.convert ⟨.float64, false, true⟩)
  | .convOvfI1 => .plain (.convert ⟨.int8, true, false⟩)
  | .convOvfI2 => .plain (.convert ⟨.int16, true, false⟩)
  | .convOvfI4 => .plain (.convert ⟨.int32, true, false⟩)
  | .convOvfI8 => .plain (.convert ⟨.int64, true, false⟩)
  | .convOvfU1 => .plain (.convert ⟨.uint8, true, false⟩)
  | .convOvfU2 => .plain (.convert ⟨.uint16, true, false⟩)
  | .convOvfU4 => .plain (.convert ⟨.uint32, true, false⟩)
  | .convOvfU8 => .plain (.convert ⟨.uint64, true, false⟩)
  | .convOvfI => .plain (.convert ⟨.nativeInt, true, false⟩)
  | .convOvfU => .plain (.convert ⟨.nativeUInt, true, false⟩)
  | .convOvfI1Un => .plain (.convert ⟨.int8, true, true⟩)
  | .convOvfI2Un => .plain (.convert ⟨.int16, true, true⟩)
  | .convOvfI4Un => .plain (.convert ⟨.int32, true, true⟩)
  | .convOvfI8Un => .plain (.convert ⟨.int64, true, true⟩)
  | .convOvfU1Un => .plain (.convert ⟨.uint8, true, true⟩)
  | .convOvfU2Un => .plain (.convert ⟨.uint16, true, true⟩)
  | .convOvfU4Un => .plain (.convert ⟨.uint32, true, true⟩)
  | .convOvfU8Un => .plain (.convert ⟨.uint64, true, true⟩)
  | .convOvfIUn => .plain (.convert ⟨.nativeInt, true, true⟩)
  | .convOvfUUn => .plain (.convert ⟨.nativeUInt, true, true⟩)
  | .brS | .br => .target .branch
  | .brtrueS | .brtrue => .target (.branchIf true)
  | .brfalseS | .brfalse => .target (.branchIf false)
  | .beqS | .beq => .target (.branchCompare .eq)
  | .bneUnS | .bneUn => .target (.branchCompare .neUn)
  | .bgeS | .bge => .target (.branchCompare .ge)
  | .bgeUnS | .bgeUn => .target (.branchCompare .geUn)
  | .bgtS | .bgt => .target (.branchCompare .gt)
  | .bgtUnS | .bgtUn => .target (.branchCompare .gtUn)
  | .bleS | .ble => .target (.branchCompare .le)
  | .bleUnS | .bleUn => .target (.branchCompare .leUn)
  | .bltS | .blt => .target (.branchCompare .lt)
  | .bltUnS | .bltUn => .target (.branchCompare .ltUn)
  | .switch => .targets .switch
  | .leaveS | .leave => .target .leave
  | .endfinally => .plain .endFinally
  | .endfilter => .plain .endFilter
  | .throw => .plain .throw
  | .rethrow => .plain .rethrow
  | .ret => .plain .ret
  | .jmp => .token .jump
  | .call => .token (.call false)
  | .callvirt => .token (.call true)
  | .calli => .token .callIndirect
  | .newobj => .token .newObject
  | .ldftn => .token .loadFunction
  | .ldvirtftn => .token .loadVirtualFunction
  | .ldindI1 => .plain (.loadIndirect (.primitive .int8))
  | .ldindU1 => .plain (.loadIndirect (.primitive .uint8))
  | .ldindI2 => .plain (.loadIndirect (.primitive .int16))
  | .ldindU2 => .plain (.loadIndirect (.primitive .uint16))
  | .ldindI4 => .plain (.loadIndirect (.primitive .int32))
  | .ldindU4 => .plain (.loadIndirect (.primitive .uint32))
  | .ldindI8 => .plain (.loadIndirect (.primitive .int64))
  | .ldindI => .plain (.loadIndirect (.primitive .nativeInt))
  | .ldindR4 => .plain (.loadIndirect (.primitive .float32))
  | .ldindR8 => .plain (.loadIndirect (.primitive .float64))
  | .ldindRef => .plain (.loadIndirect .reference)
  | .stindI1 => .plain (.storeIndirect (.primitive .int8))
  | .stindI2 => .plain (.storeIndirect (.primitive .int16))
  | .stindI4 => .plain (.storeIndirect (.primitive .int32))
  | .stindI8 => .plain (.storeIndirect (.primitive .int64))
  | .stindI => .plain (.storeIndirect (.primitive .nativeInt))
  | .stindR4 => .plain (.storeIndirect (.primitive .float32))
  | .stindR8 => .plain (.storeIndirect (.primitive .float64))
  | .stindRef => .plain (.storeIndirect .reference)
  | .ldobj => .token .loadObject
  | .stobj => .token .storeObject
  | .cpobj => .token .copyObject
  | .initobj => .token .initObject
  | .sizeof => .token .sizeOf
  | .localloc => .plain .localAlloc
  | .cpblk => .plain .copyBlock
  | .initblk => .plain .initBlock
  | .ldfld => .token .loadField
  | .ldflda => .token .loadFieldAddress
  | .stfld => .token .storeField
  | .ldsfld => .token .loadStatic
  | .ldsflda => .token .loadStaticAddress
  | .stsfld => .token .storeStatic
  | .castclass => .token .castClass
  | .isinst => .token .isInstance
  | .box => .token .box
  | .unbox => .token .unbox
  | .unboxAny => .token .unboxAny
  | .newarr => .token .newArray
  | .ldlen => .plain .arrayLength
  | .ldelema => .token .loadElementAddress
  | .ldelemI1 => .plain (.loadElement (.primitive .int8))
  | .ldelemU1 => .plain (.loadElement (.primitive .uint8))
  | .ldelemI2 => .plain (.loadElement (.primitive .int16))
  | .ldelemU2 => .plain (.loadElement (.primitive .uint16))
  | .ldelemI4 => .plain (.loadElement (.primitive .int32))
  | .ldelemU4 => .plain (.loadElement (.primitive .uint32))
  | .ldelemI8 => .plain (.loadElement (.primitive .int64))
  | .ldelemI => .plain (.loadElement (.primitive .nativeInt))
  | .ldelemR4 => .plain (.loadElement (.primitive .float32))
  | .ldelemR8 => .plain (.loadElement (.primitive .float64))
  | .ldelemRef => .plain (.loadElement .reference)
  | .ldelem => .token fun token => .loadElement (.named token)
  | .stelemI1 => .plain (.storeElement (.primitive .int8))
  | .stelemI2 => .plain (.storeElement (.primitive .int16))
  | .stelemI4 => .plain (.storeElement (.primitive .int32))
  | .stelemI8 => .plain (.storeElement (.primitive .int64))
  | .stelemI => .plain (.storeElement (.primitive .nativeInt))
  | .stelemR4 => .plain (.storeElement (.primitive .float32))
  | .stelemR8 => .plain (.storeElement (.primitive .float64))
  | .stelemRef => .plain (.storeElement .reference)
  | .stelem => .token fun token => .storeElement (.named token)
  | .mkrefany => .token .makeTypedRef
  | .refanyval => .token .typedRefValue
  | .refanytype => .plain .typedRefType
  | .unaligned => .uint8 fun alignment => .modify (.unaligned alignment)
  | .volatile => .plain (.modify .volatile)
  | .tail => .plain (.modify .tail)
  | .constrained => .token fun token => .modify (.constrained token)
  | .no => .plain (.modify .noCheck)
  | .readonly => .plain (.modify .readonly)
  | .annDataS | .annData => .plain .remark

/-- The operation for the operand of an instruction; `none` when the operand is of another kind. -/
def Meaning.operation? (meaning : Meaning) (i : Instruction) : Option Operation :=
  match meaning, i.operand with
  | .plain operation, _ => some operation
  | .index operation, _ => i.index?.map operation
  | .token operation, _ => i.token?.map operation
  | .target operation, _ => i.target?.map operation
  | .targets operation, .switch places => some (operation places)
  | .uint8 operation, .uint8 value => some (operation value)
  | .int8 operation, .int8 value => some (operation value)
  | .int32 operation, .int32 value => some (operation value)
  | .int64 operation, .int64 value => some (operation value)
  | .float32 operation, .float32 bits => some (operation bits)
  | .float64 operation, .float64 bits => some (operation bits)
  | _, _ => none

/-- What the instruction does; `none` when the operand is not of the opcode's layout. -/
def Instruction.operation? (i : Instruction) : Option Operation := i.opcode.meaning.operation? i

/-! ## The operation of an instruction -/

/-- `P` holds of every operation that an opcode can mean with the operand of an instruction. -/
def Meaning.Yields (i : Instruction) (P : Operation → Prop) : Meaning → Prop
  | .plain operation => P operation
  | .index operation => ∀ n, i.index? = some n → P (operation n)
  | .token operation => ∀ token, i.token? = some token → P (operation token)
  | .target operation => ∀ target, i.target? = some target → P (operation target)
  | .targets operation => ∀ places, i.operand = .switch places → P (operation places)
  | .uint8 operation => ∀ value, i.operand = .uint8 value → P (operation value)
  | .int8 operation => ∀ value, i.operand = .int8 value → P (operation value)
  | .int32 operation => ∀ value, i.operand = .int32 value → P (operation value)
  | .int64 operation => ∀ value, i.operand = .int64 value → P (operation value)
  | .float32 operation => ∀ bits, i.operand = .float32 bits → P (operation bits)
  | .float64 operation => ∀ bits, i.operand = .float64 bits → P (operation bits)

namespace Instruction

variable {i : Instruction} {operation : Operation}

/-- **The operation is what the opcode means with the operand.** -/
theorem of_operation? {P : Operation → Prop} (h : i.operation? = some operation)
    (hP : i.opcode.meaning.Yields i P) : P operation := by
  unfold operation? Meaning.operation? at h
  generalize i.opcode.meaning = meaning at h hP
  split at h
  case h_1 =>
    cases h
    exact hP
  case h_2 | h_3 | h_4 =>
    obtain ⟨value, hvalue, rfl⟩ := Option.map_eq_some_iff.mp h
    exact hP value hvalue
  case h_12 => cases h
  all_goals
    rename_i hoperand
    cases h
    exact hP _ hoperand

end Instruction

namespace Operation

/-- The operation reads or writes through an address that may be unaligned. -/
def accessesMemory : Operation → Bool
  | .loadIndirect _ | .storeIndirect _ | .loadField _ | .storeField _ | .loadObject _
  | .storeObject _ | .initBlock | .copyBlock => true
  | _ => false

/-- The operation reads or writes a static field. -/
def accessesStatic : Operation → Bool
  | .loadStatic _ | .storeStatic _ => true
  | _ => false

/-- The operation calls a method. -/
def isCall : Operation → Bool
  | .call _ _ | .callIndirect _ => true
  | _ => false

/-- The operation calls a method of its receiver's class. -/
def isVirtualCall : Operation → Bool
  | .call true _ => true
  | _ => false

/-- The operation takes the address of an array element. -/
def takesElementAddress : Operation → Bool
  | .loadElementAddress _ => true
  | _ => false

/-- Every modifier in the set says something about the operation. -/
def admits (operation : Operation) (modifiers : Modifiers) : Bool :=
  (!modifiers.unaligned || operation.accessesMemory) &&
  (!modifiers.volatile || operation.accessesMemory || operation.accessesStatic) &&
  (!modifiers.tail || operation.isCall) &&
  (!modifiers.constrained || operation.isVirtualCall) &&
  (!modifiers.readonly || operation.takesElementAddress)

/-- Control never falls through to the next instruction. -/
def isUnconditional : Operation → Bool
  | .branch _ | .leave _ | .ret | .throw | .rethrow | .jump _ | .endFinally | .endFilter => true
  | _ => false

end Operation

end ManagedCode
