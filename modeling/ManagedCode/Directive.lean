import ManagedCode.Decimal.Shortest
import ManagedCode.Member
import ManagedCode.Operation
import ManagedCode.Stack

set_option autoImplicit false

/-! # Directives

What the verifier tells a backend that compiles or interprets the method: one directive for each
instruction, with everything it names resolved, and a few about control flow in between.
`Directive.render` is the line under which a directive appears in a trace.
-/

namespace ManagedCode

/-- How a method is called. -/
inductive CallKind where
  | static
  /-- A method of an object, chosen by its declaration. -/
  | direct
  /-- A method of an object, chosen by the object's class. -/
  | virtual
  /-- A method of an interface. -/
  | interface
  deriving DecidableEq

/-- The text of a kind of call. -/
def CallKind.describe : CallKind → String
  | .static => "Static"
  | .direct => "Instance"
  | .virtual => "Virtual"
  | .interface => "Interface"

/-- A message to a backend. -/
inductive Directive where
  /-- Control may jump to the offset. -/
  | label (offset : Nat)
  /-- The stack at a label. -/
  | refresh (slots : Slots)
  /-- What modifies the next operation, and the type that constrains it. -/
  | modifiers (set : Modifiers) (constraint : Option Ty)
  | nop | breakpoint
  -- Constants.
  | loadNull
  | loadInt32 (value : Int32) | loadInt64 (value : Int64)
  | loadFloat32 (bits : UInt32) | loadFloat64 (bits : UInt64)
  | loadString (token : Token)
  | loadToken (entity : Entity)
  -- Arguments and local variables.
  | loadArg (index : Nat) (slot : Slot) | storeArg (index : Nat) (slot : Slot)
  | loadArgAddress (index : Nat) (ty : Ty)
  | loadLocal (index : Nat) (slot : Slot) | storeLocal (index : Nat) (slot : Slot)
  | loadLocalAddress (index : Nat) (ty : Ty)
  | argList
  | dup (slot : Slot) | pop (slot : Slot)
  -- Numbers.
  | binary (op : BinaryOp) (left right result : StackKind)
  | shift (op : ShiftOp) (operand amount : StackKind)
  | unary (op : UnaryOp) (operand : StackKind)
  | convert (conversion : Conversion) (source : StackKind)
  | checkFinite
  | compare (op : CompareOp) (left right : StackKind)
  | compareAddresses (op : CompareOp) (left right : Slot)
  -- Transfers of control.
  | branch (target : Nat)
  | branchIf (condition : Bool) (operand : Slot) (target : Nat)
  | branchCompare (op : CompareOp) (left right : StackKind) (target : Nat)
  | branchCompareAddresses (op : CompareOp) (left right : Slot) (target : Nat)
  | switch (operand : StackKind) (targets : List Nat)
  | leave (target : Nat)
  | endFinally | endFilter
  | throw (exception : Slot)
  | rethrow
  | ret (value : Option Slot)
  | jump (method : Method)
  -- Memory.
  | loadIndirect (ty : Ty) | storeIndirect (ty : Ty)
  | loadObject (ty : Ty) | storeObject (ty : Ty) | copyObject (ty : Ty) | initObject (ty : Ty)
  | sizeOf (ty : Ty)
  | localAlloc | copyBlock | initBlock
  -- Calls; arguments are in the order in which they were pushed.
  | call (kind : CallKind) (method : Method) (args : List Slot) (result : Option Slot)
  | callIndirect (args : List Slot) (result : Option Slot)
  | newObject (constructor : Method) (args : List Slot) (result : Slot)
  | loadFunction (method : Method) | loadVirtualFunction (method : Method)
  -- Objects.
  | castClass (ty : Ty) | isInstance (ty : Ty)
  | box (ty : Ty) | unbox (ty : Ty) | unboxAny (ty : Ty)
  | loadField (field : Field) (object : Slot) | loadFieldAddress (field : Field) (object : Slot)
  | storeField (field : Field) (object value : Slot)
  | loadStatic (field : Field) | loadStaticAddress (field : Field)
  | storeStatic (field : Field) (value : Slot)
  | newArray (element : Ty)
  | arrayLength
  | loadElement (element : Ty) | loadElementAddress (element : Ty) | storeElement (element : Ty)
  | makeTypedRef (ty : Ty) | typedRefValue (ty : Ty) | typedRefType

/-! ## Lines -/

/-- A token as eight hexadecimal digits. -/
def Token.hex (token : Token) : String :=
  let digits := Text.hexDigits token.toNat
  "0x" ++ String.ofList (List.replicate (8 - digits.length) '0' ++ digits)

/-- Slots in the order in which they were pushed. -/
def describeSlots (slots : List Slot) : String := Text.bracketed (slots.map Slot.describe)

/-- The slot of a result, or a word for there being none. -/
def describeResult : Option Slot → String
  | some slot => slot.describe
  | none => "void"

/-- The text of a conversion. -/
def Conversion.describe (c : Conversion) : String :=
  c.target.describe ++ (if c.checked then " ovf" else "") ++ (if c.unsigned then " un" else "")

namespace Directive

/-- The words of a line, with a blank between any two. -/
def words (parts : List String) : String := " ".intercalate parts

/-- The line of a directive. -/
def render : Directive → String
  | .label offset => words ["label", toString offset]
  | .refresh slots => words ["refresh", describeSlots slots.reverse]
  | .modifiers set none => words ["prefix", set.describe]
  | .modifiers set (some ty) => words ["prefix", set.describe, ty.describe]
  | .nop => "nop"
  | .breakpoint => "break"
  | .loadNull => "ldnull"
  | .loadInt32 value => words ["ldc.i4", toString value.toInt]
  | .loadInt64 value => words ["ldc.i8", toString value.toInt]
  | .loadFloat32 bits => words ["ldc.r4", BinaryFormat.single.text bits.toNat]
  | .loadFloat64 bits => words ["ldc.r8", BinaryFormat.double.text bits.toNat]
  | .loadString token => words ["ldstr", token.hex]
  | .loadToken entity => words ["ldtoken", entity.describe]
  | .loadArg index slot => words ["ldarg", toString index, slot.describe]
  | .storeArg index slot => words ["starg", toString index, slot.describe]
  | .loadArgAddress index ty => words ["ldarga", toString index, ty.describe]
  | .loadLocal index slot => words ["ldloc", toString index, slot.describe]
  | .storeLocal index slot => words ["stloc", toString index, slot.describe]
  | .loadLocalAddress index ty => words ["ldloca", toString index, ty.describe]
  | .argList => "arglist"
  | .dup slot => words ["dup", slot.describe]
  | .pop slot => words ["pop", slot.describe]
  | .binary op left right result =>
      words [op.describe, left.describe, right.describe, "->", result.describe]
  | .shift op operand amount => words [op.describe, operand.describe, amount.describe]
  | .unary op operand => words [op.describe, operand.describe]
  | .convert conversion source => words ["conv", conversion.describe, "from", source.describe]
  | .checkFinite => "ckfinite"
  | .compare op left right => words ["cmp", op.describe, left.describe, right.describe]
  | .compareAddresses op left right =>
      words ["cmp.ptr", op.describe, left.describe, right.describe]
  | .branch target => words ["br", toString target]
  | .branchIf condition operand target =>
      words [if condition then "br.True" else "br.False", operand.describe, toString target]
  | .branchCompare op left right target =>
      words ["b" ++ op.describe, left.describe, right.describe, toString target]
  | .branchCompareAddresses op left right target =>
      words ["b.ptr" ++ op.describe, left.describe, right.describe, toString target]
  | .switch operand targets =>
      words ["switch", operand.describe, Text.bracketed (targets.map toString)]
  | .leave target => words ["leave", toString target]
  | .endFinally => "endfinally"
  | .endFilter => "endfilter"
  | .throw exception => words ["throw", exception.describe]
  | .rethrow => "rethrow"
  | .ret none => "ret"
  | .ret (some value) => words ["ret", value.describe]
  | .jump method => words ["jmp", method.name]
  | .loadIndirect ty => words ["ldind", ty.describe]
  | .storeIndirect ty => words ["stind", ty.describe]
  | .loadObject ty => words ["ldobj", ty.describe]
  | .storeObject ty => words ["stobj", ty.describe]
  | .copyObject ty => words ["cpobj", ty.describe]
  | .initObject ty => words ["initobj", ty.describe]
  | .sizeOf ty => words ["sizeof", ty.describe]
  | .localAlloc => "localloc"
  | .copyBlock => "cpblk"
  | .initBlock => "initblk"
  | .call kind method args result =>
      words ["call", kind.describe, method.name, describeSlots args, "->", describeResult result]
  | .callIndirect args result =>
      words ["calli", describeSlots args, "->", describeResult result]
  | .newObject constructor args result =>
      words ["newobj", constructor.name, describeSlots args, "->", result.describe]
  | .loadFunction method => words ["ldftn", method.name]
  | .loadVirtualFunction method => words ["ldvirtftn", method.name]
  | .castClass ty => words ["castclass", ty.describe]
  | .isInstance ty => words ["isinst", ty.describe]
  | .box ty => words ["box", ty.describe]
  | .unbox ty => words ["unbox", ty.describe]
  | .unboxAny ty => words ["unbox.any", ty.describe]
  | .loadField field object => words ["ldfld", field.name, object.describe]
  | .loadFieldAddress field object => words ["ldflda", field.name, object.describe]
  | .storeField field object value =>
      words ["stfld", field.name, object.describe, value.describe]
  | .loadStatic field => words ["ldsfld", field.name]
  | .loadStaticAddress field => words ["ldsflda", field.name]
  | .storeStatic field value => words ["stsfld", field.name, value.describe]
  | .newArray element => words ["newarr", element.describe]
  | .arrayLength => "ldlen"
  | .loadElement element => words ["ldelem", element.describe]
  | .loadElementAddress element => words ["ldelema", element.describe]
  | .storeElement element => words ["stelem", element.describe]
  | .makeTypedRef ty => words ["mkrefany", ty.describe]
  | .typedRefValue ty => words ["refanyval", ty.describe]
  | .typedRefType => "refanytype"

end Directive

end ManagedCode
