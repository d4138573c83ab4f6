set_option autoImplicit false

/-! # Types

The precise types that metadata hands out: primitives, classes, value types, and arrays and
pointers over them. `Ty.describe` is the text under which a type appears in listings and
traces.
-/

namespace ManagedCode

/-- Built-in element types. -/
inductive Primitive where
  | void | boolean | char | int8 | uint8 | int16 | uint16 | int32 | uint32 | int64 | uint64
  | float32 | float64 | nativeInt | nativeUInt
  /-- A pointer paired with the type it points to. -/
  | typedRef
  deriving DecidableEq

namespace Primitive

/-- Every primitive, `void` first. -/
def all : List Primitive :=
  [.void, .boolean, .char, .int8, .uint8, .int16, .uint16, .int32, .uint32, .int64, .uint64,
   .float32, .float64, .nativeInt, .nativeUInt, .typedRef]

/-- The text of a primitive. -/
def describe : Primitive → String
  | .void => "Void"
  | .boolean => "Boolean"
  | .char => "Char"
  | .int8 => "I1"
  | .uint8 => "U1"
  | .int16 => "I2"
  | .uint16 => "U2"
  | .int32 => "I4"
  | .uint32 => "U4"
  | .int64 => "I8"
  | .uint64 => "U8"
  | .float32 => "R4"
  | .float64 => "R8"
  | .nativeInt => "I"
  | .nativeUInt => "U"
  | .typedRef => "TypedRef"

/-- The primitive with a given text. -/
def ofName? (name : String) : Option Primitive := all.find? (·.describe == name)

/-- Forgets signedness: two primitives of one width share a memory location. -/
def reduce : Primitive → Primitive
  | .boolean | .uint8 => .int8
  | .char | .uint16 => .int16
  | .uint32 => .int32
  | .uint64 => .int64
  | .nativeUInt => .nativeInt
  | other => other

end Primitive

/-- A class, interface or value type of a universe, by its place in the class table. -/
structure ClassId where
  index : Nat
  deriving DecidableEq

/-- The text of a class id. -/
def ClassId.describe (id : ClassId) : String := "ClassId(" ++ toString id.index ++ ")"

/-- A precise type. -/
inductive Ty where
  | primitive (p : Primitive)
  /-- A class or an interface. -/
  | ref (id : ClassId)
  /-- A structure or an enumeration. -/
  | value (id : ClassId)
  /-- An array with one dimension. -/
  | array (element : Ty)
  /-- A managed pointer. -/
  | byRef (pointee : Ty)
  /-- An unmanaged pointer. -/
  | pointer (pointee : Ty)
  /-- The type of the null reference. -/
  | null
  deriving DecidableEq

namespace Ty

/-- The type of no value. -/
def isVoid : Ty → Bool
  | .primitive .void => true
  | _ => false

/-- Values of the type are object references. -/
def isReference : Ty → Bool
  | .ref _ | .array _ | .null => true
  | _ => false

/-- The type is a managed pointer. -/
def isByRef : Ty → Bool
  | .byRef _ => true
  | _ => false

/-- The text of a type. -/
def describe : Ty → String
  | .primitive p => "Primitive(" ++ p.describe ++ ")"
  | .ref id => "Class(" ++ id.describe ++ ")"
  | .value id => "ValueType(" ++ id.describe ++ ")"
  | .array element => "Array(" ++ element.describe ++ ")"
  | .byRef pointee => "ByRef(" ++ pointee.describe ++ ")"
  | .pointer pointee => "Pointer(" ++ pointee.describe ++ ")"
  | .null => "Null"

end Ty

end ManagedCode
