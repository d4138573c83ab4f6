import ManagedCode.Ty

set_option autoImplicit false

/-! # Stack slots

The verifier does not know the values on the evaluation stack, only what kind of value each
slot holds. A `Slot` pairs that coarse kind with a precise type where one is needed: the type
of an object or value, or the type a pointer points to. Numeric slots need none.
-/

namespace ManagedCode

/-- What a slot of the evaluation stack holds. -/
inductive StackKind where
  | int32 | int64 | nativeInt | float
  /-- A pointer the runtime keeps track of. -/
  | managed
  | object
  /-- A pointer the runtime knows nothing about. -/
  | transient
  /-- A structure. -/
  | value
  | invalid
  deriving DecidableEq

namespace StackKind

/-- The kinds a value can have, in the order in which tables list them. -/
def valid : List StackKind :=
  [.int32, .int64, .nativeInt, .float, .managed, .object, .transient, .value]

/-- Place of the kind in a table; `none` for `invalid`. -/
def ordinal? (kind : StackKind) : Option Nat := valid.idxOf? kind

/-- Kinds without a precise type. -/
def isNumeric : StackKind → Bool
  | .int32 | .int64 | .nativeInt | .float => true
  | _ => false

/-- Kinds of whole numbers. -/
def isInteger : StackKind → Bool
  | .int32 | .int64 | .nativeInt => true
  | _ => false

/-- Managed and transient pointers. -/
def isPointer : StackKind → Bool
  | .managed | .transient => true
  | _ => false

/-- The text of a kind. -/
def describe : StackKind → String
  | .int32 => "I4"
  | .int64 => "I8"
  | .nativeInt => "I"
  | .float => "F"
  | .managed => "M"
  | .object => "O"
  | .transient => "T"
  | .value => "MV"
  | .invalid => "Invalid"

/-- The kind with a given text. -/
def ofName? (name : String) : Option StackKind :=
  (invalid :: valid).find? (·.describe == name)

end StackKind

/-- The kind of slot that a value of a primitive type takes. -/
def Primitive.kind : Primitive → StackKind
  | .boolean | .char | .int8 | .uint8 | .int16 | .uint16 | .int32 | .uint32 => .int32
  | .int64 | .uint64 => .int64
  | .nativeInt | .nativeUInt => .nativeInt
  | .float32 | .float64 => .float
  | .typedRef => .value
  | .void => .invalid

/-- A slot of the evaluation stack. `ty` is the type of an object or value, or the type
behind a pointer. -/
structure Slot where
  kind : StackKind
  ty : Option Ty
  deriving DecidableEq

namespace Slot

/-- A slot with no precise type. -/
def numeric (kind : StackKind) : Slot := ⟨kind, none⟩

/-- A 32-bit number. -/
def int32 : Slot := numeric .int32

/-- A 64-bit number. -/
def int64 : Slot := numeric .int64

/-- A number of the native width. -/
def nativeInt : Slot := numeric .nativeInt

/-- A floating-point number. -/
def float : Slot := numeric .float

/-- A reference to an object of type `ty`. -/
def object (ty : Ty) : Slot := ⟨.object, some ty⟩

/-- A value of type `ty`. -/
def value (ty : Ty) : Slot := ⟨.value, some ty⟩

/-- A managed pointer to a `pointee`. -/
def managed (pointee : Ty) : Slot := ⟨.managed, some pointee⟩

/-- A transient pointer to a `pointee`. -/
def transient (pointee : Ty) : Slot := ⟨.transient, some pointee⟩

/-- The null reference. -/
def null : Slot := object .null

/-- The slot holds the null reference. -/
def isNull (slot : Slot) : Bool := slot.kind = .object && slot.ty = some .null

/-- The text of a slot: its kind, and its precise type in parentheses. -/
def describe (slot : Slot) : String :=
  match slot.ty with
  | some ty => slot.kind.describe ++ "(" ++ ty.describe ++ ")"
  | none => slot.kind.describe

end Slot

end ManagedCode
