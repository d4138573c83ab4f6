import ManagedCode.Effect.Value

set_option autoImplicit false

/-! # Casts, boxes, arrays and typed references -/

namespace ManagedCode.Site

variable (site : Site)

/-! ## Casts and boxes -/

/-- The reference type that a value becomes when it is boxed. -/
def boxed (ty : Ty) : Except Fault Ty :=
  match ty with
  | .ref _ | .array _ => .ok ty
  | .value id => .ok (.ref id)
  | .primitive p => known (p.boxed?.map .ref) .token
  | .byRef _ | .pointer _ | .null => .error (.about .token)

/-- The object becomes one of the type, boxed where it is a value type. -/
def cast (token : Token) (s : Stack) (directive : Ty → Directive) : Except Fault Effect := do
  let ty ← site.typeAt token
  let target ← boxed ty
  let (_, s) ← s.popKind [.object] .object
  pushing s (.object target) (directive ty)

/-- Replaces a value by an object that holds it. -/
def box (token : Token) (s : Stack) : Except Fault Effect := do
  let ty ← site.typeAt token
  let target ← boxed ty
  let (_, s) ← site.popInto s ty .value
  pushing s (.object target) (.box ty)

/-- There are boxes with values of the type in them. -/
def hasBoxes : Ty → Bool
  | .value _ => true
  | .primitive p => p ≠ .void
  | _ => false

/-- Replaces a box by the address of the value in it. -/
def unbox (token : Token) (s : Stack) : Except Fault Effect := do
  let ty ← site.typeAt token
  require (hasBoxes ty) (Fault.about .token)
  let (_, s) ← s.popKind [.object] .object
  pushing s (.managed ty) (.unbox ty)

/-- Replaces a box by the value in it, and an object by itself. -/
def unboxAny (token : Token) (s : Stack) : Except Fault Effect := do
  let ty ← site.typeAt token
  let slot ← site.slotOf ty .token
  let (_, s) ← s.popKind [.object] .object
  pushing s slot (.unboxAny ty)

/-! ## Arrays -/

/-- There are arrays of the type. -/
def isElementType : Ty → Bool
  | .primitive p => p ≠ .void
  | .byRef _ | .null => false
  | _ => true

/-- Replaces a size by an array. -/
def newArray (token : Token) (s : Stack) : Except Fault Effect := do
  let element ← site.typeAt token
  require (isElementType element) (Fault.about .token)
  let (_, s) ← s.popKind [.int32, .nativeInt] .size
  pushing s (.object (.array element)) (.newArray element)

/-- Takes an array off. Gives the type of its elements, or nothing for null. -/
def popArray (s : Stack) : Except Fault (Option Ty × Stack) := do
  let (slot, s) ← s.popKind [.object] .array
  match slot.ty with
  | some (.array element) => return (some element, s)
  | some .null => return (none, s)
  | _ => .error (.about .array)

/-- Takes the index of an element off. -/
def popIndex (s : Stack) : Except Fault Stack := do
  let (_, s) ← s.popKind [.int32, .nativeInt] .index
  return s

/-- Replaces an array by its length. -/
def arrayLength (s : Stack) : Except Fault Effect := do
  let (_, s) ← popArray s
  pushing s .nativeInt .arrayLength

/-- The type that an element access names, if it names one. -/
def declared : Element → Except Fault (Option Ty)
  | .primitive p => .ok (some (.primitive p))
  | .reference => .ok none
  | .named token => (site.typeAt token).map some

/-- Elements of type `actual` can be used as the type that an access names. -/
def elementFits (actual declared : Ty) : Bool :=
  if declared.isReference then
    actual.isReference && site.world.objectAssignable actual declared
  else site.world.sameLocation actual declared

/-- The type that an element access works with. An access that names none takes it from the array,
which must hold references; nothing is known of null but that it would hold objects. -/
def elementType (declared actual : Option Ty) : Except Fault Ty :=
  match declared, actual with
  | some ty, some actual => do
      require (site.elementFits actual ty) (Fault.about .array)
      return ty
  | some ty, none => .ok ty
  | none, some actual => do
      require actual.isReference (Fault.about .array)
      return actual
  | none, none => .ok (.ref WellKnown.object.id)

/-- Replaces an array and an index by the element there. -/
def loadElement (element : Element) (s : Stack) : Except Fault Effect := do
  let declared ← site.declared element
  let s ← popIndex s
  let (actual, s) ← popArray s
  let ty ← site.elementType declared actual
  let slot ← site.slotOf ty .token
  pushing s slot (.loadElement ty)

/-- The address of an element is written through as well, so the types must agree exactly. -/
def loadElementAddress (token : Token) (s : Stack) : Except Fault Effect := do
  let ty ← site.typeAt token
  let s ← popIndex s
  let (actual, s) ← popArray s
  require (actual.all fun actual => site.world.sameLocation actual ty) (Fault.about .array)
  pushing s (.managed ty) (.loadElementAddress ty)

/-- Whether a reference may be stored in an array is checked when the method runs. -/
def storeElement (element : Element) (s : Stack) : Except Fault Effect := do
  let declared ← site.declared element
  let (slot, s) ← s.pop
  let s ← popIndex s
  let (actual, s) ← popArray s
  let ty ← site.elementType declared actual
  let fits :=
    if ty.isReference then slot.kind = .object
    else site.world.assignableTo slot ty site.rawPointers
  require fits (Fault.about .value)
  return ⟨s, .storeElement ty, []⟩

/-! ## Typed references -/

/-- Replaces a pointer by a typed reference. -/
def makeTypedRef (token : Token) (s : Stack) : Except Fault Effect := do
  let ty ← site.typeAt token
  let (address, s) ← s.popKind [.managed] .address
  require (address.ty.any fun pointee => site.world.sameLocation pointee ty)
    (Fault.about .address)
  pushing s (.value (.primitive .typedRef)) (.makeTypedRef ty)

/-- Takes a typed reference off. -/
def popTypedRef (s : Stack) : Except Fault Stack := do
  let (slot, s) ← s.popKind [.value] .value
  require (slot.ty = some (.primitive .typedRef)) (Fault.about .value)
  return s

/-- Replaces a typed reference by the pointer in it. -/
def typedRefValue (token : Token) (s : Stack) : Except Fault Effect := do
  let ty ← site.typeAt token
  let s ← popTypedRef s
  pushing s (.managed ty) (.typedRefValue ty)

/-- Replaces a typed reference by the handle of the type in it. -/
def typedRefType (s : Stack) : Except Fault Effect := do
  let s ← popTypedRef s
  pushing s (.value (.value WellKnown.typeHandle.id)) .typedRefType

end ManagedCode.Site
