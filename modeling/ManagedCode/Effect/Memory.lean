import ManagedCode.Effect.Value

set_option autoImplicit false

/-! # Indirect access, blocks of memory and fields -/

namespace ManagedCode.Site

variable (site : Site)

/-! ## Addresses -/

/-- The address points to a location of type `expected`. What an unmanaged address points to is
taken on trust where raw pointers are accepted. -/
def pointsTo (address : Slot) (expected : Ty) : Bool :=
  match address.kind, address.ty with
  | .managed, some pointee => site.world.sameLocation pointee expected
  | .transient, _ => site.rawPointers
  | .nativeInt, _ => site.rawPointers
  | _, _ => false

/-- The type of the reference that an address points to. -/
def referenceBehind (address : Slot) : Option Ty :=
  match address.kind, address.ty with
  | .managed, some pointee => if pointee.isReference then some pointee else none
  | .transient, _ | .nativeInt, _ =>
      if site.rawPointers then some (.ref WellKnown.object.id) else none
  | _, _ => none

/-- The type of the location that an access through an address reaches. -/
def accessed (address : Slot) : Access → Except Fault Ty
  | .primitive p => do
      require (site.pointsTo address (.primitive p)) (Fault.about .address)
      return .primitive p
  | .reference => known (site.referenceBehind address) .address

/-- Replaces an address by what it points to. -/
def loadIndirect (access : Access) (s : Stack) : Except Fault Effect := do
  let (address, s) ← s.pop
  let ty ← site.accessed address access
  let slot ← site.slotOf ty .address
  pushing s slot (.loadIndirect ty)

/-- Writes a value to the address below it. -/
def storeIndirect (access : Access) (s : Stack) : Except Fault Effect := do
  let (slot, s) ← s.pop
  let (address, s) ← s.pop
  let ty ← site.accessed address access
  require (site.world.assignableTo slot ty site.rawPointers) (Fault.about .value)
  return ⟨s, .storeIndirect ty, []⟩

/-! ## Values of a named type -/

/-- Replaces an address by the value of the type there. -/
def loadObject (token : Token) (s : Stack) : Except Fault Effect := do
  let ty ← site.typeAt token
  let (address, s) ← s.pop
  require (site.pointsTo address ty) (Fault.about .address)
  let slot ← site.slotOf ty .token
  pushing s slot (.loadObject ty)

/-- Writes a value of the type to the address below it. -/
def storeObject (token : Token) (s : Stack) : Except Fault Effect := do
  let ty ← site.typeAt token
  let (_, s) ← site.popInto s ty .value
  let (address, s) ← s.pop
  require (site.pointsTo address ty) (Fault.about .address)
  return ⟨s, .storeObject ty, []⟩

/-- Copies a value of the type from the address on top to the one below. -/
def copyObject (token : Token) (s : Stack) : Except Fault Effect := do
  let ty ← site.typeAt token
  let (source, s) ← s.pop
  let (destination, s) ← s.pop
  require (site.pointsTo source ty && site.pointsTo destination ty) (Fault.about .address)
  return ⟨s, .copyObject ty, []⟩

/-- Clears a location of the type. -/
def initObject (token : Token) (s : Stack) : Except Fault Effect := do
  let ty ← site.typeAt token
  let (address, s) ← s.pop
  require (site.pointsTo address ty) (Fault.about .address)
  return ⟨s, .initObject ty, []⟩

/-- Loads the size of a type. -/
def sizeOf (token : Token) (s : Stack) : Except Fault Effect := do
  let ty ← site.typeAt token
  pushing s .int32 (.sizeOf ty)

/-! ## Blocks -/

/-- Memory on the frame of the method can only be had while the stack is empty. -/
def localAlloc (s : Stack) : Except Fault Effect := do
  require site.rawPointers (Fault.about .localloc)
  let (_, s) ← s.popKind [.int32, .nativeInt] .size
  require s.isEmpty (Fault.about .localloc)
  pushing s (.transient (.primitive .uint8)) .localAlloc

/-- Kinds that can hold the address of a block. -/
def blockAddress : List StackKind := [.managed, .transient, .nativeInt]

/-- Copies bytes; from the top down, their number, where they are and where they go. -/
def copyBlock (s : Stack) : Except Fault Effect := do
  require site.rawPointers (Fault.about .cpblk)
  let (_, s) ← s.popKind [.int32] .size
  let (_, s) ← s.popKind blockAddress .source
  let (_, s) ← s.popKind blockAddress .destination
  return ⟨s, .copyBlock, []⟩

/-- Fills bytes; from the top down, their number, the value and where they are. -/
def initBlock (s : Stack) : Except Fault Effect := do
  require site.rawPointers (Fault.about .initblk)
  let (_, s) ← s.popKind [.int32] .size
  let (_, s) ← s.popKind [.int32] .value
  let (_, s) ← s.popKind blockAddress .address
  return ⟨s, .initBlock, []⟩

/-! ## Fields -/

/-- The object of a field access: a reference to an object of the class that has the field, a
pointer to a value or reference that has it, or, for reading, the value itself. -/
def hasField (field : Field) (object : Slot) (reading : Bool) : Bool :=
  match object.kind, object.ty with
  | .object, some ty =>
      match field.owner with
      | .ref _ => site.world.objectAssignable ty field.owner
      | _ => false
  | .managed, some pointee =>
      match field.owner with
      | .value _ => site.world.sameLocation pointee field.owner
      | _ => pointee.isReference && site.world.objectAssignable pointee field.owner
  | .value, some ty => reading && ty = field.owner
  | .transient, _ => site.rawPointers
  | .nativeInt, _ => site.rawPointers
  | _, _ => false

/-- An instance field that a token names. -/
def instanceField (token : Token) : Except Fault Field := do
  let field ← site.fieldAt token
  require (!field.isStatic) (Fault.about .token)
  return field

/-- A static field that a token names. -/
def staticField (token : Token) : Except Fault Field := do
  let field ← site.fieldAt token
  require field.isStatic (Fault.about .token)
  return field

/-- Replaces an object by one of its fields. -/
def loadField (token : Token) (s : Stack) : Except Fault Effect := do
  let field ← site.instanceField token
  let (object, s) ← s.pop
  require (site.hasField field object true) (Fault.about .object)
  let slot ← site.slotOf field.ty .token
  pushing s slot (.loadField field object)

/-- Replaces an object by the address of one of its fields. -/
def loadFieldAddress (token : Token) (s : Stack) : Except Fault Effect := do
  let field ← site.instanceField token
  let (object, s) ← s.pop
  require (site.hasField field object false) (Fault.about .object)
  pushing s (.managed field.ty) (.loadFieldAddress field object)

/-- Writes a value to a field of the object below it. -/
def storeField (token : Token) (s : Stack) : Except Fault Effect := do
  let field ← site.instanceField token
  let (slot, s) ← site.popInto s field.ty .value
  let (object, s) ← s.pop
  require (site.hasField field object false) (Fault.about .object)
  return ⟨s, .storeField field object slot, []⟩

/-- Loads a static field. -/
def loadStatic (token : Token) (s : Stack) : Except Fault Effect := do
  let field ← site.staticField token
  let slot ← site.slotOf field.ty .token
  pushing s slot (.loadStatic field)

/-- Loads the address of a static field. -/
def loadStaticAddress (token : Token) (s : Stack) : Except Fault Effect := do
  let field ← site.staticField token
  pushing s (.managed field.ty) (.loadStaticAddress field)

/-- Writes a value to a static field. -/
def storeStatic (token : Token) (s : Stack) : Except Fault Effect := do
  let field ← site.staticField token
  let (slot, s) ← site.popInto s field.ty .value
  return ⟨s, .storeStatic field slot, []⟩

end ManagedCode.Site
