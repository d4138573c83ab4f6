import ManagedCode.Effect.Value

set_option autoImplicit false

/-! # Calls, constructors and function pointers -/

namespace ManagedCode.Site

variable (site : Site)

/-- The receiver fits the type that declares the method: an object of a class, or a managed pointer
to a value. A constrained call takes a pointer to the constraint instead. -/
def receiverFits (owner : Ty) (receiver : Slot) : Bool :=
  match site.constraint with
  | some constraint =>
      match receiver.kind, receiver.ty with
      | .managed, some pointee => site.world.sameLocation pointee constraint
      | _, _ => false
  | none =>
      match receiver.kind, receiver.ty, owner with
      | .object, some ty, .ref _ => site.world.objectAssignable ty owner
      | .object, some ty, .array _ => site.world.objectAssignable ty owner
      | .managed, some pointee, .value _ => site.world.sameLocation pointee owner
      | .transient, _, _ => site.rawPointers
      | _, _, _ => false

/-- How a method is called. -/
def callKind (method : Method) (isVirtual : Bool) : CallKind :=
  if method.isStatic then .static
  else if !isVirtual || !method.isVirtual then .direct
  else
    match method.owner with
    | .ref id => if site.world.isInterface id then .interface else .virtual
    | _ => .virtual

/-- The slot of the result of a call. -/
def resultOf (signature : Signature) : Except Fault (Option Slot) :=
  match signature.result? with
  | some ty => (site.slotOf ty .result).map some
  | none => .ok none

/-- Pushes the result of a call, if there is one. A call at the end of the method must have taken
everything off the stack before. -/
def pushResult (s : Stack) (result : Option Slot) : Except Fault Stack := do
  require (!site.tail || s.isEmpty) (Fault.about .tail)
  match result with
  | some slot => s.push slot
  | none => return s

/-- Takes off the receiver of a method, if it has one. -/
def popReceiver (method : Method) (s : Stack) : Except Fault (List Slot × Stack) :=
  if method.signature.hasThis then do
    let (receiver, s) ← s.pop
    require (site.receiverFits method.owner receiver) (Fault.about .receiver)
    return ([receiver], s)
  else .ok ([], s)

/-- A static method has no object to choose it by, and an abstract one no code to call directly. -/
def call (isVirtual : Bool) (token : Token) (s : Stack) : Except Fault Effect := do
  let method ← site.methodAt token
  require (if isVirtual then !method.isStatic else !method.isAbstract) (Fault.about .token)
  let (args, s) ← site.popArgs s method.signature.params
  let (receiver, s) ← site.popReceiver method s
  let result ← site.resultOf method.signature
  let s ← site.pushResult s result
  return ⟨s, .call (site.callKind method isVirtual) method (receiver ++ args) result, []⟩

/-- Takes off the receiver of a function behind a pointer. -/
def popAnyReceiver (signature : Signature) (s : Stack) : Except Fault (List Slot × Stack) :=
  if signature.hasThis then do
    let (receiver, s) ← s.popKind [.object, .managed] .receiver
    return ([receiver], s)
  else .ok ([], s)

/-- Calls the function behind a pointer, which lies above its arguments. -/
def callIndirect (token : Token) (s : Stack) : Except Fault Effect := do
  let signature ← known (site.world.signature? token) .token
  let (_, s) ← s.popKind [.nativeInt] .function
  let (args, s) ← site.popArgs s signature.params
  let (receiver, s) ← popAnyReceiver signature s
  let result ← site.resultOf signature
  let s ← site.pushResult s result
  return ⟨s, .callIndirect (receiver ++ args) result, []⟩

/-- Objects can be made of classes and value types, but not of interfaces. -/
def constructible (owner : Ty) : Bool :=
  match owner with
  | .ref id => !site.world.isInterface id
  | .value _ => true
  | _ => false

/-- Makes an object. The constructor gets it as receiver, so there is none among the arguments. -/
def newObject (token : Token) (s : Stack) : Except Fault Effect := do
  let constructor ← site.methodAt token
  require constructor.isConstructor (Fault.about .token)
  require (site.constructible constructor.owner) (Fault.about .token)
  let (args, s) ← site.popArgs s constructor.signature.params
  let result ← site.slotOf constructor.owner .token
  pushing s result (.newObject constructor args result)

/-- Loads a pointer to a method. -/
def loadFunction (token : Token) (s : Stack) : Except Fault Effect := do
  let method ← site.methodAt token
  pushing s .nativeInt (.loadFunction method)

/-- Loads a pointer to the method that an object has under a declaration. -/
def loadVirtualFunction (token : Token) (s : Stack) : Except Fault Effect := do
  let method ← site.methodAt token
  require (!method.isStatic) (Fault.about .token)
  let (receiver, s) ← s.popKind [.object] .receiver
  require (site.receiverFits method.owner receiver) (Fault.about .receiver)
  pushing s .nativeInt (.loadVirtualFunction method)

end ManagedCode.Site
