import ManagedCode.Effect.Site

set_option autoImplicit false

/-! # Arguments, local variables and constants -/

namespace ManagedCode.Site

variable (site : Site)

/-- Pushes a slot and is done. -/
def pushing (s : Stack) (slot : Slot) (directive : Directive) : Except Fault Effect := do
  let s ← s.push slot
  return ⟨s, directive, []⟩

/-- The declared type of an argument. -/
def argType (index : Nat) : Except Fault Ty := known (site.body.argType? index) .argument

/-- The declared type of a local variable. -/
def localType (index : Nat) : Except Fault Ty := known (site.body.localType? index) .localVar

/-- Loads an argument. -/
def loadArg (index : Nat) (s : Stack) : Except Fault Effect := do
  let ty ← site.argType index
  let slot ← site.slotOf ty .argument
  pushing s slot (.loadArg index slot)

/-- Writes a value to an argument. -/
def storeArg (index : Nat) (s : Stack) : Except Fault Effect := do
  let ty ← site.argType index
  let (slot, s) ← site.popInto s ty .value
  return ⟨s, .storeArg index slot, []⟩

/-- There are no pointers to managed pointers. -/
def loadArgAddress (index : Nat) (s : Stack) : Except Fault Effect := do
  let ty ← site.argType index
  require (!ty.isByRef) (Fault.about .argument)
  pushing s (.managed ty) (.loadArgAddress index ty)

/-- A variable that need not be zero at the start is no value to rely on. -/
def loadLocal (index : Nat) (s : Stack) : Except Fault Effect := do
  let ty ← site.localType index
  require (site.body.initLocals || site.rawPointers) (Fault.about .localVar)
  let slot ← site.slotOf ty .localVar
  pushing s slot (.loadLocal index slot)

/-- Writes a value to a local variable. -/
def storeLocal (index : Nat) (s : Stack) : Except Fault Effect := do
  let ty ← site.localType index
  let (slot, s) ← site.popInto s ty .value
  return ⟨s, .storeLocal index slot, []⟩

/-- Loads the address of a local variable, unless that is a managed pointer itself. -/
def loadLocalAddress (index : Nat) (s : Stack) : Except Fault Effect := do
  let ty ← site.localType index
  require (!ty.isByRef) (Fault.about .localVar)
  pushing s (.managed ty) (.loadLocalAddress index ty)

/-- The handle of the further arguments, which only some methods have. -/
def argList (s : Stack) : Except Fault Effect := do
  require site.body.signature.vararg (Fault.about .arglist)
  pushing s (.value (.value WellKnown.argumentHandle.id)) .argList

/-- Loads a string literal. -/
def loadString (token : Token) (s : Stack) : Except Fault Effect := do
  require (site.world.hasString token) (Fault.about .token)
  pushing s (.object (.ref WellKnown.string.id)) (.loadString token)

/-- The class of the handle of an entity. -/
def handleClass : Entity → WellKnown
  | .type _ => .typeHandle
  | .field _ => .fieldHandle
  | .method _ => .methodHandle

/-- Loads the handle of what a token names. -/
def loadToken (token : Token) (s : Stack) : Except Fault Effect := do
  let entity ← known (site.world.entity? token) .token
  require (site.world.isAccessible entity.owner) (Fault.about .token)
  pushing s (.value (.value (handleClass entity).id)) (.loadToken entity)

/-- Puts the top slot on top once more. -/
def dup (s : Stack) : Except Fault Effect := do
  let slot ← s.peek 0
  pushing s slot (.dup slot)

/-- Takes the top slot off. -/
def pop (s : Stack) : Except Fault Effect := do
  let (slot, s) ← s.pop
  return ⟨s, .pop slot, []⟩

end ManagedCode.Site
