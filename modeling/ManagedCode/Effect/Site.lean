import ManagedCode.Directive
import ManagedCode.MethodBody
import ManagedCode.Typing.Assignable

set_option autoImplicit false

/-! # Sites and effects

An operation is checked at a site: an instruction of a method, with what modifies it. If its
operands are right, its effect is the stack it leaves behind, the offsets it may send control to,
and the directive for the backend. This module holds the checks on operands that the operations
share.
-/

namespace ManagedCode

/-- Where an operation is checked. -/
structure Site where
  world : Universe
  body : MethodBody
  /-- Pointer code that cannot be verified is accepted. -/
  rawPointers : Bool
  /-- Length of the code. -/
  codeSize : Nat
  /-- Offset of the instruction. -/
  offset : Nat
  /-- The type behind the receiver of a constrained call. -/
  constraint : Option Ty := none
  /-- The operation is a call at the end of the method. -/
  tail : Bool := false

/-- What an operation does when it is accepted. -/
structure Effect where
  stack : Stack
  directive : Directive
  /-- The offsets control may go to with this stack, other than that of the next instruction. -/
  targets : List Nat := []

/-- A type error about one operand. -/
def Fault.about (subject : Subject) : Fault := .type (some subject)

/-- Operands that are wrong together. -/
def Fault.mismatch : Fault := .type none

/-- The value of an option, or a type error. -/
def known {α : Type} (value : Option α) (subject : Subject) : Except Fault α :=
  match value with
  | some value => .ok value
  | none => .error (.about subject)

/-! ## Operands on the stack -/

/-- Takes a slot off whose kind is one of `accepted`. -/
def Stack.popKind (s : Stack) (accepted : List StackKind) (subject : Subject) :
    Except Fault (Slot × Stack) := do
  let (slot, s) ← s.pop
  require (accepted.contains slot.kind) (Fault.about subject)
  return (slot, s)

/-- Nothing may be left on the stack. -/
def Stack.expectEmpty (s : Stack) : Except Fault Unit :=
  require s.isEmpty (.stack .nonEmptyAfterTransfer)

namespace Site

/-- The slot that a value of a type takes. -/
def slotOf (site : Site) (ty : Ty) (subject : Subject) : Except Fault Slot :=
  known (site.world.slot? ty) subject

/-- Takes a value off that can be stored in a location of a type. -/
def popInto (site : Site) (s : Stack) (ty : Ty) (subject : Subject) :
    Except Fault (Slot × Stack) := do
  let (slot, s) ← s.pop
  require (site.world.assignableTo slot ty site.rawPointers) (Fault.about subject)
  return (slot, s)

/-- Takes arguments off, which must fit the parameters one by one. -/
def popArgs (site : Site) (s : Stack) (params : List Ty) : Except Fault (List Slot × Stack) := do
  let (args, s) ← s.popMany params.length
  let fit := (args.zip params).all fun (arg, ty) =>
    site.world.assignableTo arg ty site.rawPointers
  require fit (Fault.about .argument)
  return (args, s)

/-! ## Operands in the code -/

/-- A type that a token names and that may be used. -/
def typeAt (site : Site) (token : Token) : Except Fault Ty :=
  known ((site.world.type? token).filter site.world.isAccessible) .token

/-- A field that a token names and that may be used. -/
def fieldAt (site : Site) (token : Token) : Except Fault Field :=
  known ((site.world.field? token).filter fun f => site.world.isAccessible f.owner) .token

/-- A method that a token names and that may be used. -/
def methodAt (site : Site) (token : Token) : Except Fault Method :=
  known ((site.world.method? token).filter fun m => site.world.isAccessible m.owner) .token

/-- A target inside the code. -/
def targetAt (site : Site) (target : Int) : Except Fault Nat :=
  if 0 ≤ target ∧ target < site.codeSize then .ok target.toNat else .error (.branch target)

end Site

end ManagedCode
