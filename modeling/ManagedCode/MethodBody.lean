import ManagedCode.Bytes
import ManagedCode.Member
import ManagedCode.Region
import ManagedCode.Rejection

set_option autoImplicit false

/-! # Method bodies

What the verifier is given: the code of a method with its declarations, and options. Bodies
beyond the hard limits are rejected before anything else is looked at.
-/

namespace ManagedCode

/-- A method body. -/
structure MethodBody where
  code : Code
  /-- Declared bound on the height of the evaluation stack. -/
  maxStack : Nat := 8
  /-- Types of the local variables. -/
  locals : List Ty := []
  /-- The local variables are zero when the method starts. -/
  initLocals : Bool := true
  regions : List Region := []
  signature : Signature := {}
  /-- Type of the receiver of an instance method. -/
  thisType : Option Ty := none

namespace MethodBody

/-- Number of arguments, the receiver included. -/
def argCount (m : MethodBody) : Nat :=
  m.signature.params.length + if m.signature.hasThis then 1 else 0

/-- Type of an argument, where the receiver is argument zero. -/
def argType? (m : MethodBody) (index : Nat) : Option Ty :=
  if m.signature.hasThis then
    match index with
    | 0 => m.thisType
    | index + 1 => m.signature.params[index]?
  else m.signature.params[index]?

/-- Type of a local variable. -/
def localType? (m : MethodBody) (index : Nat) : Option Ty := m.locals[index]?

end MethodBody

/-- How a method is verified. -/
structure Options where
  /-- Accept pointer code that cannot be verified. -/
  rawPointers : Bool := false
  /-- Restarts that the backend may ask for. -/
  maxRestarts : Nat := 8
  /-- Labels that a session may record. -/
  maxLabels : Nat := 65536

namespace Limits

/-- Greatest length of code. -/
def codeLength : Nat := 16 * 1024 * 1024 - 1

/-- Greatest declared stack height. -/
def stackHeight : Nat := 65535

/-- Rejects code that is too long, then stacks that are too high. -/
def check (length maxStack : Nat) : Except Rejection Unit := do
  require (length ≤ codeLength) (.truncated 0)
  require (maxStack ≤ stackHeight) (.stack 0 .overflow)

end Limits

/-- The body keeps to the hard limits. -/
def MethodBody.checkLimits (m : MethodBody) : Except Rejection Unit :=
  Limits.check m.code.length m.maxStack

end ManagedCode
