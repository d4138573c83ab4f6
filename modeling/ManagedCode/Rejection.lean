import ManagedCode.Instruction

set_option autoImplicit false

/-! # Why a method is rejected

Verification ends with the first fault it finds. A `Rejection` names the fault and the offset it
belongs to; only a session that runs out of room has no offset. A `Fault` is what a single
instruction can do wrong, before its offset is attached.
-/

namespace ManagedCode

/-- Which rule of the evaluation stack is broken. -/
inductive StackFault where
  | underflow
  | overflow
  /-- Two paths meet with stacks of different heights. -/
  | heightMismatch
  /-- Two paths meet with slots that do not agree. -/
  | slotMismatch
  /-- Code that control cannot fall into starts with values on the stack. -/
  | nonEmptyAfterTransfer
  /-- Two exception regions require different stacks at one offset. -/
  | conflictingSeed
  deriving DecidableEq

/-- The fault in words. -/
def StackFault.message : StackFault → String
  | .underflow => "underflow"
  | .overflow => "overflow"
  | .heightMismatch => "height mismatch at join"
  | .slotMismatch => "slot mismatch at join"
  | .nonEmptyAfterTransfer => "non-empty stack after unconditional transfer"
  | .conflictingSeed => "conflicting handler seed"

/-- What a type error is about. -/
inductive Subject where
  | modifier | operand | token | argument | localVar | value | address | object | array | index
  | size | source | destination | function | receiver | result
  | catchType | exceptionType
  | arglist | leave | endfinally | endfilter | rethrow | ret | jmp | tail | localloc | cpblk
  | initblk
  deriving DecidableEq

/-- The subject in words. -/
def Subject.text : Subject → String
  | .modifier => "prefix"
  | .operand => "operand"
  | .token => "token"
  | .argument => "argument"
  | .localVar => "local"
  | .value => "value"
  | .address => "address"
  | .object => "object"
  | .array => "array"
  | .index => "index"
  | .size => "size"
  | .source => "source"
  | .destination => "destination"
  | .function => "function"
  | .receiver => "this"
  | .result => "return"
  | .catchType => "catch type"
  | .exceptionType => "exception type"
  | .arglist => "arglist"
  | .leave => "leave"
  | .endfinally => "endfinally"
  | .endfilter => "endfilter"
  | .rethrow => "rethrow"
  | .ret => "ret"
  | .jmp => "jmp"
  | .tail => "tail."
  | .localloc => "localloc"
  | .cpblk => "cpblk"
  | .initblk => "initblk"

/-- A reason to reject a method. -/
inductive Rejection where
  /-- An instruction runs past the end of the code. -/
  | truncated (offset : Nat)
  /-- An opcode is not assigned. -/
  | invalidOpcode (offset : Nat)
  /-- A target or region border is outside the code or inside an instruction. -/
  | branchOutOfRange (offset : Nat) (target : Int)
  | stack (offset : Nat) (fault : StackFault)
  /-- An operand does not have the type an instruction asks for. -/
  | type (offset : Nat) (subject : Option Subject)
  /-- A label was recorded and control never reached it. -/
  | unresolvedLabel (offset : Nat)
  /-- Control runs past the end of the code. -/
  | fallsOffEnd (offset : Nat)
  /-- There is no room for another label, or the backend restarted too often. -/
  | outOfMemory
  deriving DecidableEq

namespace Rejection

/-- Where the fault is. -/
def offset? : Rejection → Option Nat
  | .truncated offset | .invalidOpcode offset | .branchOutOfRange offset _ | .stack offset _
  | .type offset _ | .unresolvedLabel offset | .fallsOffEnd offset => some offset
  | .outOfMemory => none

/-- The fault says nothing about the method itself. -/
def isFatal : Rejection → Bool
  | .outOfMemory => true
  | _ => false

/-- The rejection in words. -/
def message : Rejection → String
  | .truncated offset => (DecodeError.truncated offset).message
  | .invalidOpcode offset => (DecodeError.invalidOpcode offset).message
  | .branchOutOfRange offset target =>
      "branch out of range at offset " ++ toString offset ++ ": target " ++ toString target
  | .stack offset fault =>
      "stack error at offset " ++ toString offset ++ ": " ++ fault.message
  | .type offset none => "type error at offset " ++ toString offset
  | .type offset (some subject) =>
      "type error at offset " ++ toString offset ++ " (" ++ subject.text ++ ")"
  | .unresolvedLabel offset => "unresolved label at offset " ++ toString offset
  | .fallsOffEnd offset =>
      "control falls off the end of the method after offset " ++ toString offset
  | .outOfMemory => "out of memory during verification"

/-- A code block that cannot be decoded is rejected for the same reason. -/
def ofDecodeError : DecodeError → Rejection
  | .truncated offset => .truncated offset
  | .invalidOpcode offset => .invalidOpcode offset

end Rejection

/-- What a single instruction can do wrong. -/
inductive Fault where
  | stack (fault : StackFault)
  /-- A type error, with what it is about where that is a single operand. -/
  | type (subject : Option Subject)
  /-- A target outside the code. -/
  | branch (target : Int)
  deriving DecidableEq

/-- The rejection of a method whose instruction at `offset` is at fault. -/
def Fault.reject (offset : Nat) : Fault → Rejection
  | .stack fault => .stack offset fault
  | .type subject => .type offset subject
  | .branch target => .branchOutOfRange offset target

/-- Goes on when the condition holds, and fails otherwise. -/
def require {ε : Type} (condition : Bool) (failure : ε) : Except ε Unit :=
  if condition then .ok () else .error failure

end ManagedCode
