import ManagedCode.Effect
import ManagedCode.EntryPoint

set_option autoImplicit false

/-! # The verification pass

One pass over the instructions in address order. Before an instruction, the live stack is compared
with the label there, if control can jump to it (`enter`); then the instruction is checked and
changes the stack (`execute`); then the stack is compared with the labels its effect leads to
(`arrive`). The pass collects the directives for the backend as it goes, and `Pass` keeps them
also when it ends early.

A jump back can only be compared with a label that was verified before. So a place that control
reaches by later jumps alone is taken to have an empty stack, and the later jumps must agree.
-/

namespace ManagedCode

/-- What the pass is about; it does not change on the way. -/
structure Context where
  world : Universe
  body : MethodBody
  rawPointers : Bool
  mask : JumpMask

/-- What the pass knows between two instructions. -/
structure EngineState where
  stack : Stack
  labels : LabelStore
  /-- Modifiers that wait for the instruction they modify. -/
  pending : Modifiers := .none
  /-- The type that a pending modifier names. -/
  constraint : Option Ty := none
  /-- Offset of a call that the method must return from at once. -/
  tailCall : Option Nat := none
  /-- Control cannot fall through to the next instruction. -/
  afterTransfer : Bool := false
  /-- Offset of the last instruction that was no remark. -/
  last : Option Nat := none

namespace Engine

variable (cx : Context)

/-- Lifts a fault of the instruction at `offset` to a rejection. -/
def rejecting {α : Type} (offset : Nat) : Except Fault α → Except Rejection α
  | .ok a => .ok a
  | .error fault => .error (fault.reject offset)

/-- Control arrives at a jump target, from the instruction before or by jumps alone. -/
def join (pc : Nat) (st : EngineState) : Except Rejection EngineState := do
  require st.pending.isEmpty (.type pc (some .modifier))
  let (result, labels) :=
    if st.afterTransfer then st.labels.reload pc
    else st.labels.observe cx.world pc st.stack.slots
  let id ← result
  let stack ← rejecting pc (st.stack.load (labels.snapshot id))
  return { st with stack, labels := labels.markVisited id, afterTransfer := false }

/-- Control arrives at the instruction at `pc`. Behind a transfer, a place that is no jump target
must not inherit a stack. -/
def enter (pc : Nat) (st : EngineState) : Except Rejection EngineState :=
  if cx.mask.isTarget pc then join cx pc st
  else do
    require (!(st.afterTransfer && !st.stack.isEmpty)) (.stack pc .nonEmptyAfterTransfer)
    return st

/-- What the backend is told about a jump target. -/
def enterDirectives (pc : Nat) (st : EngineState) : List Directive :=
  if cx.mask.isTarget pc then [.label pc, .refresh st.stack.slots] else []

/-- The stack goes to each of the targets. -/
def arrive (slots : Slots) : List Nat → LabelStore → Except Rejection LabelStore
  | [], labels => .ok labels
  | target :: rest, labels =>
      match labels.observe cx.world target slots with
      | (.ok _, labels) => arrive slots rest labels
      | (.error e, _) => .error e

/-- The site of an instruction. -/
def site (pc : Nat) (st : EngineState) : Site where
  world := cx.world
  body := cx.body
  rawPointers := cx.rawPointers
  codeSize := cx.mask.size
  offset := pc
  constraint := st.constraint
  tail := st.pending.tail

/-- Checks an operation and carries out its effect. -/
def execute (pc : Nat) (operation : Operation) (st : EngineState) :
    Except Rejection (EngineState × Directive) := do
  let effect ← rejecting pc ((site cx pc st).perform operation st.stack)
  let labels ← arrive cx effect.stack.slots effect.targets st.labels
  let st' : EngineState :=
    { stack := effect.stack
      labels
      tailCall := if st.pending.tail then some pc else none
      afterTransfer := operation.isUnconditional
      last := some pc }
  return (st', effect.directive)

/-- Alignments that can be promised. -/
def isAlignment (n : UInt8) : Bool := n = 1 || n = 2 || n = 4

/-- Adds a modifier to those that wait. No sort of modifier may be given twice. -/
def addModifier (pc : Nat) (modifier : Modifier) (st : EngineState) :
    Except Rejection EngineState := do
  let constraint ←
    match modifier with
    | .unaligned alignment => do
        require (isAlignment alignment) (.type pc (some .modifier))
        pure st.constraint
    | .constrained token => do
        let ty ← rejecting pc ((site cx pc st).typeAt token)
        pure (some ty)
    | _ => pure st.constraint
  require (!st.pending.contains modifier) (.type pc (some .modifier))
  return { st with
    pending := st.pending.insert modifier
    constraint
    tailCall := none
    afterTransfer := false
    last := some pc }

/-- A call at the end of the method is followed by a return. -/
def checkTailCall (operation : Operation) (st : EngineState) : Except Rejection Unit :=
  match st.tailCall with
  | some call => require (operation = .ret) (.type call (some .tail))
  | none => .ok ()

/-- What an instruction comes to: the directives sent, and the state after it or the reason why it
is rejected. -/
structure Outcome where
  directives : List Directive
  result : Except Rejection EngineState

/-- The instruction does its work, once control has arrived. -/
def process (pc : Nat) (operation : Operation) (st : EngineState) : Outcome :=
  match checkTailCall operation st with
  | .error e => ⟨[], .error e⟩
  | .ok _ =>
      match operation with
      | .modify modifier => ⟨[], addModifier cx pc modifier st⟩
      | _ =>
          if operation.admits st.pending then
            let announced :=
              if st.pending.isEmpty then [] else [.modifiers st.pending st.constraint]
            match execute cx pc operation st with
            | .error e => ⟨announced, .error e⟩
            | .ok (st, directive) => ⟨announced ++ [directive], .ok st⟩
          else ⟨[], .error (.type pc (some .modifier))⟩

/-- Control arrives at an instruction, which does its work. A remark does none. -/
def visit (i : Instruction) (st : EngineState) : Outcome :=
  match enter cx i.offset st with
  | .error e => ⟨[], .error e⟩
  | .ok st =>
      let entered := enterDirectives cx i.offset st
      match i.operation? with
      | none => ⟨entered, .error (.type i.offset (some .operand))⟩
      | some .remark => ⟨entered, .ok st⟩
      | some operation =>
          let outcome := process cx i.offset operation st
          ⟨entered ++ outcome.directives, outcome.result⟩

/-- The directives of a pass, and the state at its end or the reason why it ended early. -/
structure Pass where
  directives : Array Directive
  result : Except Rejection EngineState

/-- Visits instructions one after the other, up to the first that is rejected. -/
def visitAll (sent : Array Directive) : List Instruction → EngineState → Pass
  | [], st => ⟨sent, .ok st⟩
  | i :: rest, st =>
      match visit cx i st with
      | ⟨directives, .ok st⟩ => visitAll (sent ++ directives.toArray) rest st
      | ⟨directives, .error e⟩ => ⟨sent ++ directives.toArray, .error e⟩

/-- Control must not run past the last instruction, and a modifier needs something to modify. -/
def checkEnd (st : EngineState) : Except Rejection Unit :=
  match st.last with
  | none => .error (.fallsOffEnd 0)
  | some pc => require (st.afterTransfer && st.pending.isEmpty) (.fallsOffEnd pc)

/-- The state in which a method starts. -/
def start (labels : LabelStore) : EngineState :=
  { stack := { bound := cx.body.maxStack }, labels }

/-- The whole pass over a listing. -/
def run (listing : Listing) (labels : LabelStore) : Pass :=
  let pass := visitAll cx #[] listing.instructions (start cx labels)
  { pass with
    result := do
      let st ← pass.result
      match listing.fault with
      | some e => .error (.ofDecodeError e)
      | none =>
          checkEnd st
          return st }

end Engine

end ManagedCode
