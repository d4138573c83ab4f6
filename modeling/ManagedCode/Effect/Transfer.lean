import ManagedCode.Effect.Arithmetic

set_option autoImplicit false

/-! # Transfers of control

A transfer lists the offsets it may lead to in the targets of its effect. Where it takes the
stack along it must find the stack there, which is compared later; the other transfers leave an
empty stack behind.
-/

namespace ManagedCode.Site

variable (site : Site)

/-- Goes to the target in any case. -/
def branch (target : Int) (s : Stack) : Except Fault Effect := do
  let target ← site.targetAt target
  return ⟨s, .branch target, [target]⟩

/-- Kinds that can be tested for being zero or null. -/
def testable (kind : StackKind) : Bool :=
  match kind with
  | .int32 | .int64 | .nativeInt | .object | .managed => true
  | .transient => site.rawPointers
  | _ => false

/-- Goes to the target when the value on top is nonzero, or when it is zero. -/
def branchIf (condition : Bool) (target : Int) (s : Stack) : Except Fault Effect := do
  let target ← site.targetAt target
  let (slot, s) ← s.pop
  require (site.testable slot.kind) (Fault.about .value)
  return ⟨s, .branchIf condition slot target, [target]⟩

/-- Goes to the target when a relation holds. -/
def branchCompare (op : CompareOp) (target : Int) (s : Stack) : Except Fault Effect := do
  let target ← site.targetAt target
  let ((left, right), s) ← site.popCompared op s
  let directive :=
    if comparesAddresses left.kind right.kind then
      .branchCompareAddresses op left right target
    else .branchCompare op left.kind right.kind target
  return ⟨s, directive, [target]⟩

/-- Goes to the target that a number selects, or on to the next instruction. -/
def switch (targets : List Int) (s : Stack) : Except Fault Effect := do
  let targets ← targets.mapM site.targetAt
  let (slot, s) ← s.popKind [.int32, .nativeInt] .value
  return ⟨s, .switch slot.kind targets, targets⟩

/-- A filter is left by its own instruction only, and a cleanup handler runs to its end. -/
def leaveEscapes (target : Nat) : Bool :=
  site.body.regions.any fun r =>
    r.inFilter site.offset ||
      (r.kind.isCleanup && r.inHandler site.offset && !r.inHandler target)

/-- Leaves a block with an empty stack. -/
def leave (target : Int) (s : Stack) : Except Fault Effect := do
  let target ← site.targetAt target
  require (!site.leaveEscapes target) (Fault.about .leave)
  return ⟨s.clear, .leave target, [target]⟩

/-- The instruction lies in a cleanup handler. -/
def inCleanup : Bool :=
  site.body.regions.any fun r => r.kind.isCleanup && r.inHandler site.offset

/-- The instruction lies in a handler that got the exception. -/
def inExceptionHandler : Bool :=
  site.body.regions.any fun r => !r.kind.isCleanup && r.inHandler site.offset

/-- The instruction lies in a filter block. -/
def inFilter : Bool := site.body.regions.any fun r => r.inFilter site.offset

/-- The instruction lies in a block of some region. -/
def inRegion : Bool :=
  site.body.regions.any fun r =>
    r.inTry site.offset || r.inHandler site.offset || r.inFilter site.offset

/-- A cleanup handler ends. -/
def endFinally (s : Stack) : Except Fault Effect := do
  require site.inCleanup (Fault.about .endfinally)
  return ⟨s.clear, .endFinally, []⟩

/-- The answer of the filter is all that is left on the stack. -/
def endFilter (s : Stack) : Except Fault Effect := do
  require site.inFilter (Fault.about .endfilter)
  let (_, s) ← s.popKind [.int32] .value
  s.expectEmpty
  return ⟨s, .endFilter, []⟩

/-- Throws an object. -/
def throw (s : Stack) : Except Fault Effect := do
  let (slot, s) ← s.popKind [.object] .value
  return ⟨s.clear, .throw slot, []⟩

/-- Throws the exception again that a handler got. -/
def rethrow (s : Stack) : Except Fault Effect := do
  require site.inExceptionHandler (Fault.about .rethrow)
  return ⟨s.clear, .rethrow, []⟩

/-- Takes off the result of the method, if it has one. -/
def popResult (s : Stack) : Except Fault (Option Slot × Stack) :=
  match site.body.signature.result? with
  | some ty => do
      let (slot, s) ← site.popInto s ty .result
      return (some slot, s)
  | none => .ok (none, s)

/-- A method returns outside of all regions, and leaves nothing but its result. -/
def ret (s : Stack) : Except Fault Effect := do
  require (!site.inRegion) (Fault.about .ret)
  let (result, s) ← site.popResult s
  s.expectEmpty
  return ⟨s, .ret result, []⟩

/-- Hands the arguments over to a method with the same signature. -/
def jump (token : Token) (s : Stack) : Except Fault Effect := do
  require (site.rawPointers && !site.inRegion) (Fault.about .jmp)
  let method ← site.methodAt token
  require (method.signature = site.body.signature) (Fault.about .token)
  s.expectEmpty
  return ⟨s, .jump method, []⟩

end ManagedCode.Site
