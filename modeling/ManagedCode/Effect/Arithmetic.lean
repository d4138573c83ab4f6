import ManagedCode.Effect.Value

set_option autoImplicit false

/-! # Arithmetic, conversions and comparisons -/

namespace ManagedCode.Site

variable (site : Site)

/-- A pointer that was moved still points to what it pointed to before. -/
def binary (op : BinaryOp) (s : Stack) : Except Fault Effect := do
  let (right, s) ← s.pop
  let (left, s) ← s.pop
  let result := op.table.arithmetic left.kind right.kind (op.movesPointers && site.rawPointers)
  require (result ≠ .invalid) Fault.mismatch
  let slot :=
    if result.isPointer then (if left.kind = result then left else right) else .numeric result
  pushing s slot (.binary op left.kind right.kind result)

/-- The number below the top is shifted by the number on top. -/
def shift (op : ShiftOp) (s : Stack) : Except Fault Effect := do
  let (amount, s) ← s.pop
  let (operand, s) ← s.pop
  let result := OperatorTable.shift.lookup operand.kind amount.kind
  require (result ≠ .invalid) Fault.mismatch
  pushing s (.numeric result) (.shift op operand.kind amount.kind)

/-- A number is replaced by one of the same kind. -/
def unary (op : UnaryOp) (s : Stack) : Except Fault Effect := do
  let (operand, s) ← s.pop
  let result := op.table.lookup operand.kind operand.kind
  require (result ≠ .invalid) (Fault.about .value)
  pushing s (.numeric result) (.unary op operand.kind)

/-- Types wide enough for an address. -/
def holdsAddress : Primitive → Bool
  | .nativeInt | .nativeUInt | .int64 | .uint64 => true
  | _ => false

/-- Numbers are converted, and where raw pointers are accepted an address to a wide number. -/
def convert (conversion : Conversion) (s : Stack) : Except Fault Effect := do
  let (operand, s) ← s.pop
  let address :=
    site.rawPointers && operand.kind.isPointer && holdsAddress conversion.target
  require (operand.kind.isNumeric || address) (Fault.about .value)
  pushing s (.numeric conversion.target.kind) (.convert conversion operand.kind)

/-- A floating-point number stays where it is, once it is known to be finite. -/
def checkFinite (s : Stack) : Except Fault Effect := do
  let (_, s) ← s.popKind [.float] .value
  pushing s .float .checkFinite

/-- Takes off the operands of a comparison, left and right. -/
def popCompared (op : CompareOp) (s : Stack) : Except Fault ((Slot × Slot) × Stack) := do
  let (right, s) ← s.pop
  let (left, s) ← s.pop
  require (op.table.comparable left.kind right.kind site.rawPointers) Fault.mismatch
  return ((left, right), s)

/-- Two values are replaced by the truth of a relation between them. -/
def compare (op : CompareOp) (s : Stack) : Except Fault Effect := do
  let ((left, right), s) ← site.popCompared op s
  pushing s .int32
    (if comparesAddresses left.kind right.kind then .compareAddresses op left right
     else .compare op left.kind right.kind)

end ManagedCode.Site
