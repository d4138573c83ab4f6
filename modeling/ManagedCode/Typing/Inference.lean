import ManagedCode.Slot

set_option autoImplicit false

/-! # Operators on stack kinds

Which kinds a binary operator accepts, and of what kind its result is. Each table is a
function that gives `invalid` for the pairs it rejects. Pointer arithmetic has a table of its
own, consulted only where unverifiable pointer code is accepted.
-/

namespace ManagedCode

/-- The tables of binary operators. -/
inductive OperatorTable where
  /-- Addition, subtraction, multiplication, division, remainder. -/
  | numeric
  /-- Bitwise, unsigned and overflow-checked operators. -/
  | integer
  /-- Shifts: the result is of the kind that is shifted. -/
  | shift
  /-- Comparisons by order. -/
  | ordered
  /-- Comparisons for equality, which object references allow as well. -/
  | equality
  /-- Arithmetic on pointers. -/
  | pointer
  deriving DecidableEq

namespace OperatorTable

/-- Whole numbers of one width, or of 32 bits and the native width. -/
def integerResult : StackKind → StackKind → StackKind
  | .int32, .int32 => .int32
  | .int64, .int64 => .int64
  | .int32, .nativeInt | .nativeInt, .int32 | .nativeInt, .nativeInt => .nativeInt
  | _, _ => .invalid

/-- Whole numbers as above, or two floating-point numbers. -/
def numericResult : StackKind → StackKind → StackKind
  | .float, .float => .float
  | left, right => integerResult left right

/-- Any whole number, shifted by 32 bits or a native width. -/
def shiftResult : StackKind → StackKind → StackKind
  | .int32, .int32 | .int32, .nativeInt => .int32
  | .int64, .int32 | .int64, .nativeInt => .int64
  | .nativeInt, .int32 | .nativeInt, .nativeInt => .nativeInt
  | _, _ => .invalid

/-- Numbers that can be computed with each other, and two managed pointers. -/
def orderedResult : StackKind → StackKind → StackKind
  | .managed, .managed => .int32
  | left, right => if numericResult left right = .invalid then .invalid else .int32

/-- What can be ordered, and two object references. -/
def equalityResult : StackKind → StackKind → StackKind
  | .object, .object => .int32
  | left, right => orderedResult left right

/-- A pointer moved by a number is a pointer, the distance of two pointers a number. -/
def pointerResult : StackKind → StackKind → StackKind
  | .int32, .managed | .nativeInt, .managed | .managed, .int32 | .managed, .nativeInt => .managed
  | .int32, .transient | .nativeInt, .transient | .transient, .int32
  | .transient, .nativeInt => .transient
  | .managed, .managed | .transient, .transient => .nativeInt
  | _, _ => .invalid

/-- The kind of the result of a binary operator. -/
def lookup : OperatorTable → StackKind → StackKind → StackKind
  | .numeric => numericResult
  | .integer => integerResult
  | .shift => shiftResult
  | .ordered => orderedResult
  | .equality => equalityResult
  | .pointer => pointerResult

/-- The result of an arithmetic operator. The pointer table is asked where `pointers` allows
it and the operator's own table rejects the pair. -/
def arithmetic (table : OperatorTable) (left right : StackKind) (pointers : Bool) : StackKind :=
  match table.lookup left right with
  | .invalid => if pointers then OperatorTable.pointer.lookup left right else .invalid
  | result => result

/-- The two kinds can be compared. With raw pointers, a transient pointer can also be compared
with whatever it can be computed with. -/
def comparable (table : OperatorTable) (left right : StackKind) (rawPointers : Bool) : Bool :=
  table.lookup left right != .invalid ||
  (rawPointers && (left = .transient || right = .transient) &&
    OperatorTable.pointer.lookup left right != .invalid)

end OperatorTable

/-- The kind is a pointer or a reference. -/
def StackKind.isAddress : StackKind → Bool
  | .managed | .transient | .object => true
  | _ => false

/-- A comparison of the two kinds compares addresses. -/
def comparesAddresses (left right : StackKind) : Bool := left.isAddress || right.isAddress

end ManagedCode
