import ManagedCode.Slot
import ManagedCode.Universe.Hierarchy

set_option autoImplicit false

/-! # Assignability

When a value may be stored where another type is expected. Locations are compared after
`reduce`, which forgets signedness and turns enumerations into numbers; objects are compared
by subtyping, where arrays of references are covariant; slots are compared by both, after
their kind.
-/

namespace ManagedCode.Universe

/-- The slot that a value of declared type `ty` takes; `none` for `void`. -/
def slot? (u : Universe) (ty : Ty) : Option Slot :=
  match ty with
  | .primitive .void => none
  | .primitive .typedRef => some (.value ty)
  | .primitive p => some (.numeric p.kind)
  | .ref _ | .array _ | .null => some (.object ty)
  | .value id =>
      match u.underlying? id with
      | some p => some (.numeric p.kind)
      | none => some (.value ty)
  | .byRef pointee => some (.managed pointee)
  | .pointer pointee => some (.transient pointee)

/-- The form of a type that decides which locations it can share. -/
def reduce (u : Universe) : Ty → Ty
  | .primitive p => .primitive p.reduce
  | .value id =>
      match u.underlying? id with
      | some p => .primitive p.reduce
      | none => .value id
  | .array element => .array (u.reduce element)
  | .byRef pointee => .byRef (u.reduce pointee)
  | .pointer pointee => .pointer (u.reduce pointee)
  | .ref id => .ref id
  | .null => .null

/-- A location of the one type can be used as a location of the other. -/
def sameLocation (u : Universe) (a b : Ty) : Bool := a = b || u.reduce a = u.reduce b

/-- An object of type `source` can be stored where `target` is expected. -/
def objectAssignable (u : Universe) (source target : Ty) : Bool :=
  source = target ||
  match source, target with
  | .null, _ => target.isReference
  | .ref id, .ref goal =>
      goal = WellKnown.object.id || u.isSubclass id goal ||
        (u.isInterface goal && u.implements id goal)
  | .array _, .ref goal => goal = WellKnown.object.id
  | .array element, .array goal =>
      if element.isReference && goal.isReference then u.objectAssignable element goal
      else u.sameLocation element goal
  | _, _ => false

/-- How many base classes are tried before two objects are taken to share `Object` only. -/
def ancestorLimit : Nat := 1024

/-- A class that objects of both types can be stored as: the nearest base class of `a` that
takes `b`, and `Object` where the base classes of `a` do not lead to one. -/
def commonAncestor (u : Universe) (a b : Ty) : Ty :=
  if u.objectAssignable a b then b
  else if u.objectAssignable b a then a
  else
    let bases : List Ty :=
      match a with
      | .ref id => ((u.ancestry id).take ancestorLimit).map .ref
      | _ => []
    (bases.find? (u.objectAssignable b ·)).getD (.ref WellKnown.object.id)

/-- The pairs of different kinds that may stand for each other where raw pointers are
accepted. -/
def rawConvertible : StackKind → StackKind → Bool
  | .nativeInt, .transient | .transient, .nativeInt | .managed, .transient => true
  | _, _ => false

/-- Both types are known and `p` holds of them. -/
def bothKnown (p : Ty → Ty → Bool) : Option Ty → Option Ty → Bool
  | some a, some b => p a b
  | _, _ => false

/-- A value in slot `source` can be stored where slot `target` is expected. -/
def slotAssignable (u : Universe) (source target : Slot) (rawPointers : Bool) : Bool :=
  if source.kind = target.kind then
    match source.kind with
    | .int32 | .int64 | .nativeInt | .float => true
    | .object => bothKnown u.objectAssignable source.ty target.ty
    | .value => source.ty = target.ty
    | .managed => bothKnown u.sameLocation source.ty target.ty
    | .transient => rawPointers || bothKnown u.sameLocation source.ty target.ty
    | .invalid => false
  else rawPointers && rawConvertible source.kind target.kind

/-- A value in slot `source` can be stored in a location of type `ty`. -/
def assignableTo (u : Universe) (source : Slot) (ty : Ty) (rawPointers : Bool) : Bool :=
  match u.slot? ty with
  | some target => u.slotAssignable source target rawPointers
  | none => false

end ManagedCode.Universe
