import ManagedCode.Rejection
import ManagedCode.Stack
import ManagedCode.Typing.Assignable

set_option autoImplicit false

/-! # Labels

A label records the stack that control must arrive with at an offset. It is created by the first
jump to the offset, or by an exception region, and every later arrival is compared with it. Until
the code at the label has been verified, an object slot may widen to a common ancestor of the
types seen; from then on, and from the start for labels of exception regions, arrivals must fit.

Operations that can fail give the store back as well: slots that were widened before a mismatch
was found stay widened.
-/

namespace ManagedCode

/-! ## Agreement of slots -/

namespace Slot

/-- The slot to record when `incoming` arrives where `recorded` is expected; `none` when they do
not agree. -/
def unify? (u : Universe) (frozen : Bool) (recorded incoming : Slot) : Option Slot :=
  if recorded.kind = incoming.kind then
    match recorded.kind with
    | .object =>
        match recorded.ty, incoming.ty with
        | some known, some arriving =>
            if incoming.isNull || u.objectAssignable arriving known then some recorded
            else if frozen then none
            else some (.object (u.commonAncestor known arriving))
        | _, _ => none
    | .managed | .transient | .value => if recorded.ty = incoming.ty then some recorded else none
    | _ => some recorded
  else none

end Slot

/-- Unifies stacks of one height slot by slot, from the bottom up to the first disagreement.
Gives the slots to record and whether all agree. -/
def Slots.unify (u : Universe) (frozen : Bool) : (recorded incoming : Slots) → Slots × Bool
  | slot :: recorded, arriving :: incoming =>
      match Slots.unify u frozen recorded incoming with
      | (below, false) => (slot :: below, false)
      | (below, true) =>
          match slot.unify? u frozen arriving with
          | some slot => (slot :: below, true)
          | none => (slot :: below, false)
  | recorded, _ => (recorded, true)

/-! ## The store -/

/-- The stack expected at an offset. -/
structure Label where
  /-- How many labels were created before this one. -/
  id : Nat
  offset : Nat
  snapshot : Slots
  /-- The code at the offset has been verified with the snapshot. -/
  visited : Bool := false
  /-- The label was made by an exception region. -/
  seeded : Bool := false
  deriving DecidableEq

/-- The text of a label number. -/
def Label.describeId (id : Nat) : String := "LabelId(" ++ toString id ++ ")"

/-- The labels of a session, in the order of their creation. -/
structure LabelStore where
  labels : Array Label := #[]
  /-- How many labels there may be. -/
  bound : Nat

namespace LabelStore

/-- Number of labels. -/
def size (s : LabelStore) : Nat := s.labels.size

/-- The label at an offset. -/
def label? (s : LabelStore) (offset : Nat) : Option Label :=
  s.labels.find? (·.offset = offset)

/-- The snapshot of a label; empty for a number that no label has. -/
def snapshot (s : LabelStore) (id : Nat) : Slots :=
  ((s.labels.find? (·.id = id)).map (·.snapshot)).getD []

/-- Records a label, if there is room for one more. -/
def create (s : LabelStore) (offset : Nat) (snapshot : Slots) (seeded : Bool) :
    Except Rejection Nat × LabelStore :=
  if s.size < s.bound then
    (.ok s.size, { s with labels := s.labels.push { id := s.size, offset, snapshot, seeded } })
  else (.error .outOfMemory, s)

/-- Changes the label with a given number. -/
def modify (s : LabelStore) (id : Nat) (f : Label → Label) : LabelStore :=
  { s with labels := s.labels.map fun l => if l.id = id then f l else l }

/-- Control arrives at `offset` with the stack `incoming`. -/
def observe (s : LabelStore) (u : Universe) (offset : Nat) (incoming : Slots) :
    Except Rejection Nat × LabelStore :=
  match s.label? offset with
  | none => s.create offset incoming false
  | some label =>
      if label.snapshot.length = incoming.length then
        let (slots, agree) := Slots.unify u (label.visited || label.seeded) label.snapshot incoming
        (if agree then .ok label.id else .error (.stack offset .slotMismatch),
          s.modify label.id fun l => { l with snapshot := slots })
      else (.error (.stack offset .heightMismatch), s)

/-- Control can only arrive at `offset` by jumps. Where none was seen yet, the stack is taken to be
empty. -/
def reload (s : LabelStore) (offset : Nat) : Except Rejection Nat × LabelStore :=
  match s.label? offset with
  | some label => (.ok label.id, s)
  | none => s.create offset [] false

/-- An exception region requires the stack `snapshot` at `offset`. Another region may require the
same stack there, but no other. -/
def seed (s : LabelStore) (offset : Nat) (snapshot : Slots) :
    Except Rejection Nat × LabelStore :=
  match s.label? offset with
  | none => s.create offset snapshot true
  | some label =>
      if label.snapshot = snapshot then (.ok label.id, s)
      else (.error (.stack offset .conflictingSeed), s)

/-- The code at a label has been verified. -/
def markVisited (s : LabelStore) (id : Nat) : LabelStore :=
  s.modify id fun l => { l with visited := true }

/-- The lowest offset of a label that control never reached. -/
def firstUnresolved? (s : LabelStore) : Option Nat :=
  ((s.labels.toList.filter (!·.visited)).map (·.offset)).min?

end LabelStore

end ManagedCode
