import ManagedCode.Universe.Basic

set_option autoImplicit false

/-! # The class hierarchy

Two questions are asked about classes: whether one derives from another, which follows the
single chain of parents, and whether one implements an interface, which searches the graph of
parents and interfaces. Interfaces may extend each other in a circle and ids may have no entry,
so the search keeps a list of the classes it has still to expand and takes each out of it once.
-/

namespace ManagedCode.Universe

/-- The entry of a class. -/
def class? (u : Universe) (id : ClassId) : Option ClassInfo := u.classes[id.index]?

/-- The name a class was registered under. -/
def name? (u : Universe) (id : ClassId) : Option String := (u.class? id).map (·.name)

/-- The class that `id` derives from directly. -/
def parent? (u : Universe) (id : ClassId) : Option ClassId := (u.class? id).bind (·.parent)

/-- The class is an interface. -/
def isInterface (u : Universe) (id : ClassId) : Bool :=
  (u.class? id).any (·.kind = .interface)

/-- The primitive that values of an enumeration are. -/
def underlying? (u : Universe) (id : ClassId) : Option Primitive :=
  (u.class? id).bind fun info =>
    match info.kind with
    | .enum p => some p
    | _ => none

/-- The chain of parents that starts at `id`, cut after `limit` classes. -/
def ancestryUpTo (u : Universe) : (limit : Nat) → ClassId → List ClassId
  | 0, _ => []
  | limit + 1, id =>
      id :: match u.parent? id with
        | some parent => ancestryUpTo u limit parent
        | none => []

/-- The class itself, its parent, the parent's parent, and so on. A chain that meets no class
twice has at most one entry more than the class table, the last one without an entry there. -/
def ancestry (u : Universe) (id : ClassId) : List ClassId :=
  u.ancestryUpTo (u.classes.size + 1) id

/-- `id` is `ancestor` or derives from it. -/
def isSubclass (u : Universe) (id ancestor : ClassId) : Bool :=
  ancestor ∈ u.ancestry id

/-- The parent of a class and the interfaces it names itself. -/
def supers (u : Universe) (id : ClassId) : List ClassId :=
  match u.class? id with
  | some info => info.parent.toList ++ info.interfaces
  | none => []

/-- Searches for `target` from the classes in `frontier`, expanding only classes in `fresh`. -/
def search (u : Universe) (target : ClassId) (fresh frontier : List ClassId) : Bool :=
  match frontier with
  | [] => false
  | id :: rest =>
      if id = target then true
      else if id ∈ fresh then search u target (fresh.erase id) (u.supers id ++ rest)
      else search u target fresh rest
termination_by (fresh.length, frontier.length)
decreasing_by
  · have hpos : 0 < fresh.length := List.length_pos_of_mem ‹id ∈ fresh›
    have hlen : (fresh.erase id).length = fresh.length - 1 :=
      List.length_erase_of_mem ‹id ∈ fresh›
    exact Prod.Lex.left _ _ (by omega)
  · exact Prod.Lex.right _ (Nat.lt_succ_self _)

/-- The ids that have an entry in the class table. -/
def classIds (u : Universe) : List ClassId := (List.range u.classes.size).map ClassId.mk

/-- `interface` is reached from `id` over parents and interfaces. -/
def implements (u : Universe) (id interface : ClassId) : Bool :=
  u.search interface u.classIds [id]

/-- The method under verification may name the type. -/
def isAccessible (u : Universe) : Ty → Bool
  | .ref id | .value id => (u.class? id).any (·.accessible)
  | .array inner | .byRef inner | .pointer inner => u.isAccessible inner
  | .primitive _ | .null => true

end ManagedCode.Universe
