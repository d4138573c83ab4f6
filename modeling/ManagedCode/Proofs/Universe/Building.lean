import ManagedCode.Universe.Hierarchy

set_option autoImplicit false

/-! # Universes that are built step by step

Every universe starts as `Universe.core` and grows by extensions: a class, an interface between
two classes, a token. `Universe.BuiltBy ok` holds of the universes all of whose extensions satisfy
`ok` at the moment they are made.

What an extension does to the class table is said once (`class?_extend`). Whatever the extensions
are, the core classes keep their kinds and their parents (`Built.class?_core`). A universe is
`Orderly` if parents have smaller numbers than the classes that derive from them, interfaces derive
from nothing, and `Object` stands above all; `WellBuilt.orderly` says which extensions keep it so.
What reasoning about types needs is less, that the universe is `Rooted`, and for that it is enough
to spare `Object` (`SparesObject.rooted`).
-/

namespace ManagedCode

/-! ## Extensions -/

/-- Something that is added to a universe, or changed in it. -/
inductive Extension where
  | reference (name : String) (parent : ClassId)
  | interface (name : String)
  | value (name : String)
  | enum (name : String) (underlying : Primitive)
  | implementation (id interface : ClassId)
  | access (id : ClassId) (accessible : Bool)
  | type (ty : Ty)
  | field (field : Field)
  | method (method : Method)
  | signature (signature : Signature)
  | string (value : String)

namespace Extension

/-- The class that a new class derives from is in the class table. -/
def ParentKnown (u : Universe) : Extension → Prop
  | .reference _ parent => parent.index < u.classes.size
  | _ => True

/-- No interface is attached to `Object`. -/
def SparesObject : Extension → Prop
  | .implementation id _ => id ≠ WellKnown.object.id
  | _ => True

/-- The entry that the extension adds to the class table. -/
def entry? : Extension → Option ClassInfo
  | .reference name parent => some ⟨name, .reference, some parent, [], true⟩
  | .interface name => some ⟨name, .interface, none, [], true⟩
  | .value name => some ⟨name, .value, some WellKnown.valueType.id, [], true⟩
  | .enum name underlying => some ⟨name, .enum underlying, some WellKnown.valueType.id, [], true⟩
  | _ => none

/-- What the extension makes of the entry that a class has already. -/
def revise (e : Extension) (id : ClassId) (info : ClassInfo) : ClassInfo :=
  match e with
  | .implementation id' added =>
      if id' = id then { info with interfaces := info.interfaces ++ [added] } else info
  | .access id' accessible => if id' = id then { info with accessible := accessible } else info
  | _ => info

@[simp]
theorem parent_revise (e : Extension) (id : ClassId) (info : ClassInfo) :
    (e.revise id info).parent = info.parent := by
  unfold revise
  split
  · split <;> rfl
  · split <;> rfl
  · rfl

@[simp]
theorem kind_revise (e : Extension) (id : ClassId) (info : ClassInfo) :
    (e.revise id info).kind = info.kind := by
  unfold revise
  split
  · split <;> rfl
  · split <;> rfl
  · rfl

theorem interfaces_revise {e : Extension} (he : e.SparesObject) (info : ClassInfo) :
    (e.revise WellKnown.object.id info).interfaces = info.interfaces := by
  unfold revise
  split
  · exact congrArg ClassInfo.interfaces (if_neg he)
  · split <;> rfl
  · rfl

end Extension

namespace Universe

/-- Carries out an extension. -/
def extend (u : Universe) : Extension → Universe
  | .reference name parent => (u.addReference name parent).2
  | .interface name => (u.addInterface name).2
  | .value name => (u.addValue name).2
  | .enum name underlying => (u.addEnum name underlying).2
  | .implementation id interface => u.addImplementation id interface
  | .access id accessible => u.setAccessible id accessible
  | .type ty => (u.addType ty).2
  | .field field => (u.addField field).2
  | .method method => (u.addMethod method).2
  | .signature signature => (u.addSignature signature).2
  | .string value => (u.addString value).2

/-- The universe is made from the core classes by extensions that satisfy `ok`. -/
inductive BuiltBy (ok : Universe → Extension → Prop) : Universe → Prop
  | core : BuiltBy ok core
  | extend {u : Universe} (hu : BuiltBy ok u) (e : Extension) (he : ok u e) :
      BuiltBy ok (u.extend e)

theorem BuiltBy.mono {ok ok' : Universe → Extension → Prop} (h : ∀ u e, ok u e → ok' u e)
    {u : Universe} (hu : u.BuiltBy ok) : u.BuiltBy ok' := by
  induction hu with
  | core => exact .core
  | extend _ e he ih => exact ih.extend e (h _ e he)

/-- New classes derive from known ones, and no interface is attached to `Object`. -/
def WellBuilt (u : Universe) : Prop := u.BuiltBy fun u e => e.ParentKnown u ∧ e.SparesObject

/-- New classes derive from known ones, and interfaces are attached to anything. -/
def KnownParents (u : Universe) : Prop := u.BuiltBy fun u e => e.ParentKnown u

/-- New classes derive from any others, and no interface is attached to `Object`. -/
def SparesObject (u : Universe) : Prop := u.BuiltBy fun _ e => e.SparesObject

/-- The universe is made from the core classes by any extensions. -/
def Built (u : Universe) : Prop := u.BuiltBy fun _ _ => True

theorem WellBuilt.sparesObject {u : Universe} (hu : u.WellBuilt) : u.SparesObject :=
  BuiltBy.mono (fun _ _ h => h.2) hu

theorem WellBuilt.built {u : Universe} (hu : u.WellBuilt) : u.Built :=
  BuiltBy.mono (fun _ _ _ => trivial) hu

/-! ## The class table of an extended universe -/

theorem class?_addClass (u : Universe) (info : ClassInfo) (id : ClassId) :
    (u.addClass info).2.class? id =
      if id.index = u.classes.size then some info else u.class? id := by
  simp only [class?, addClass, Array.getElem?_push]

theorem class?_modifyClass (u : Universe) (id : ClassId) (f : ClassInfo → ClassInfo)
    (id' : ClassId) :
    (u.modifyClass id f).class? id' =
      if id.index = id'.index then (u.class? id').map f else u.class? id' := by
  simp only [class?, modifyClass, Array.getElem?_modify]

theorem index_lt_of_class? {u : Universe} {id : ClassId} {info : ClassInfo}
    (h : u.class? id = some info) : id.index < u.classes.size := by
  obtain ⟨hlt, _⟩ := Array.getElem?_eq_some_iff.mp h
  exact hlt

theorem class?_eq_none {u : Universe} {id : ClassId} (h : u.classes.size ≤ id.index) :
    u.class? id = none := Array.getElem?_eq_none h

/-- A class table grows at its end, and its other entries are revised where they are. -/
theorem class?_extend (u : Universe) (e : Extension) (id : ClassId) :
    (u.extend e).class? id =
      if id.index = u.classes.size then e.entry? else (u.class? id).map (e.revise id) := by
  -- A change finds no entry behind the last one.
  have hmodify : ∀ (id' : ClassId) (f : ClassInfo → ClassInfo),
      (u.modifyClass id' f).class? id =
        if id.index = u.classes.size then none
        else (u.class? id).map fun info => if id' = id then f info else info := by
    intro id' f
    rw [class?_modifyClass]
    by_cases hend : id.index = u.classes.size
    · simp [hend, class?_eq_none (Nat.le_of_eq hend.symm)]
    · rw [if_neg hend]
      by_cases hid : id' = id
      · simp [hid]
      · have hindex : id'.index ≠ id.index := fun h => hid (by cases id'; cases id; simp_all)
        simp [hid, hindex]
  -- Anything else leaves the other entries alone.
  have hsame : (u.class? id).map (fun info => info) = u.class? id := Option.map_id'
  cases e with
  | implementation id' interface => exact hmodify id' _
  | access id' accessible => exact hmodify id' _
  | reference | interface | value | enum =>
      exact (class?_addClass u _ id).trans (congrArg (ite _ _) hsame.symm)
  | type | field | method | signature | string =>
      show u.class? id = if id.index = u.classes.size then none else _
      by_cases hend : id.index = u.classes.size
      · rw [if_pos hend, class?_eq_none (Nat.le_of_eq hend.symm)]
      · rw [if_neg hend]
        exact hsame.symm

theorem size_le_extend (u : Universe) (e : Extension) :
    u.classes.size ≤ (u.extend e).classes.size := by
  cases e <;> simp [extend, addReference, addInterface, addValue, addEnum, addClass,
    addImplementation, setAccessible, modifyClass, addType, addField, addMethod, addSignature,
    addString]

/-- An entry of the extended table is the new one, or a revision of one that was there before. -/
theorem class?_extend_eq_some {u : Universe} {e : Extension} {id : ClassId} {info : ClassInfo}
    (h : (u.extend e).class? id = some info) :
    id.index = u.classes.size ∧ e.entry? = some info ∨
      ∃ old, u.class? id = some old ∧ info = e.revise id old := by
  rw [class?_extend] at h
  by_cases hend : id.index = u.classes.size
  · rw [if_pos hend] at h
    exact .inl ⟨hend, h⟩
  · rw [if_neg hend] at h
    obtain ⟨old, hold, heq⟩ := Option.map_eq_some_iff.mp h
    exact .inr ⟨old, hold, heq.symm⟩

/-- **The core classes keep their kinds and their parents.** -/
theorem Built.class?_core {u : Universe} (hu : u.Built) {id : ClassId}
    (h : id.index < core.classes.size) :
    ∃ entry info, core.class? id = some entry ∧ u.class? id = some info ∧
      info.kind = entry.kind ∧ info.parent = entry.parent := by
  have hcore : core.class? id = some core.classes[id.index] := Array.getElem?_eq_getElem h
  refine ⟨core.classes[id.index], ?_⟩
  induction hu with
  | core => exact ⟨_, hcore, hcore, rfl, rfl⟩
  | extend _ e _ ih =>
      obtain ⟨info, _, hinfo, hkind, hparent⟩ := ih
      refine ⟨e.revise id info, hcore, ?_, ?_, ?_⟩
      · rw [class?_extend, if_neg (Nat.ne_of_lt (index_lt_of_class? hinfo)), hinfo]
        rfl
      · rw [e.kind_revise, hkind]
      · rw [e.parent_revise, hparent]

theorem Built.parent?_object {u : Universe} (hu : u.Built) :
    u.parent? WellKnown.object.id = none := by
  have hlt : WellKnown.object.id.index < core.classes.size := by decide
  obtain ⟨entry, info, hentry, hinfo, _, hparent⟩ := hu.class?_core hlt
  cases hentry
  simp only [parent?, hinfo, Option.bind_some, hparent]
  rfl

theorem Built.isInterface_object {u : Universe} (hu : u.Built) :
    u.isInterface WellKnown.object.id = false := by
  have hlt : WellKnown.object.id.index < core.classes.size := by decide
  obtain ⟨entry, info, hentry, hinfo, hkind, _⟩ := hu.class?_core hlt
  cases hentry
  simp only [isInterface, hinfo, Option.any_some, hkind]
  rfl

end Universe

/-! ## Order among classes -/

/-- An entry in order at its place: the class derives from one before it, and from none if it is an
interface. -/
def ClassInfo.InOrder (info : ClassInfo) (place : Nat) : Prop :=
  (∀ parent, info.parent = some parent → parent.index < place) ∧
    (info.kind = .interface → info.parent = none)

/-- A revised entry stays in order. -/
theorem ClassInfo.InOrder.revise {info : ClassInfo} {place : Nat} (h : info.InOrder place)
    (e : Extension) (id : ClassId) : (e.revise id info).InOrder place := by
  unfold InOrder
  rw [e.parent_revise, e.kind_revise]
  exact h

/-- A new class is in order behind the others, if it derives from one of them. Structures and
enumerations derive from the same class of the core. -/
theorem Extension.inOrder_entry? {u : Universe} {e : Extension} (hparent : e.ParentKnown u)
    (hvalueType : WellKnown.valueType.id.index < u.classes.size) {info : ClassInfo}
    (h : e.entry? = some info) : info.InOrder u.classes.size := by
  cases e with
  | reference name parent =>
      cases h
      exact ⟨fun _ hp => Option.some.inj hp ▸ hparent, fun hkind => nomatch hkind⟩
  | interface name =>
      cases h
      exact ⟨fun _ hp => (nomatch hp), fun _ => rfl⟩
  | value name | enum name underlying =>
      cases h
      exact ⟨fun _ hp => Option.some.inj hp ▸ hvalueType, fun hkind => nomatch hkind⟩
  | _ => cases h

namespace Universe

/-- The class table is in order, and `Object` derives from nothing and implements nothing. -/
structure Orderly (u : Universe) : Prop where
  inOrder : ∀ id info, u.class? id = some info → info.InOrder id.index
  object_supers : u.supers WellKnown.object.id = []
  /-- The base class of value types is in the table. -/
  valueType_lt : WellKnown.valueType.id.index < u.classes.size

theorem orderly_core : core.Orderly := by
  refine ⟨?_, by rfl, by decide⟩
  have key : ∀ i : Fin core.classes.size,
      (∀ parent ∈ core.classes[i].parent, parent.index < i) ∧
        (core.classes[i].kind = .interface → core.classes[i].parent = none) := by
    decide
  intro id info hinfo
  obtain ⟨hlt, rfl⟩ := Array.getElem?_eq_some_iff.mp hinfo
  exact key ⟨id.index, hlt⟩

/-- An extension that spares `Object` attaches nothing to it. -/
theorem supers_object_extend {u : Universe} (hobject : WellKnown.object.id.index < u.classes.size)
    {e : Extension} (he : e.SparesObject) :
    (u.extend e).supers WellKnown.object.id = u.supers WellKnown.object.id := by
  unfold supers
  rw [class?_extend, if_neg (Nat.ne_of_lt hobject)]
  cases u.class? WellKnown.object.id with
  | none => rfl
  | some info => simp only [Option.map_some, e.parent_revise, Extension.interfaces_revise he]

/-- Extensions that name known parents keep the entries in order. -/
theorem inOrder_extend {u : Universe}
    (hu : ∀ id info, u.class? id = some info → info.InOrder id.index)
    (hvalueType : WellKnown.valueType.id.index < u.classes.size) (e : Extension)
    (hparent : e.ParentKnown u) (id : ClassId) (info : ClassInfo)
    (hinfo : (u.extend e).class? id = some info) : info.InOrder id.index := by
  rcases class?_extend_eq_some hinfo with ⟨hend, hentry⟩ | ⟨old, hold, rfl⟩
  · rw [hend]
    exact Extension.inOrder_entry? hparent hvalueType hentry
  · exact (hu id old hold).revise e id

/-- Extensions that name known parents and spare `Object` keep the class table in order. -/
theorem orderly_extend {u : Universe} (hu : u.Orderly) (e : Extension)
    (hparent : e.ParentKnown u) (hobject : e.SparesObject) : (u.extend e).Orderly where
  inOrder := inOrder_extend hu.inOrder hu.valueType_lt e hparent
  object_supers := by
    have hlt : WellKnown.object.id.index < u.classes.size :=
      Nat.lt_of_le_of_lt (Nat.zero_le _) hu.valueType_lt
    exact (supers_object_extend hlt hobject).trans hu.object_supers
  valueType_lt := Nat.lt_of_lt_of_le hu.valueType_lt (size_le_extend u e)

/-- **A universe that is built with known parents, and with nothing attached to `Object`, is in
order.** -/
theorem WellBuilt.orderly {u : Universe} (hu : u.WellBuilt) : u.Orderly := by
  induction hu with
  | core => exact orderly_core
  | extend _ e he ih => exact orderly_extend ih e he.1 he.2

theorem KnownParents.inOrder {u : Universe} (hu : u.KnownParents) :
    (∀ id info, u.class? id = some info → info.InOrder id.index) ∧
      WellKnown.valueType.id.index < u.classes.size := by
  induction hu with
  | core => exact ⟨orderly_core.inOrder, orderly_core.valueType_lt⟩
  | extend _ e he ih =>
      exact ⟨inOrder_extend ih.1 ih.2 e he, Nat.lt_of_lt_of_le ih.2 (size_le_extend _ e)⟩

/-- **Parents have smaller numbers** in a universe that is built with known parents, whatever
interfaces are attached in it. -/
theorem KnownParents.parent_lt {u : Universe} (hu : u.KnownParents) (id parent : ClassId)
    (h : u.parent? id = some parent) : parent.index < id.index := by
  obtain ⟨info, hinfo, hparent⟩ := Option.bind_eq_some_iff.mp h
  exact (hu.inOrder.1 id info hinfo).1 parent hparent

/-- A universe with a base class, `⟨22⟩`, and two classes that derive from it. -/
def zoo : Universe :=
  ((core.extend (.reference "Animal" WellKnown.object.id)).extend (.reference "Dog" ⟨22⟩)).extend
    (.reference "Cat" ⟨22⟩)

theorem wellBuilt_zoo : zoo.WellBuilt := by
  have hanimal : (0 : Nat) < 22 := by decide
  have hdog : (22 : Nat) < 23 := by decide
  have hcat : (22 : Nat) < 24 := by decide
  exact .extend (.extend (.extend .core _ ⟨hanimal, trivial⟩) _ ⟨hdog, trivial⟩) _
    ⟨hcat, trivial⟩

/-! ## The root of the hierarchy -/

/-- Nothing stands above `Object`, and interfaces derive from nothing. -/
structure Rooted (u : Universe) : Prop where
  object_supers : u.supers WellKnown.object.id = []
  interface_parent : ∀ id info, u.class? id = some info → info.kind = .interface →
    info.parent = none

theorem Rooted.parent?_interface {u : Universe} (hu : u.Rooted) {id : ClassId}
    (h : u.isInterface id = true) : u.parent? id = none := by
  unfold isInterface at h
  unfold parent?
  cases hinfo : u.class? id with
  | none => rfl
  | some info =>
      rw [hinfo] at h
      exact hu.interface_parent id info hinfo (by simpa using h)

theorem Orderly.rooted {u : Universe} (hu : u.Orderly) : u.Rooted :=
  ⟨hu.object_supers, fun id info hinfo => (hu.inOrder id info hinfo).2⟩

/-- An extension that spares `Object` leaves it at the root, whatever new classes derive from. -/
theorem rooted_extend {u : Universe} (hu : u.Rooted)
    (hobject : WellKnown.object.id.index < u.classes.size) (e : Extension)
    (he : e.SparesObject) : (u.extend e).Rooted where
  object_supers := (supers_object_extend hobject he).trans hu.object_supers
  interface_parent := by
    intro id info hinfo hkind
    rcases class?_extend_eq_some hinfo with ⟨_, hentry⟩ | ⟨old, hold, rfl⟩
    · cases e <;> cases hentry <;> first | rfl | cases hkind
    · rw [e.kind_revise] at hkind
      rw [e.parent_revise]
      exact hu.interface_parent id old hold hkind

/-- **A universe in which no interface is attached to `Object` has `Object` at its root**, in
whatever order its classes were added. -/
theorem SparesObject.rooted {u : Universe} (hu : u.SparesObject) : u.Rooted := by
  have hboth : u.Rooted ∧ WellKnown.object.id.index < u.classes.size := by
    induction hu with
    | core => exact ⟨orderly_core.rooted, by decide⟩
    | extend _ e he ih =>
        exact ⟨rooted_extend ih.1 ih.2 e he, Nat.lt_of_lt_of_le ih.2 (size_le_extend _ e)⟩
  exact hboth.1

end Universe

end ManagedCode
