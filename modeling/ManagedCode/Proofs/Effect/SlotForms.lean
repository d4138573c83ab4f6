import ManagedCode.Proofs.Effect.Slots
import ManagedCode.Proofs.Labels.Agreement
import ManagedCode.Proofs.Universe.Building

set_option autoImplicit false

/-! # The form of a slot

The kind of a slot says what its precise type can be: numbers have none, objects have a reference
type, pointers have the type behind them, and values are typed references or structures. A value of
an enumeration is a number on the stack, so an enumeration is never the type of a value slot.

Every slot that an operation makes has this form (`madeSlots_wellFormed`), and so has the slot that
is recorded where two of them meet (`Slot.unifies_wellFormed`). The universe only has to have
enumerations of numbers, and it keeps the core classes as they are, however it is extended: the
handles that tokens become are structures (`Universe.Built.underlying?_handle`).
-/

namespace ManagedCode

/-! ## Enumerations in a universe -/

namespace Universe

/-- The core classes stay what they are. -/
theorem Built.underlying?_core {u : Universe} (hu : u.Built) {id : ClassId}
    (h : id.index < core.classes.size) : u.underlying? id = core.underlying? id := by
  obtain ⟨entry, info, hentry, hinfo, hkind, _⟩ := hu.class?_core h
  simp only [underlying?, hentry, hinfo, Option.bind_some, hkind]

/-- Handles are structures. -/
theorem Built.underlying?_handle {u : Universe} (hu : u.Built) :
    ∀ c ∈ [WellKnown.typeHandle, .fieldHandle, .methodHandle, .argumentHandle],
      u.underlying? c.id = none := by
  have hcore : ∀ c ∈ [WellKnown.typeHandle, .fieldHandle, .methodHandle, .argumentHandle],
      c.id.index < core.classes.size ∧ core.underlying? c.id = none := by
    decide
  intro c hc
  obtain ⟨hlt, hnone⟩ := hcore c hc
  exact (hu.underlying?_core hlt).trans hnone

/-- A zoo with an enumeration of bytes, `⟨25⟩`. -/
def paintedZoo : Universe := zoo.extend (.enum "Colour" .uint8)

theorem built_paintedZoo : paintedZoo.Built := wellBuilt_zoo.built.extend _ trivial

theorem underlying?_paintedZoo (id : ClassId) (p : Primitive)
    (h : paintedZoo.underlying? id = some p) : p ≠ .void ∧ p ≠ .typedRef := by
  have hall : ∀ i : Fin paintedZoo.classes.size, ∀ p ∈ paintedZoo.underlying? ⟨i⟩,
      p ≠ .void ∧ p ≠ .typedRef := by
    decide +kernel
  obtain ⟨info, hinfo, _⟩ := Option.bind_eq_some_iff.mp h
  exact hall ⟨id.index, index_lt_of_class? hinfo⟩ p h

end Universe

/-! ## Well-formed slots -/

namespace Slot

/-- The precise type of the slot goes with its kind. -/
inductive WellFormed (u : Universe) : Slot → Prop
  /-- A number has no precise type. -/
  | numeric {kind : StackKind} (h : kind.isNumeric = true) : WellFormed u ⟨kind, none⟩
  /-- An object is of a class or of an array type, or null. -/
  | object {ty : Ty} (h : ty.isReference = true) : WellFormed u ⟨.object, some ty⟩
  /-- A pointer has the type behind it. -/
  | managed (pointee : Ty) : WellFormed u ⟨.managed, some pointee⟩
  | transient (pointee : Ty) : WellFormed u ⟨.transient, some pointee⟩
  | typedRef : WellFormed u ⟨.value, some (.primitive .typedRef)⟩
  /-- Any other value is of a structure, and not of an enumeration. -/
  | value {id : ClassId} (h : u.underlying? id = none) : WellFormed u ⟨.value, some (.value id)⟩

theorem WellFormed.typed {u : Universe} {slot : Slot} (h : slot.WellFormed u) : slot.Typed := by
  intro hkind
  cases h with
  | numeric h =>
      subst hkind
      cases h
  | object h => exact h
  | managed | transient | typedRef | value => cases hkind

/-- Where two slots meet, what was recorded stays or becomes another object. -/
theorem unifies_wellFormed (u : Universe) : Unifies u (WellFormed u) := by
  intro frozen recorded incoming slot h hrecorded hincoming
  rcases unify?_cases h hrecorded.typed hincoming.typed with
    ⟨rfl, _⟩ | ⟨_, known, arriving, _, _, href, href', rfl⟩
  · exact hrecorded
  · exact .object (u.isReference_commonAncestor href href')

end Slot

theorem Primitive.isNumeric_kind {p : Primitive} (h : p ≠ .void ∧ p ≠ .typedRef) :
    p.kind.isNumeric = true := by
  obtain ⟨hvoid, htypedRef⟩ := h
  cases p <;> first | rfl | contradiction

/-- The slot for a value of a type is well formed, if enumerations are of numbers. -/
theorem Universe.slot?_wellFormed {u : Universe}
    (henums : ∀ id p, u.underlying? id = some p → p ≠ .void ∧ p ≠ .typedRef) {ty : Ty}
    {slot : Slot} (h : u.slot? ty = some slot) : slot.WellFormed u := by
  cases ty with
  | primitive p =>
      cases p with
      | void => cases h
      | typedRef =>
          cases h
          exact .typedRef
      | _ =>
          cases h
          exact .numeric rfl
  | ref id | array element | null =>
      cases h
      exact .object rfl
  | value id =>
      simp only [slot?] at h
      split at h
      · rename_i p hp
        cases h
        exact .numeric (Primitive.isNumeric_kind (henums id p hp))
      · rename_i hnone
        cases h
        exact .value hnone
  | byRef pointee =>
      cases h
      exact .managed pointee
  | pointer pointee =>
      cases h
      exact .transient pointee

/-- **Every slot that an operation makes is well formed**, in a universe whose enumerations are of
numbers. -/
theorem madeSlots_wellFormed {u : Universe} (hu : u.Built)
    (henums : ∀ id p, u.underlying? id = some p → p ≠ .void ∧ p ≠ .typedRef) :
    MadeSlots u (Slot.WellFormed u) where
  numeric _ := .numeric
  ofType _ _ := Universe.slot?_wellFormed henums
  object _ := .object
  managed := .managed
  transient := .transient
  typedRef := .typedRef
  handle c hc := .value (hu.underlying?_handle c hc)

end ManagedCode
