import ManagedCode.LabelStore
import ManagedCode.Proofs.Typing.Subtyping
import Mathlib.Data.List.Forall2

set_option autoImplicit false

/-! # Agreement of stacks at a label

Two relations between slots. `Slot.Fits u a b`: control may arrive with `a` where `b` is recorded.
`Slot.Widens u a b`: a recorded slot `a` may be replaced by `b`, which only object slots are, by a
type that takes all their objects. What fits keeps fitting when the record widens
(`Slot.Fits.widens`); that needs subtyping to be transitive, and so a rooted universe.

`Slots.unify` is described through these relations: it widens what is recorded, what arrived fits
the outcome when all slots agree, and what fits already changes nothing.
-/

namespace ManagedCode

open List (Forall₂)

/-! ## Relations between slots -/

namespace Slot

/-- An object slot holds a reference type. -/
def Typed (slot : Slot) : Prop := slot.kind = .object → slot.ty.any Ty.isReference = true

/-- Control may arrive with `a` where `b` is recorded: the kinds are the same, objects are of a
subtype, and pointers and values are of the same type. -/
def Fits (u : Universe) (a b : Slot) : Prop :=
  a.kind = b.kind ∧
    match a.kind with
    | .object => Universe.bothKnown u.objectAssignable a.ty b.ty = true
    | .managed | .transient | .value => a.ty = b.ty
    | _ => True

/-- A recorded slot `a` may be replaced by `b`: they are the same, or objects of a type and a
supertype of it. -/
def Widens (u : Universe) (a b : Slot) : Prop :=
  a = b ∨ a.kind = .object ∧ b.kind = .object ∧
    Universe.bothKnown u.objectAssignable a.ty b.ty = true

theorem Typed.exists_ty {slot : Slot} (h : slot.Typed) (hkind : slot.kind = .object) :
    ∃ ty, slot.ty = some ty ∧ ty.isReference = true := by
  have hany := h hkind
  cases hty : slot.ty with
  | none => simp [hty] at hany
  | some ty =>
      rw [hty] at hany
      exact ⟨ty, rfl, hany⟩

theorem typed_object {ty : Ty} (h : ty.isReference = true) : (object ty).Typed := fun _ => h

theorem bothKnown_iff {p : Ty → Ty → Bool} {a b : Option Ty} :
    Universe.bothKnown p a b = true ↔ ∃ s t, a = some s ∧ b = some t ∧ p s t = true := by
  cases a <;> cases b <;> simp [Universe.bothKnown]

theorem bothKnown_trans {p : Ty → Ty → Bool} {a b c : Option Ty}
    (hab : Universe.bothKnown p a b = true) (hbc : Universe.bothKnown p b c = true)
    (hp : ∀ {a b c : Ty}, p a b = true → p b c = true → p a c = true) :
    Universe.bothKnown p a c = true := by
  rw [bothKnown_iff] at hab hbc ⊢
  obtain ⟨s, t, rfl, rfl, hst⟩ := hab
  obtain ⟨t', r, ht, rfl, htr⟩ := hbc
  cases ht
  exact ⟨s, r, rfl, rfl, hp hst htr⟩

theorem Fits.refl (u : Universe) {slot : Slot} (h : slot.Typed) : slot.Fits u slot := by
  refine ⟨rfl, ?_⟩
  cases hkind : slot.kind with
  | object =>
      obtain ⟨ty, hty, _⟩ := h.exists_ty hkind
      exact bothKnown_iff.mpr ⟨ty, ty, hty, hty, u.objectAssignable_refl ty⟩
  | managed | transient | value => rfl
  | _ => trivial

theorem Widens.refl (u : Universe) (slot : Slot) : slot.Widens u slot := .inl rfl

theorem Widens.trans {u : Universe} (hu : u.Orderly) {a b c : Slot} (hab : a.Widens u b)
    (hbc : b.Widens u c) : a.Widens u c := by
  rcases hab with rfl | ⟨ha, hb, hab⟩
  · exact hbc
  · rcases hbc with rfl | ⟨_, hc, hbc⟩
    · exact .inr ⟨ha, hb, hab⟩
    · exact .inr ⟨ha, hc, bothKnown_trans hab hbc hu.rooted.objectAssignable_trans⟩

/-- What fits a record fits what the record widens to. -/
theorem Fits.widens {u : Universe} (hu : u.Orderly) {a b c : Slot} (hab : a.Fits u b)
    (hbc : b.Widens u c) : a.Fits u c := by
  rcases hbc with rfl | ⟨hb, hc, hbc⟩
  · exact hab
  · obtain ⟨hkind, hty⟩ := hab
    have ha : a.kind = .object := hkind.trans hb
    refine ⟨ha.trans hc.symm, ?_⟩
    rw [ha] at hty ⊢
    exact bothKnown_trans hty hbc hu.rooted.objectAssignable_trans

/-! ## Agreement of two slots -/

/-- What fits changes nothing, whether or not the label may still widen. -/
theorem unify?_of_fits {u : Universe} {recorded incoming : Slot} (h : incoming.Fits u recorded)
    (frozen : Bool) : recorded.unify? u frozen incoming = some recorded := by
  obtain ⟨hkind, hty⟩ := h
  unfold unify?
  rw [if_pos hkind.symm]
  rw [hkind] at hty
  cases hrecorded : recorded.kind with
  | object =>
      rw [hrecorded] at hty
      obtain ⟨s, t, hs, ht, hst⟩ := bothKnown_iff.mp hty
      simp [hs, ht, hst]
  | managed | transient | value =>
      rw [hrecorded] at hty
      exact if_pos hty.symm
  | _ => rfl

/-- The three ways in which slots agree: what is recorded stays, as objects of a subtype or as
anything else arrive, or it widens, if it may, to a common ancestor. -/
theorem unify?_cases {u : Universe} {frozen : Bool} {recorded incoming slot : Slot}
    (h : recorded.unify? u frozen incoming = some slot) (hrecorded : recorded.Typed)
    (hincoming : incoming.Typed) :
    slot = recorded ∧ incoming.Fits u recorded ∨
      frozen = false ∧ ∃ known arriving, recorded = object known ∧ incoming = object arriving ∧
        known.isReference = true ∧ arriving.isReference = true ∧
        slot = object (u.commonAncestor known arriving) := by
  unfold unify? at h
  split at h
  · rename_i hkind
    cases hk : recorded.kind with
    | object =>
        obtain ⟨known, hknown, href⟩ := hrecorded.exists_ty hk
        obtain ⟨arriving, harriving, href'⟩ := hincoming.exists_ty (hkind.symm.trans hk)
        simp only [hk, hknown, harriving] at h
        split at h
        · rename_i hfits
          cases h
          refine .inl ⟨rfl, hkind.symm, ?_⟩
          rw [← hkind, hk]
          refine bothKnown_iff.mpr ⟨arriving, known, harriving, hknown, ?_⟩
          rw [Bool.or_eq_true] at hfits
          rcases hfits with hnull | hsub
          · have : arriving = .null := by simpa [isNull, ← hkind, hk, harriving] using hnull
            rw [this, Universe.objectAssignable_null]
            exact href
          · exact hsub
        · split at h
          · cases h
          · rename_i hfrozen
            cases h
            refine .inr ⟨by simpa using hfrozen, known, arriving, ?_, ?_, href, href', rfl⟩
            · cases recorded
              simp_all [object]
            · cases incoming
              simp_all [object]
    | managed | transient | value =>
        simp only [hk] at h
        split at h
        · rename_i hty
          cases h
          exact .inl ⟨rfl, hkind.symm, by rw [← hkind, hk]; exact hty.symm⟩
        · cases h
    | _ =>
        simp only [hk] at h
        cases h
        exact .inl ⟨rfl, hkind.symm, by rw [← hkind, hk]; trivial⟩
  · cases h

/-- The slot to record takes what was recorded and what arrives. -/
theorem unify?_spec {u : Universe} {frozen : Bool} {recorded incoming slot : Slot}
    (h : recorded.unify? u frozen incoming = some slot) (hrecorded : recorded.Typed)
    (hincoming : incoming.Typed) :
    recorded.Widens u slot ∧ incoming.Fits u slot ∧ slot.Typed := by
  rcases unify?_cases h hrecorded hincoming with ⟨rfl, hfits⟩ |
    ⟨_, known, arriving, rfl, rfl, href, href', rfl⟩
  · exact ⟨.refl u slot, hfits, hrecorded⟩
  · obtain ⟨hknown, harriving⟩ := u.objectAssignable_commonAncestor href href'
    refine ⟨.inr ⟨rfl, rfl, hknown⟩, ⟨rfl, harriving⟩, typed_object ?_⟩
    exact u.isReference_commonAncestor href href'

/-- What slots that agree pass on to the slot that is recorded for them. -/
def Unifies (u : Universe) (P : Slot → Prop) : Prop :=
  ∀ ⦃frozen : Bool⦄ ⦃recorded incoming slot : Slot⦄,
    recorded.unify? u frozen incoming = some slot → P recorded → P incoming → P slot

theorem unifies_typed (u : Universe) : Unifies u Typed := by
  intro frozen recorded incoming slot h hrecorded hincoming
  exact (unify?_spec h hrecorded hincoming).2.2

/-- A label that may not widen stays as it is. -/
theorem unify?_frozen {u : Universe} {recorded incoming slot : Slot}
    (h : recorded.unify? u true incoming = some slot) : slot = recorded := by
  unfold unify? at h
  grind

end Slot

/-! ## Agreement of two stacks -/

namespace Slots

/-- All object slots hold reference types. -/
def Typed (slots : Slots) : Prop := ∀ slot ∈ slots, slot.Typed

/-- Control may arrive with `incoming` where `recorded` is expected: the heights are the same, and
each slot fits. -/
def Fit (u : Universe) (incoming recorded : Slots) : Prop :=
  Forall₂ (Slot.Fits u) incoming recorded

/-- A snapshot may be replaced by another, slot by slot. -/
def Widen (u : Universe) (before after : Slots) : Prop := Forall₂ (Slot.Widens u) before after

theorem typed_nil : Typed [] := by
  intro slot h
  cases h

theorem typed_cons {slot : Slot} {slots : Slots} :
    Typed (slot :: slots) ↔ slot.Typed ∧ Typed slots := List.forall_mem_cons

theorem Fit.refl (u : Universe) {slots : Slots} (h : Typed slots) : Fit u slots slots :=
  List.forall₂_same.mpr fun slot hslot => Slot.Fits.refl u (h slot hslot)

theorem Widen.refl (u : Universe) (slots : Slots) : Widen u slots slots :=
  List.forall₂_same.mpr fun slot _ => Slot.Widens.refl u slot

theorem Widen.trans {u : Universe} (hu : u.Orderly) {a b c : Slots} (hab : Widen u a b)
    (hbc : Widen u b c) : Widen u a c := by
  induction hab generalizing c with
  | nil => exact hbc
  | cons hslot _ ih =>
      cases hbc with
      | cons hslot' hrest => exact .cons (hslot.trans hu hslot') (ih hrest)

theorem Fit.widen {u : Universe} (hu : u.Orderly) {a b c : Slots} (hab : Fit u a b)
    (hbc : Widen u b c) : Fit u a c := by
  induction hab generalizing c with
  | nil =>
      cases hbc
      exact .nil
  | cons hslot _ ih =>
      cases hbc with
      | cons hslot' hrest => exact .cons (hslot.widens hu hslot') (ih hrest)

/-- What fits changes nothing. -/
theorem unify_of_fit {u : Universe} {recorded incoming : Slots} (h : Fit u incoming recorded)
    (frozen : Bool) : unify u frozen recorded incoming = (recorded, true) := by
  induction h with
  | nil => rfl
  | cons hslot _ ih => simp only [unify, ih, Slot.unify?_of_fits hslot]

theorem unify_frozen (u : Universe) (recorded incoming : Slots) :
    (unify u true recorded incoming).1 = recorded := by
  induction recorded generalizing incoming with
  | nil => simp [unify]
  | cons slot recorded ih =>
      cases incoming with
      | nil => simp [unify]
      | cons arriving incoming =>
          have hbelow := ih incoming
          unfold unify
          split
          · rename_i below heq
            rw [heq] at hbelow
            simp [← hbelow]
          · rename_i below heq
            rw [heq] at hbelow
            cases hslot : slot.unify? u true arriving with
            | none => simp [← hbelow]
            | some slot' =>
                rw [Slot.unify?_frozen hslot]
                simp [← hbelow]

/-- Unification keeps what slots that agree pass on, also where it stops at a slot that does not
agree. -/
theorem unify_all {u : Universe} {P : Slot → Prop} (hP : Slot.Unifies u P) (frozen : Bool)
    {recorded incoming : Slots} (hrecorded : ∀ slot ∈ recorded, P slot)
    (hincoming : ∀ slot ∈ incoming, P slot) :
    ∀ slot ∈ (unify u frozen recorded incoming).1, P slot := by
  induction recorded generalizing incoming with
  | nil =>
      rw [unify.eq_def]
      exact hrecorded
  | cons slot recorded ih =>
      cases incoming with
      | nil =>
          rw [unify.eq_def]
          exact hrecorded
      | cons arriving incoming =>
          obtain ⟨hslot, hrecorded⟩ := List.forall_mem_cons.mp hrecorded
          obtain ⟨harriving, hincoming⟩ := List.forall_mem_cons.mp hincoming
          have hbelow := ih hrecorded hincoming
          rw [unify]
          split
          · rename_i below heq
            rw [heq] at hbelow
            exact List.forall_mem_cons.mpr ⟨hslot, hbelow⟩
          · rename_i below heq
            rw [heq] at hbelow
            cases hunify : slot.unify? u frozen arriving with
            | none => exact List.forall_mem_cons.mpr ⟨hslot, hbelow⟩
            | some slot' =>
                exact List.forall_mem_cons.mpr ⟨hP hunify hslot harriving, hbelow⟩

/-- **Unification widens the record**, also where it stops at a slot that does not agree, and what
arrived fits the outcome where all slots agree. -/
theorem unify_spec {u : Universe} (frozen : Bool) {recorded incoming : Slots}
    (hrecorded : Typed recorded) (hincoming : Typed incoming) :
    Widen u recorded (unify u frozen recorded incoming).1 ∧
      Typed (unify u frozen recorded incoming).1 ∧
      (recorded.length = incoming.length → (unify u frozen recorded incoming).2 = true →
        Fit u incoming (unify u frozen recorded incoming).1) := by
  refine and_left_comm.mp ⟨unify_all (Slot.unifies_typed u) frozen hrecorded hincoming, ?_⟩
  induction recorded generalizing incoming with
  | nil =>
      rw [unify.eq_def]
      refine ⟨.nil, fun hlength _ => ?_⟩
      rw [List.eq_nil_of_length_eq_zero hlength.symm]
      exact .nil
  | cons slot recorded ih =>
      cases incoming with
      | nil =>
          rw [unify.eq_def]
          exact ⟨.refl u _, fun hlength _ => nomatch hlength⟩
      | cons arriving incoming =>
          obtain ⟨hslot, hrecorded⟩ := typed_cons.mp hrecorded
          obtain ⟨harriving, hincoming⟩ := typed_cons.mp hincoming
          obtain ⟨hwiden, hfit⟩ := ih hrecorded hincoming
          rw [unify]
          -- Slots below come first: where they disagree, this slot stays as it is.
          split
          · rename_i below heq
            rw [heq] at hwiden
            exact ⟨.cons (.refl u slot) hwiden, fun _ h => nomatch h⟩
          · rename_i below heq
            rw [heq] at hwiden hfit
            cases hunify : slot.unify? u frozen arriving with
            | none => exact ⟨.cons (.refl u slot) hwiden, fun _ h => nomatch h⟩
            | some slot' =>
                obtain ⟨hwidens, hfits, _⟩ := Slot.unify?_spec hunify hslot harriving
                refine ⟨.cons hwidens hwiden, ?_⟩
                intro hlength _
                exact .cons hfits (hfit (by simpa using hlength) rfl)

end Slots

end ManagedCode
