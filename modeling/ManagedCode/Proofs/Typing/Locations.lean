import ManagedCode.Proofs.Effect.SlotForms

set_option autoImplicit false

/-! # Locations and safe assignment

Three notions of agreement meet here: types that share their locations (`sameLocation`), objects of
a subtype (`objectAssignable`), and slots whose values may be stored where others are expected
(`slotAssignable`, without raw pointers). The first is an equivalence, the others are preorders, and
they fit together: types that share their locations have slots that can be stored as each other
(`slot?_of_sameLocation`).

The link is that `slot?` commutes with reduction. A type and its reduced form have slots of one
kind, whose precise types reduce to the same, and between well-formed slots of that sort everything
can be stored. It needs enumerations of numbers, since a value of an enumeration is a number on the
stack.
-/

namespace ManagedCode

/-! ## Reduction -/

@[simp]
theorem Primitive.reduce_reduce (p : Primitive) : p.reduce.reduce = p.reduce := by
  cases p <;> rfl

namespace Universe

/-- A reduced type cannot be reduced further, whatever enumerations it was over. -/
@[simp]
theorem reduce_reduce (u : Universe) (ty : Ty) : u.reduce (u.reduce ty) = u.reduce ty := by
  induction ty with
  | primitive p => simp [reduce]
  | value id =>
      cases hid : u.underlying? id with
      | none => simp [reduce, hid]
      | some p => simp [reduce, hid]
  | array element ih => simp [reduce, ih]
  | byRef pointee ih => simp [reduce, ih]
  | pointer pointee ih => simp [reduce, ih]
  | ref id => rfl
  | null => rfl

theorem sameLocation_equivalence (u : Universe) :
    Equivalence fun a b => u.sameLocation a b = true where
  refl a := (u.sameLocation_iff a a).mpr rfl
  symm h := (u.sameLocation_iff _ _).mpr ((u.sameLocation_iff _ _).mp h).symm
  trans := sameLocation_trans

/-- Reference types that share their locations take each other's objects. -/
theorem objectAssignable_of_sameLocation {u : Universe} {a b : Ty} (ha : a.isReference = true)
    (h : u.sameLocation a b = true) : u.objectAssignable a b = true := by
  induction a generalizing b with
  | null => exact (objectAssignable_null u b).trans ((isReference_of_sameLocation h).symm.trans ha)
  | ref id =>
      have hb : b.isReference = true := (isReference_of_sameLocation h).symm.trans ha
      rw [sameLocation_iff] at h
      cases b with
      | ref id' =>
          cases h
          exact objectAssignable_refl u _
      | array | null => cases h
      | _ => cases hb
  | array element ih =>
      have hb : b.isReference = true := (isReference_of_sameLocation h).symm.trans ha
      rw [sameLocation_iff] at h
      cases b with
      | array element' =>
          have helement : u.sameLocation element element' = true := by
            rw [sameLocation_iff]
            simpa [reduce] using h
          refine (objectAssignable_array_array u _ _).mpr ?_
          by_cases href : element.isReference = true ∧ element'.isReference = true
          · exact .inl ⟨href.1, href.2, ih href.1 helement⟩
          · exact .inr ⟨href, helement⟩
      | ref | null => cases h
      | _ => cases hb
  | _ => cases ha

/-! ## Storing slots -/

section SafeAssignment

variable {u : Universe} {a b c : Slot}

/-- Without raw pointers, values are stored as values of their own kind: numbers always, objects of
a subtype, values of the very type, and pointers to the same location. -/
theorem slotAssignable_safe_iff :
    u.slotAssignable a b false = true ↔
      a.kind = b.kind ∧
        match a.kind with
        | .int32 | .int64 | .nativeInt | .float => True
        | .object => bothKnown u.objectAssignable a.ty b.ty = true
        | .value => a.ty = b.ty
        | .managed | .transient => bothKnown u.sameLocation a.ty b.ty = true
        | .invalid => False := by
  unfold slotAssignable
  by_cases hkind : a.kind = b.kind
  · rw [if_pos hkind, and_iff_right hkind]
    cases a.kind <;> simp
  · simp [hkind]

theorem Rooted.slotAssignable_safe_trans (hu : u.Rooted)
    (hab : u.slotAssignable a b false = true) (hbc : u.slotAssignable b c false = true) :
    u.slotAssignable a c false = true := by
  rw [slotAssignable_safe_iff] at hab hbc ⊢
  obtain ⟨hkind, hab⟩ := hab
  obtain ⟨hkind', hbc⟩ := hbc
  refine ⟨hkind.trans hkind', ?_⟩
  rw [← hkind] at hbc
  cases hk : a.kind with
  | object =>
      rw [hk] at hab hbc
      exact Slot.bothKnown_trans hab hbc hu.objectAssignable_trans
  | managed | transient =>
      rw [hk] at hab hbc
      exact Slot.bothKnown_trans hab hbc sameLocation_trans
  | value =>
      rw [hk] at hab hbc
      exact Eq.trans hab hbc
  | invalid =>
      rw [hk] at hab
      exact hab
  | _ => trivial

end SafeAssignment

end Universe

/-! ## Slots of types that share their locations -/

namespace Slot

variable {u : Universe} {a b : Slot}

/-- The slot over the reduced form of its precise type. -/
def reduce (u : Universe) (slot : Slot) : Slot := ⟨slot.kind, slot.ty.map u.reduce⟩

theorem WellFormed.kind_ne_invalid (h : a.WellFormed u) : a.kind ≠ .invalid := by
  intro hkind
  cases h with
  | numeric hnumeric =>
      subst hkind
      cases hnumeric
  | _ => cases hkind

theorem WellFormed.exists_ty (h : a.WellFormed u) (hkind : a.kind.isNumeric = false) :
    ∃ ty, a.ty = some ty := by
  cases h with
  | numeric hnumeric => exact absurd (hkind.symm.trans hnumeric) (by decide)
  | _ => exact ⟨_, rfl⟩

/-- The type of a value is no enumeration, and so it is reduced. -/
theorem WellFormed.reduce_value (h : a.WellFormed u) (hkind : a.kind = .value) :
    a.reduce u = a := by
  cases h with
  | numeric hnumeric =>
      subst hkind
      cases hnumeric
  | typedRef => rfl
  | value hstructure => simp [reduce, Universe.reduce, hstructure]
  | _ => cases hkind

/-- Slots that differ in nothing that reduction keeps can be stored as each other. -/
theorem WellFormed.slotAssignable (ha : a.WellFormed u) (hb : b.WellFormed u)
    (h : a.reduce u = b.reduce u) : u.slotAssignable a b false = true := by
  obtain ⟨hkind, hty⟩ : a.kind = b.kind ∧ a.ty.map u.reduce = b.ty.map u.reduce := by
    simpa [reduce] using h
  have hshared : a.kind.isNumeric = false → ∃ s t, a.ty = some s ∧ b.ty = some t ∧
      u.sameLocation s t = true := by
    intro hnumeric
    obtain ⟨s, hs⟩ := ha.exists_ty hnumeric
    obtain ⟨t, ht⟩ := hb.exists_ty (hkind ▸ hnumeric)
    rw [hs, ht] at hty
    exact ⟨s, t, hs, ht, (u.sameLocation_iff s t).mpr (Option.some.inj hty)⟩
  refine Universe.slotAssignable_safe_iff.mpr ⟨hkind, ?_⟩
  cases hk : a.kind with
  | object =>
      obtain ⟨s, t, hs, ht, hst⟩ := hshared (by rw [hk]; rfl)
      have href : s.isReference = true := by
        have hany := ha.typed hk
        rwa [hs] at hany
      exact bothKnown_iff.mpr ⟨s, t, hs, ht, Universe.objectAssignable_of_sameLocation href hst⟩
  | managed | transient => exact bothKnown_iff.mpr (hshared (by rw [hk]; rfl))
  | value =>
      rw [ha.reduce_value hk, hb.reduce_value (hkind ▸ hk)] at h
      exact congrArg ty h
  | invalid => exact ha.kind_ne_invalid hk
  | _ => trivial

end Slot

namespace Universe

variable {u : Universe}

/-- Reducing a type reduces its slot. -/
theorem slot?_reduce (henums : ∀ id p, u.underlying? id = some p → p ≠ .void ∧ p ≠ .typedRef)
    (ty : Ty) : u.slot? (u.reduce ty) = (u.slot? ty).map (Slot.reduce u) := by
  cases ty with
  | primitive p => cases p <;> rfl
  | value id =>
      cases hid : u.underlying? id with
      | none => simp [reduce, slot?, hid, Slot.reduce, Slot.value]
      | some p =>
          obtain ⟨hvoid, htypedRef⟩ := henums id p hid
          simp only [reduce, slot?, hid]
          cases p <;> first | rfl | contradiction
  | _ => rfl

/-- **Types that share their locations have slots that can be stored as each other.** -/
theorem slot?_of_sameLocation
    (henums : ∀ id p, u.underlying? id = some p → p ≠ .void ∧ p ≠ .typedRef) {a b : Ty}
    (h : u.sameLocation a b = true) {s : Slot} (hs : u.slot? a = some s) :
    ∃ t, u.slot? b = some t ∧ u.slotAssignable s t false = true ∧
      u.slotAssignable t s false = true := by
  have hmap : (u.slot? b).map (Slot.reduce u) = some (s.reduce u) := by
    rw [← slot?_reduce henums, ← (u.sameLocation_iff a b).mp h, slot?_reduce henums, hs]
    rfl
  obtain ⟨t, ht, heq⟩ := Option.map_eq_some_iff.mp hmap
  have hsForm := slot?_wellFormed henums hs
  have htForm := slot?_wellFormed henums ht
  exact ⟨t, ht, hsForm.slotAssignable htForm heq.symm, htForm.slotAssignable hsForm heq⟩

/-- **Safe assignment is a preorder that respects locations.** In a universe that spares `Object`
and has enumerations of numbers: a reduced type is its own reduced form, types that share their
locations form classes, well-formed slots are ordered by what can be stored without raw pointers,
and the slots of types that share their locations can be stored as each other. -/
theorem SparesObject.slotAssignable_preorder (hu : u.SparesObject)
    (henums : ∀ id p, u.underlying? id = some p → p ≠ .void ∧ p ≠ .typedRef) :
    (∀ ty, u.reduce (u.reduce ty) = u.reduce ty) ∧
      (Equivalence fun a b => u.sameLocation a b = true) ∧
      (∀ s : Slot, s.WellFormed u → u.slotAssignable s s false = true) ∧
      (∀ r s t : Slot, u.slotAssignable r s false = true → u.slotAssignable s t false = true →
        u.slotAssignable r t false = true) ∧
      ∀ a b : Ty, u.sameLocation a b = true → ∀ s, u.slot? a = some s →
        ∃ t, u.slot? b = some t ∧ u.slotAssignable s t false = true ∧
          u.slotAssignable t s false = true := by
  refine ⟨u.reduce_reduce, u.sameLocation_equivalence, ?_, ?_, ?_⟩
  · intro s hs
    exact hs.slotAssignable hs rfl
  · intro r s t hrs hst
    exact hu.rooted.slotAssignable_safe_trans hrs hst
  · intro a b hab s hs
    exact slot?_of_sameLocation henums hab hs

/-- Arrays of colours and arrays of truth values share their locations, as do pointers to them: null
can be stored where either array is expected, and pointers to the one where pointers to the other
are. -/
theorem slotAssignable_preorder_paintedZoo :
    paintedZoo.SparesObject ∧
      paintedZoo.sameLocation (.byRef (.array (.value ⟨25⟩)))
        (.byRef (.array (.primitive .boolean))) = true ∧
      (∃ t, paintedZoo.slot? (.byRef (.array (.primitive .boolean))) = some t ∧
        paintedZoo.slotAssignable (.managed (.array (.value ⟨25⟩))) t false = true ∧
        paintedZoo.slotAssignable t (.managed (.array (.value ⟨25⟩))) false = true) ∧
      paintedZoo.slotAssignable .null (.object (.array (.primitive .boolean))) false = true := by
  have hzoo : paintedZoo.SparesObject := wellBuilt_zoo.sparesObject.extend _ trivial
  have hpointers : paintedZoo.sameLocation (.byRef (.array (.value ⟨25⟩)))
      (.byRef (.array (.primitive .boolean))) = true := by
    decide +kernel
  have hcolours : paintedZoo.slotAssignable .null (.object (.array (.value ⟨25⟩))) false =
      true := by
    decide +kernel
  have htruths : paintedZoo.slotAssignable (.object (.array (.value ⟨25⟩)))
      (.object (.array (.primitive .boolean))) false = true := by
    decide +kernel
  obtain ⟨_, _, _, htrans, hslots⟩ := hzoo.slotAssignable_preorder underlying?_paintedZoo
  exact ⟨hzoo, hpointers, hslots _ _ hpointers _ rfl, htrans _ _ _ hcolours htruths⟩

end Universe

end ManagedCode
