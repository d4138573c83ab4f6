import ManagedCode.Proofs.Universe.Reachability
import ManagedCode.Typing.Assignable

set_option autoImplicit false

/-! # Subtyping of objects

Object types are ordered by `objectAssignable`. The order is reflexive in every universe and
transitive in a rooted one, with `null` below the reference types and `Object` above them
(`SparesObject.objectAssignable_preorder`), and `commonAncestor` gives an upper bound of two
reference types. Arrays of references are covariant and other arrays are compared as locations, so
the argument goes by induction on the element types, with `isReference_reduce` to tell the two sorts
apart.
-/

namespace ManagedCode.Universe

/-! ## Locations -/

/-- Reducing a type keeps whether its values are object references. -/
@[simp]
theorem isReference_reduce (u : Universe) (ty : Ty) :
    (u.reduce ty).isReference = ty.isReference := by
  cases ty with
  | value id =>
      unfold reduce
      split <;> rfl
  | _ => rfl

theorem sameLocation_iff (u : Universe) (a b : Ty) :
    u.sameLocation a b = true ↔ u.reduce a = u.reduce b := by
  unfold sameLocation
  rw [Bool.or_eq_true, decide_eq_true_iff, decide_eq_true_iff]
  constructor
  · rintro (rfl | h)
    · rfl
    · exact h
  · exact .inr

theorem sameLocation_trans {u : Universe} {a b c : Ty} (hab : u.sameLocation a b = true)
    (hbc : u.sameLocation b c = true) : u.sameLocation a c = true := by
  rw [sameLocation_iff] at hab hbc ⊢
  exact hab.trans hbc

theorem isReference_of_sameLocation {u : Universe} {a b : Ty} (h : u.sameLocation a b = true) :
    a.isReference = b.isReference := by
  rw [sameLocation_iff] at h
  rw [← isReference_reduce u a, h, isReference_reduce]

/-! ## The order, shape by shape -/

@[simp]
theorem objectAssignable_refl (u : Universe) (ty : Ty) : u.objectAssignable ty ty = true := by
  unfold objectAssignable
  simp

@[simp]
theorem objectAssignable_null (u : Universe) (target : Ty) :
    u.objectAssignable .null target = target.isReference := by
  unfold objectAssignable
  cases target <;> rfl

theorem objectAssignable_ref_ref (u : Universe) (a b : ClassId) :
    u.objectAssignable (.ref a) (.ref b) = true ↔
      b = WellKnown.object.id ∨ u.isSubclass a b = true ∨
        (u.isInterface b = true ∧ u.implements a b = true) := by
  unfold objectAssignable
  simp only [Bool.or_eq_true, Bool.and_eq_true, decide_eq_true_iff, Ty.ref.injEq]
  constructor
  · rintro (rfl | (h | h) | h)
    · exact .inr (.inl (by simp [isSubclass, ancestry, ancestryUpTo]))
    · exact .inl h
    · exact .inr (.inl h)
    · exact .inr (.inr h)
  · rintro (h | h | h)
    · exact .inr (.inl (.inl h))
    · exact .inr (.inl (.inr h))
    · exact .inr (.inr h)

theorem objectAssignable_array_ref (u : Universe) (element : Ty) (b : ClassId) :
    u.objectAssignable (.array element) (.ref b) = true ↔ b = WellKnown.object.id := by
  unfold objectAssignable
  simp

/-- Elements are compared as objects where both are references, and as locations otherwise. -/
theorem objectAssignable_array_array (u : Universe) (a b : Ty) :
    u.objectAssignable (.array a) (.array b) = true ↔
      (a.isReference = true ∧ b.isReference = true ∧ u.objectAssignable a b = true) ∨
        (¬(a.isReference = true ∧ b.isReference = true) ∧ u.sameLocation a b = true) := by
  rw [objectAssignable]
  by_cases hrefs : a.isReference = true ∧ b.isReference = true
  · simp only [hrefs.1, hrefs.2, Bool.and_self, if_true, Bool.or_eq_true, decide_eq_true_iff,
      Ty.array.injEq, true_and, not_true, false_and, or_false]
    constructor
    · rintro (rfl | h)
      · exact objectAssignable_refl u a
      · exact h
    · exact .inr
  · have hand : (a.isReference && b.isReference) = false := by
      rw [Bool.eq_false_iff]
      exact fun h => hrefs (Bool.and_eq_true_iff.mp h)
    have hfirst : ¬(a.isReference = true ∧ b.isReference = true ∧
        u.objectAssignable a b = true) := fun h => hrefs ⟨h.1, h.2.1⟩
    simp only [hand, Bool.false_eq_true, if_false, Bool.or_eq_true, decide_eq_true_iff,
      Ty.array.injEq, hrefs, not_false_iff, true_and, hfirst, false_or]
    constructor
    · rintro (rfl | h)
      · exact (sameLocation_iff u a a).mpr rfl
      · exact h
    · exact .inr

/-- What an object type other than `null` can be stored as is a class, an array, or itself. -/
theorem objectAssignable_cases {u : Universe} {a b : Ty} (h : u.objectAssignable a b = true) :
    a = b ∨ a = .null ∧ b.isReference = true ∨ (∃ i j, a = .ref i ∧ b = .ref j) ∨
      (∃ e j, a = .array e ∧ b = .ref j) ∨ ∃ e f, a = .array e ∧ b = .array f := by
  unfold objectAssignable at h
  rw [Bool.or_eq_true, decide_eq_true_iff] at h
  rcases h with heq | h
  · exact .inl heq
  · cases a with
    | null => exact .inr (.inl ⟨rfl, h⟩)
    | ref i =>
        cases b with
        | ref j => exact .inr (.inr (.inl ⟨i, j, rfl, rfl⟩))
        | _ => cases h
    | array e =>
        cases b with
        | ref j => exact .inr (.inr (.inr (.inl ⟨e, j, rfl, rfl⟩)))
        | array f => exact .inr (.inr (.inr (.inr ⟨e, f, rfl, rfl⟩)))
        | _ => cases h
    | _ => cases h

theorem exists_ref_of_objectAssignable {u : Universe} {i : ClassId} {b : Ty}
    (h : u.objectAssignable (.ref i) b = true) : ∃ j, b = .ref j := by
  rcases objectAssignable_cases h with rfl | ⟨ha, _⟩ | ⟨_, j, _, rfl⟩ | ⟨_, _, ha, _⟩ |
    ⟨_, _, ha, _⟩
  · exact ⟨i, rfl⟩
  · cases ha
  · exact ⟨j, rfl⟩
  · cases ha
  · cases ha

theorem ref_or_array_of_objectAssignable {u : Universe} {e b : Ty}
    (h : u.objectAssignable (.array e) b = true) : (∃ j, b = .ref j) ∨ ∃ f, b = .array f := by
  rcases objectAssignable_cases h with rfl | ⟨ha, _⟩ | ⟨_, _, ha, _⟩ | ⟨_, j, _, rfl⟩ |
    ⟨_, f, _, rfl⟩
  · exact .inr ⟨e, rfl⟩
  · cases ha
  · cases ha
  · exact .inl ⟨j, rfl⟩
  · exact .inr ⟨f, rfl⟩

theorem isReference_of_objectAssignable {u : Universe} {a b : Ty}
    (h : u.objectAssignable a b = true) : a.isReference = b.isReference := by
  rcases objectAssignable_cases h with rfl | ⟨rfl, hb⟩ | ⟨i, j, rfl, rfl⟩ | ⟨e, j, rfl, rfl⟩ |
    ⟨e, f, rfl, rfl⟩
  · rfl
  · exact hb.symm
  · rfl
  · rfl
  · rfl

/-! ## Transitivity -/

/-- Classes: whatever stands above `Object` is `Object`, and an interface has no parents. -/
theorem Rooted.objectAssignable_trans_ref {u : Universe} (hu : u.Rooted) {a b c : ClassId}
    (hab : u.objectAssignable (.ref a) (.ref b) = true)
    (hbc : u.objectAssignable (.ref b) (.ref c) = true) :
    u.objectAssignable (.ref a) (.ref c) = true := by
  rw [objectAssignable_ref_ref] at hab hbc ⊢
  rcases hbc with hobject | hsub | ⟨hinterface, himpl⟩
  · exact .inl hobject
  · rcases hab with rfl | hsub' | ⟨hinterface, himpl⟩
    · exact .inl (hu.eq_object_of_implements (implements_of_isSubclass hsub))
    · exact .inr (.inl (isSubclass_trans hsub' hsub))
    · have heq : b = c := hu.eq_of_isSubclass_interface hinterface hsub
      subst heq
      exact .inr (.inr ⟨hinterface, himpl⟩)
  · rcases hab with rfl | hsub' | ⟨_, himpl'⟩
    · exact .inl (hu.eq_object_of_implements himpl)
    · refine .inr (.inr ⟨hinterface, ?_⟩)
      have himpl' := implements_of_isSubclass hsub'
      rw [implements_iff] at himpl himpl' ⊢
      exact himpl'.trans himpl
    · refine .inr (.inr ⟨hinterface, ?_⟩)
      rw [implements_iff] at himpl himpl' ⊢
      exact himpl'.trans himpl

/-- Nothing but `Object` itself is expected where `Object` fits. -/
theorem Rooted.eq_object_of_objectAssignable {u : Universe} (hu : u.Rooted) {b : ClassId}
    (h : u.objectAssignable (.ref WellKnown.object.id) (.ref b) = true) :
    b = WellKnown.object.id := by
  rw [objectAssignable_ref_ref] at h
  rcases h with hobject | hsub | ⟨_, himpl⟩
  · exact hobject
  · exact hu.eq_object_of_implements (implements_of_isSubclass hsub)
  · exact hu.eq_object_of_implements himpl

/-- Arrays are ordered as their elements are, and those that are no references as locations. -/
theorem objectAssignable_trans_array {u : Universe} {e f g : Ty}
    (helements : u.objectAssignable e f = true → u.objectAssignable f g = true →
      u.objectAssignable e g = true)
    (hef : u.objectAssignable (.array e) (.array f) = true)
    (hfg : u.objectAssignable (.array f) (.array g) = true) :
    u.objectAssignable (.array e) (.array g) = true := by
  rw [objectAssignable_array_array] at hef hfg ⊢
  rcases hef with ⟨he, hf, hef⟩ | ⟨hnot, hef⟩
  · rcases hfg with ⟨_, hg, hfg⟩ | ⟨hnot, hfg⟩
    · exact .inl ⟨he, hg, helements hef hfg⟩
    · have hg := isReference_of_sameLocation hfg
      exact absurd ⟨hf, hg ▸ hf⟩ hnot
  · have hfe := isReference_of_sameLocation hef
    rcases hfg with ⟨hf, _, _⟩ | ⟨_, hfg⟩
    · exact absurd ⟨hfe.trans hf, hf⟩ hnot
    · exact .inr ⟨fun h => hnot ⟨h.1, hfe ▸ h.1⟩, sameLocation_trans hef hfg⟩

/-- **In a rooted universe, subtyping is transitive.** -/
theorem Rooted.objectAssignable_trans {u : Universe} (hu : u.Rooted) {a b c : Ty}
    (hab : u.objectAssignable a b = true) (hbc : u.objectAssignable b c = true) :
    u.objectAssignable a c = true := by
  induction a generalizing b c with
  | null =>
      rw [objectAssignable_null] at hab ⊢
      rw [← isReference_of_objectAssignable hbc]
      exact hab
  | ref i =>
      obtain ⟨j, rfl⟩ := exists_ref_of_objectAssignable hab
      obtain ⟨k, rfl⟩ := exists_ref_of_objectAssignable hbc
      exact hu.objectAssignable_trans_ref hab hbc
  | array e ih =>
      rcases ref_or_array_of_objectAssignable hab with ⟨j, rfl⟩ | ⟨f, rfl⟩
      · -- An array is an object of class `Object` only, above which there is nothing.
        obtain ⟨k, rfl⟩ := exists_ref_of_objectAssignable hbc
        rw [objectAssignable_array_ref] at hab ⊢
        subst hab
        exact hu.eq_object_of_objectAssignable hbc
      · rcases ref_or_array_of_objectAssignable hbc with ⟨k, rfl⟩ | ⟨g, rfl⟩
        · rw [objectAssignable_array_ref] at hbc ⊢
          exact hbc
        · exact objectAssignable_trans_array ih hab hbc
  | _ =>
      rcases objectAssignable_cases hab with rfl | ⟨h, _⟩ | ⟨_, _, h, _⟩ | ⟨_, _, h, _⟩ |
        ⟨_, _, h, _⟩
      · exact hbc
      · cases h
      · cases h
      · cases h
      · cases h

/-! ## Bounds -/

theorem objectAssignable_object (u : Universe) {ty : Ty} (h : ty.isReference = true) :
    u.objectAssignable ty (.ref WellKnown.object.id) = true := by
  cases ty with
  | ref id => exact (objectAssignable_ref_ref u _ _).mpr (.inl rfl)
  | array element => exact (objectAssignable_array_ref u _ _).mpr rfl
  | null => rfl
  | _ => cases h

/-- **Subtyping is a preorder with bounds.** Types are ordered, reference types lie between `null`
and `Object`, and nothing but a reference type lies below one. Interfaces may extend each other in
circles, and classes may derive from any others; only `Object` has to be spared. -/
theorem SparesObject.objectAssignable_preorder {u : Universe} (hu : u.SparesObject) :
    (∀ a, u.objectAssignable a a = true) ∧
      (∀ a b c, u.objectAssignable a b = true → u.objectAssignable b c = true →
        u.objectAssignable a c = true) ∧
      (∀ r, r.isReference = true → u.objectAssignable .null r = true ∧
        u.objectAssignable r (.ref WellKnown.object.id) = true) ∧
      ∀ a b, u.objectAssignable a b = true → b.isReference = true → a.isReference = true := by
  refine ⟨objectAssignable_refl u, ?_, ?_, ?_⟩
  · intro a b c hab hbc
    exact hu.rooted.objectAssignable_trans hab hbc
  · intro r hr
    exact ⟨(objectAssignable_null u r).trans hr, objectAssignable_object u hr⟩
  · intro a b hab hb
    exact (isReference_of_objectAssignable hab).trans hb

/-- A universe with two interfaces that extend each other, `⟨22⟩` and `⟨23⟩`, and a class, `⟨24⟩`,
that implements the first. -/
def streams : Universe :=
  (((((core.extend (.interface "Source")).extend (.interface "Stream")).extend
    (.reference "File" WellKnown.object.id)).extend (.implementation ⟨22⟩ ⟨23⟩)).extend
    (.implementation ⟨23⟩ ⟨22⟩)).extend (.implementation ⟨24⟩ ⟨22⟩)

theorem wellBuilt_streams : streams.WellBuilt := by
  have hfile : (0 : Nat) < 24 := by decide
  have hother : ∀ n : Nat, (⟨n + 1⟩ : ClassId) ≠ WellKnown.object.id := by
    intro n h
    cases h
  exact .extend (.extend (.extend (.extend (.extend (.extend .core _ ⟨trivial, trivial⟩) _
    ⟨trivial, trivial⟩) _ ⟨hfile, trivial⟩) _ ⟨trivial, hother 21⟩) _ ⟨trivial, hother 22⟩) _
    ⟨trivial, hother 23⟩

/-- Arrays of files are arrays of streams, by way of arrays of sources. -/
theorem objectAssignable_preorder_streams :
    streams.SparesObject ∧
      streams.objectAssignable (.array (.ref ⟨24⟩)) (.array (.ref ⟨22⟩)) = true ∧
      streams.objectAssignable (.array (.ref ⟨22⟩)) (.array (.ref ⟨23⟩)) = true ∧
      streams.objectAssignable (.array (.ref ⟨23⟩)) (.array (.ref ⟨22⟩)) = true ∧
      streams.objectAssignable (.array (.ref ⟨24⟩)) (.array (.ref ⟨23⟩)) = true := by
  -- An interface that a class or another interface names is reached in one step.
  have hnamed : ∀ a b, streams.isInterface b = true → b ∈ streams.supers a →
      streams.objectAssignable (.array (.ref a)) (.array (.ref b)) = true := by
    intro a b hinterface hsuper
    have himpl : streams.implements a b = true := (implements_iff _ _ _).mpr (.single hsuper)
    have href := (objectAssignable_ref_ref streams a b).mpr (.inr (.inr ⟨hinterface, himpl⟩))
    exact (objectAssignable_array_array _ _ _).mpr (.inl ⟨rfl, rfl, href⟩)
  have hfile := hnamed ⟨24⟩ ⟨22⟩ (by decide) (by decide)
  have hsource := hnamed ⟨22⟩ ⟨23⟩ (by decide) (by decide)
  have hstream := hnamed ⟨23⟩ ⟨22⟩ (by decide) (by decide)
  obtain ⟨_, htrans, _⟩ := wellBuilt_streams.sparesObject.objectAssignable_preorder
  exact ⟨wellBuilt_streams.sparesObject, hfile, hsource, hstream, htrans _ _ _ hfile hsource⟩

/-! ## Common ancestors -/

/-- The four ways in which a common ancestor is found: one of the types takes the other, a base
class of `a` takes `b` and no nearer one does, or none that is tried takes `b`. -/
theorem commonAncestor_cases (u : Universe) (a b : Ty) :
    u.objectAssignable a b = true ∧ u.commonAncestor a b = b ∨
      u.objectAssignable b a = true ∧ u.commonAncestor a b = a ∨
      (∃ id nearer base farther, a = .ref id ∧
        (u.ancestry id).take ancestorLimit = nearer ++ base :: farther ∧
        (∀ k ∈ nearer, u.objectAssignable b (.ref k) = false) ∧
        u.objectAssignable b (.ref base) = true ∧ u.commonAncestor a b = .ref base) ∨
      (u.objectAssignable a b = false ∧ (∀ id, a = .ref id →
        ∀ k ∈ (u.ancestry id).take ancestorLimit, u.objectAssignable b (.ref k) = false) ∧
        u.commonAncestor a b = .ref WellKnown.object.id) := by
  unfold commonAncestor
  split
  · rename_i hab
    exact .inl ⟨hab, rfl⟩
  · rename_i hab
    have hab : u.objectAssignable a b = false := by simpa using hab
    split
    · rename_i hba
      exact .inr (.inl ⟨hba, rfl⟩)
    · refine .inr (.inr ?_)
      cases a with
      | ref id =>
          simp only [List.find?_map]
          cases hfind : ((u.ancestry id).take ancestorLimit).find?
              ((u.objectAssignable b ·) ∘ Ty.ref) with
          | none =>
              refine .inr ⟨hab, ?_, rfl⟩
              rintro _ ⟨⟩ k hk
              simpa using List.find?_eq_none.mp hfind k hk
          | some base =>
              obtain ⟨hbase, nearer, farther, hsplit, hnearer⟩ :=
                List.find?_eq_some_iff_append.mp hfind
              have hnearer : ∀ k ∈ nearer, u.objectAssignable b (.ref k) = false := by
                simpa using hnearer
              exact .inl ⟨id, nearer, base, farther, rfl, hsplit, hnearer, hbase, rfl⟩
      | _ => exact .inr ⟨hab, fun _ heq => (nomatch heq), rfl⟩

/-- **A common ancestor takes the objects of both types.** -/
theorem objectAssignable_commonAncestor (u : Universe) {a b : Ty} (ha : a.isReference = true)
    (hb : b.isReference = true) :
    u.objectAssignable a (u.commonAncestor a b) = true ∧
      u.objectAssignable b (u.commonAncestor a b) = true := by
  rcases u.commonAncestor_cases a b with ⟨hab, heq⟩ | ⟨hba, heq⟩ |
    ⟨id, nearer, base, farther, rfl, hsplit, _, hbase, heq⟩ | ⟨_, _, heq⟩
  · rw [heq]
    exact ⟨hab, objectAssignable_refl u b⟩
  · rw [heq]
    exact ⟨objectAssignable_refl u a, hba⟩
  · rw [heq]
    have hmem : base ∈ (u.ancestry id).take ancestorLimit := by
      rw [hsplit]
      simp
    refine ⟨(objectAssignable_ref_ref u _ _).mpr (.inr (.inl ?_)), hbase⟩
    exact decide_eq_true (List.mem_of_mem_take hmem)
  · rw [heq]
    exact ⟨objectAssignable_object u ha, objectAssignable_object u hb⟩

theorem isReference_commonAncestor (u : Universe) {a b : Ty} (ha : a.isReference = true)
    (hb : b.isReference = true) : (u.commonAncestor a b).isReference = true :=
  (isReference_of_objectAssignable (objectAssignable_commonAncestor u ha hb).1).symm.trans ha

end ManagedCode.Universe
