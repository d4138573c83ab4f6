import ManagedCode.Proofs.Typing.Subtyping
import Mathlib.Data.List.Perm.Subperm

set_option autoImplicit false

/-! # Nearest common ancestors

`commonAncestor` climbs the base classes of one type only, and gives up after a number of them. What
it finds is still an upper bound of both types, and no class that is one lies below it
(`commonAncestor_leastClass`), as the base classes of a class form a chain: whatever takes both
types stands in it, at the class that is found or behind it.

Classes without interfaces among their ancestors form a tree under `Object`, and the null type lies
below them all (`Universe.Plain`). There subtyping is a partial order in every universe in which
parents lead in no circle, and the common ancestor is the join of two types
(`Plain.commonAncestor_least`).
-/

namespace ManagedCode.Universe

open Relation

/-! ## Chains of base classes -/

/-- What stands behind a class in a chain of parents, the class derives from. -/
theorem isSubclass_of_ancestryUpTo {u : Universe} {limit : Nat} {id base k : ClassId}
    {nearer farther : List ClassId} (h : u.ancestryUpTo limit id = nearer ++ base :: farther)
    (hk : k ∈ farther) : u.isSubclass base k = true := by
  induction limit generalizing id nearer with
  | zero =>
      rw [ancestryUpTo] at h
      simp at h
  | succ limit ih =>
      rw [ancestryUpTo] at h
      cases nearer with
      | nil =>
          obtain ⟨rfl, hrest⟩ := List.cons.inj h
          rw [isSubclass_iff]
          cases hparent : u.parent? id with
          | none =>
              rw [hparent] at hrest
              rw [← hrest] at hk
              cases hk
          | some parent =>
              rw [hparent] at hrest
              rw [← hrest] at hk
              exact .head hparent (reflTransGen_of_mem_ancestryUpTo hk)
      | cons first nearer =>
          obtain ⟨_, hrest⟩ := List.cons.inj h
          cases hparent : u.parent? id with
          | none =>
              rw [hparent] at hrest
              simp at hrest
          | some parent =>
              rw [hparent] at hrest
              exact ih hrest

/-- A class that takes both types takes their common ancestor. The chain of `a` has to be tried to
its end, and `k` to be no interface, as interfaces do not stand in it. -/
theorem commonAncestor_below (u : Universe) {a b : Ty} {k : ClassId}
    (hchain : ∀ id, a = .ref id → (u.ancestry id).length ≤ ancestorLimit)
    (hk : u.isInterface k = false) (ha : u.objectAssignable a (.ref k) = true)
    (hb : u.objectAssignable b (.ref k) = true) :
    u.objectAssignable (u.commonAncestor a b) (.ref k) = true := by
  -- Where `a` is a class, `k` is `Object` or stands in the chain.
  have hclass : ∀ id, a = .ref id → k = WellKnown.object.id ∨ k ∈ u.ancestry id := by
    rintro id rfl
    rcases (objectAssignable_ref_ref u id k).mp ha with hobject | hsub | ⟨hinterface, _⟩
    · exact .inl hobject
    · exact .inr (of_decide_eq_true hsub)
    · rw [hk] at hinterface
      cases hinterface
  rcases u.commonAncestor_cases a b with ⟨_, heq⟩ | ⟨_, heq⟩ |
    ⟨id, nearer, base, farther, rfl, hsplit, hnearer, _, heq⟩ | ⟨hab, hnone, heq⟩
  · rw [heq]
    exact hb
  · rw [heq]
    exact ha
  · rw [heq]
    rw [List.take_of_length_le (hchain id rfl)] at hsplit
    rcases hclass id rfl with rfl | hmem
    · exact objectAssignable_object u rfl
    · rw [hsplit, List.mem_append, List.mem_cons] at hmem
      rcases hmem with hbefore | rfl | hbehind
      · rw [hnearer k hbefore] at hb
        cases hb
      · exact objectAssignable_refl u _
      · exact (objectAssignable_ref_ref u _ _).mpr
          (.inr (.inl (isSubclass_of_ancestryUpTo hsplit hbehind)))
  · rw [heq]
    suffices k = WellKnown.object.id by
      rw [this]
      exact objectAssignable_refl u _
    cases a with
    | ref id =>
        rcases hclass id rfl with hobject | hmem
        · exact hobject
        · rw [← List.take_of_length_le (hchain id rfl)] at hmem
          rw [hnone id rfl k hmem] at hb
          cases hb
    | array element => exact (objectAssignable_array_ref u element k).mp ha
    | null =>
        rw [objectAssignable_null, isReference_of_objectAssignable hb] at hab
        cases hab
    | _ =>
        have href := isReference_of_objectAssignable ha
        cases href

/-- **A common ancestor is an upper bound, and the least among classes.** It takes the objects of
both types, in every universe. A class that takes both types, and is no interface, takes their
common ancestor as well, unless the chain of base classes that is climbed is longer than the
limit. -/
theorem commonAncestor_leastClass (u : Universe) {a b : Ty} (ha : a.isReference = true)
    (hb : b.isReference = true) :
    let c := u.commonAncestor a b
    c.isReference = true ∧ u.objectAssignable a c = true ∧ u.objectAssignable b c = true ∧
      ((∀ id, a = .ref id → (u.ancestry id).length ≤ ancestorLimit) →
        ∀ k, u.isInterface k = false → u.objectAssignable a (.ref k) = true →
          u.objectAssignable b (.ref k) = true → u.objectAssignable c (.ref k) = true) := by
  obtain ⟨hac, hbc⟩ := objectAssignable_commonAncestor u ha hb
  refine ⟨isReference_commonAncestor u ha hb, hac, hbc, ?_⟩
  intro hchain k hk hak hbk
  exact commonAncestor_below u hchain hk hak hbk

/-- A zoo with two classes of dogs, `⟨25⟩` and `⟨26⟩`. -/
def kennel : Universe :=
  (zoo.extend (.reference "Puppy" ⟨23⟩)).extend (.reference "Poodle" ⟨23⟩)

/-- Puppies and poodles meet at dogs, below the animals. -/
theorem commonAncestor_leastClass_kennel :
    kennel.commonAncestor (.ref ⟨25⟩) (.ref ⟨26⟩) = .ref ⟨23⟩ ∧
      (∀ id, Ty.ref ⟨25⟩ = .ref id → (kennel.ancestry id).length ≤ ancestorLimit) ∧
      kennel.objectAssignable (.ref ⟨25⟩) (.ref ⟨23⟩) = true ∧
      kennel.objectAssignable (.ref ⟨26⟩) (.ref ⟨23⟩) = true ∧
      kennel.objectAssignable (.ref ⟨25⟩) (.ref ⟨22⟩) = true ∧
      kennel.objectAssignable (.ref ⟨26⟩) (.ref ⟨22⟩) = true ∧
      kennel.objectAssignable (.ref ⟨23⟩) (.ref ⟨22⟩) = true := by
  have hmeet : kennel.commonAncestor (.ref ⟨25⟩) (.ref ⟨26⟩) = .ref ⟨23⟩ := by decide +kernel
  have hchain : ∀ id, Ty.ref ⟨25⟩ = .ref id → (kennel.ancestry id).length ≤ ancestorLimit := by
    rintro _ ⟨⟩
    decide +kernel
  have hpuppy : kennel.objectAssignable (.ref ⟨25⟩) (.ref ⟨22⟩) = true := by decide +kernel
  have hpoodle : kennel.objectAssignable (.ref ⟨26⟩) (.ref ⟨22⟩) = true := by decide +kernel
  obtain ⟨_, hleft, hright, hleast⟩ :=
    commonAncestor_leastClass kennel (a := .ref ⟨25⟩) (b := .ref ⟨26⟩) rfl rfl
  rw [hmeet] at hleft hright hleast
  exact ⟨hmeet, hchain, hleft, hright, hpuppy, hpoodle,
    hleast hchain ⟨22⟩ (by decide) hpuppy hpoodle⟩

/-! ## Chains without circles -/

/-- Parents lead in no circle, and `Object` is a class that derives from nothing. -/
structure Forest (u : Universe) : Prop where
  acyclic : u.Acyclic
  parent?_object : u.parent? WellKnown.object.id = none
  isInterface_object : u.isInterface WellKnown.object.id = false

theorem Built.forest {u : Universe} (hu : u.Built) (hacyclic : u.Acyclic) : u.Forest :=
  ⟨hacyclic, hu.parent?_object, hu.isInterface_object⟩

namespace Acyclic

variable {u : Universe} {a b : ClassId} (hu : u.Acyclic)
include hu

/-- A chain meets no class twice. -/
theorem nodup_ancestryUpTo (limit : Nat) (id : ClassId) : (u.ancestryUpTo limit id).Nodup := by
  induction limit generalizing id with
  | zero => exact .nil
  | succ limit ih =>
      rw [ancestryUpTo]
      cases hparent : u.parent? id with
      | none => simp
      | some parent =>
          refine List.nodup_cons.mpr ⟨fun hmem => hu id ?_, ih parent⟩
          exact TransGen.head' hparent (reflTransGen_of_mem_ancestryUpTo hmem)

/-- The chain of a base class is not longer. -/
theorem length_ancestry_le (h : u.isSubclass a b = true) :
    (u.ancestry b).length ≤ (u.ancestry a).length := by
  refine ((hu.nodup_ancestryUpTo _ b).subperm fun k hk => ?_).length_le
  exact of_decide_eq_true (isSubclass_trans h (decide_eq_true hk))

end Acyclic

/-! ## The tree of classes -/

/-- The null type, or a class that has no interfaces among its ancestors, none of which is out of
reach. -/
def Plain (u : Universe) : Ty → Prop
  | .null => True
  | .ref id => (u.ancestry id).length ≤ ancestorLimit ∧ ∀ k ∈ u.ancestry id, u.isInterface k = false
  | _ => False

theorem Plain.isReference {u : Universe} {ty : Ty} (h : u.Plain ty) : ty.isReference = true := by
  cases ty with
  | ref id | null => rfl
  | _ => cases h

theorem Plain.isInterface {u : Universe} {id : ClassId} (h : u.Plain (.ref id)) :
    u.isInterface id = false := by
  refine h.2 id ?_
  unfold ancestry
  rw [ancestryUpTo]
  exact List.mem_cons_self

/-- In the tree, objects of a class are of its base classes and of `Object`, and of no others. -/
theorem Plain.objectAssignable_iff {u : Universe} {a b : ClassId} (hb : u.Plain (.ref b)) :
    u.objectAssignable (.ref a) (.ref b) = true ↔
      b = WellKnown.object.id ∨ u.isSubclass a b = true := by
  rw [objectAssignable_ref_ref, hb.isInterface]
  simp

/-- Only null is of the null type. -/
theorem Plain.eq_null {u : Universe} {a : Ty} (ha : u.Plain a)
    (h : u.objectAssignable a .null = true) : a = .null := by
  cases a with
  | null => rfl
  | ref i =>
      obtain ⟨j, heq⟩ := exists_ref_of_objectAssignable h
      cases heq
  | _ => cases ha

/-- **In the tree of classes, a common ancestor is the least upper bound.** -/
theorem Plain.commonAncestor_least {u : Universe} {a b c : Ty} (ha : u.Plain a) (hc : u.Plain c)
    (hac : u.objectAssignable a c = true) (hbc : u.objectAssignable b c = true) :
    u.objectAssignable (u.commonAncestor a b) c = true := by
  cases c with
  | null =>
      have hnull := ha.eq_null hac
      subst hnull
      rcases u.commonAncestor_cases .null b with ⟨_, heq⟩ | ⟨_, heq⟩ | ⟨_, _, _, _, hnull, _⟩ |
        ⟨hab, _⟩
      · rw [heq]
        exact hbc
      · rw [heq]
        exact hac
      · cases hnull
      · rw [objectAssignable_null, isReference_of_objectAssignable hbc] at hab
        cases hab
  | ref k =>
      refine commonAncestor_below u ?_ hc.isInterface hac hbc
      rintro id rfl
      exact ha.1
  | _ => cases hc

namespace Forest

variable {u : Universe} (hu : u.Forest) {a b c : Ty}
include hu

theorem plain_of_isSubclass {a b : ClassId} (ha : u.Plain (.ref a))
    (h : u.isSubclass a b = true) : u.Plain (.ref b) := by
  refine ⟨Nat.le_trans (hu.acyclic.length_ancestry_le h) ha.1, fun k hk => ha.2 k ?_⟩
  exact of_decide_eq_true (isSubclass_trans h (decide_eq_true hk))

theorem plain_object : u.Plain (.ref WellKnown.object.id) := by
  have hchain : u.ancestry WellKnown.object.id = [WellKnown.object.id] := by
    rw [ancestry, ancestryUpTo, hu.parent?_object]
  constructor
  · rw [hchain]
    decide
  · rw [hchain]
    simpa using hu.isInterface_object

/-- Nothing else stands above `Object`. -/
theorem eq_object_of_isSubclass {k : ClassId} (h : u.isSubclass WellKnown.object.id k = true) :
    k = WellKnown.object.id := by
  rcases ReflTransGen.cases_head ((isSubclass_iff u _ k).mp h) with heq | ⟨c, hstep, _⟩
  · exact heq.symm
  · rw [ParentStep, hu.parent?_object] at hstep
    cases hstep

theorem objectAssignable_trans_plain (ha : u.Plain a) (hb : u.Plain b) (hc : u.Plain c)
    (hab : u.objectAssignable a b = true) (hbc : u.objectAssignable b c = true) :
    u.objectAssignable a c = true := by
  cases a with
  | null =>
      rw [objectAssignable_null]
      exact hc.isReference
  | ref i =>
      obtain ⟨j, rfl⟩ := exists_ref_of_objectAssignable hab
      obtain ⟨k, rfl⟩ := exists_ref_of_objectAssignable hbc
      rw [hb.objectAssignable_iff] at hab
      rw [hc.objectAssignable_iff] at hbc ⊢
      rcases hbc with hobject | hsub
      · exact .inl hobject
      · rcases hab with rfl | hsub'
        · exact .inl (hu.eq_object_of_isSubclass hsub)
        · exact .inr (isSubclass_trans hsub' hsub)
  | _ => cases ha

theorem objectAssignable_antisymm (ha : u.Plain a) (hb : u.Plain b)
    (hab : u.objectAssignable a b = true) (hba : u.objectAssignable b a = true) : a = b := by
  cases a with
  | null => exact (hb.eq_null hba).symm
  | ref i =>
      obtain ⟨j, rfl⟩ := exists_ref_of_objectAssignable hab
      rw [hb.objectAssignable_iff] at hab
      rw [ha.objectAssignable_iff] at hba
      rcases hab with rfl | hsub
      · rcases hba with rfl | hsub
        · rfl
        · rw [hu.eq_object_of_isSubclass hsub]
      · rcases hba with rfl | hsub'
        · rw [hu.eq_object_of_isSubclass hsub]
        · rw [hu.acyclic.isSubclass_antisymm hsub hsub']
  | _ => cases ha

/-- Common ancestors stay in the tree. -/
theorem plain_commonAncestor (ha : u.Plain a) (hb : u.Plain b) :
    u.Plain (u.commonAncestor a b) := by
  rcases u.commonAncestor_cases a b with ⟨_, heq⟩ | ⟨_, heq⟩ |
    ⟨id, nearer, base, farther, rfl, hsplit, _, _, heq⟩ | ⟨_, _, heq⟩
  · rw [heq]
    exact hb
  · rw [heq]
    exact ha
  · rw [heq]
    have hmem : base ∈ (u.ancestry id).take ancestorLimit := by
      rw [hsplit]
      simp
    exact hu.plain_of_isSubclass ha (decide_eq_true (List.mem_of_mem_take hmem))
  · rw [heq]
    exact hu.plain_object

end Forest

end ManagedCode.Universe
