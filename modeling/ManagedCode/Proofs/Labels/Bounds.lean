import ManagedCode.EntryPoint
import ManagedCode.Proofs.Checks

set_option autoImplicit false

/-! # The number of labels and its bound

The bound of a store matters only where a label is made. So an operation that succeeds leaves the
store larger or as large, and under any other bound that has room for the labels it ends up with,
it does the same (`LabelStore.Bounded`). This holds of every operation of the store, and of all the
entry points of a method's exception regions together (`Joins.addRegions_bounded`).
-/

namespace ManagedCode

namespace LabelStore

/-- The same labels under another bound. -/
def withBound (s : LabelStore) (bound : Nat) : LabelStore := { s with bound }

/-- The labels are the same, and so is the one that is found. -/
theorem label?_withBound (s : LabelStore) (bound offset : Nat) :
    (s.withBound bound).label? offset = s.label? offset := rfl

/-- There are as many labels or more, and no more than there was room for. -/
structure Grown (s t : LabelStore) : Prop where
  bound_eq : t.bound = s.bound
  size_mono : s.size ≤ t.size
  size_le : t.size ≤ max s.size s.bound

variable {s t r : LabelStore}

theorem Grown.refl (s : LabelStore) : s.Grown s := ⟨rfl, Nat.le_refl _, Nat.le_max_left _ _⟩

theorem Grown.trans (hst : s.Grown t) (htr : t.Grown r) : s.Grown r := by
  have hle := htr.size_le
  have hmono := Nat.le_trans hst.size_mono htr.size_mono
  rw [hst.bound_eq] at hle
  exact ⟨htr.bound_eq.trans hst.bound_eq, hmono,
    Nat.le_trans hle (Nat.max_le.mpr ⟨hst.size_le, Nat.le_max_right _ _⟩)⟩

theorem size_modify (s : LabelStore) (id : Nat) (f : Label → Label) :
    (s.modify id f).size = s.size := Array.size_map

theorem grown_modify (s : LabelStore) (id : Nat) (f : Label → Label) : s.Grown (s.modify id f) := by
  refine ⟨rfl, Nat.le_of_eq (s.size_modify id f).symm, ?_⟩
  rw [size_modify]
  exact Nat.le_max_left _ _

/-- On `s`, the operation grows the store, and it does the same under every bound that has room for
the labels there are in the end. -/
def Bounded {α : Type} (f : LabelStore → Except Rejection α × LabelStore) (s : LabelStore) : Prop :=
  ∀ a t, f s = (.ok a, t) →
    s.Grown t ∧ ∀ bound, t.size ≤ bound → f (s.withBound bound) = (.ok a, t.withBound bound)

theorem create_bounded (offset : Nat) (snapshot : Slots) (seeded : Bool) :
    Bounded (fun s => s.create offset snapshot seeded) s := by
  intro id t h
  simp only [create] at h
  split at h
  · rename_i hroom
    cases h
    have hsize : ({ s with labels := s.labels.push ⟨s.size, offset, snapshot, false, seeded⟩ } :
        LabelStore).size = s.size + 1 := Array.size_push _
    refine ⟨⟨rfl, by omega, by omega⟩, fun bound hle => ?_⟩
    have hroom' : s.size < bound := by omega
    exact if_pos hroom'
  · cases h

theorem observe_bounded (u : Universe) (offset : Nat) (incoming : Slots) :
    Bounded (fun s => s.observe u offset incoming) s := by
  intro id t h
  simp only [observe] at h ⊢
  cases hlabel : s.label? offset with
  | none =>
      simp only [label?_withBound, hlabel] at h ⊢
      exact create_bounded offset incoming false id t h
  | some label =>
      simp only [label?_withBound, hlabel] at h ⊢
      split at h
      · -- A label that is there is changed in its place, whatever the bound.
        rename_i hlength
        obtain ⟨hagree, rfl⟩ := Prod.mk.inj h
        refine ⟨grown_modify s _ _, fun bound _ => ?_⟩
        rw [if_pos hlength, hagree]
        rfl
      · cases h

theorem reload_bounded (offset : Nat) : Bounded (fun s => s.reload offset) s := by
  intro id t h
  simp only [reload] at h ⊢
  cases hlabel : s.label? offset with
  | none =>
      simp only [label?_withBound, hlabel] at h ⊢
      exact create_bounded offset [] false id t h
  | some label =>
      simp only [label?_withBound, hlabel] at h ⊢
      cases h
      exact ⟨.refl s, fun _ _ => rfl⟩

theorem seed_bounded (offset : Nat) (snapshot : Slots) :
    Bounded (fun s => s.seed offset snapshot) s := by
  intro id t h
  simp only [seed] at h ⊢
  cases hlabel : s.label? offset with
  | none =>
      simp only [label?_withBound, hlabel] at h ⊢
      exact create_bounded offset snapshot true id t h
  | some label =>
      simp only [label?_withBound, hlabel] at h ⊢
      split at h
      · rename_i hsame
        cases h
        exact ⟨.refl s, fun _ _ => if_pos hsame⟩
      · cases h

end LabelStore

/-! ## Entry points -/

namespace Joins

/-- The same joins, with labels under another bound. -/
def withBound (j : Joins) (bound : Nat) : Joins := { j with labels := j.labels.withBound bound }

variable {j j' : Joins}

theorem step_bounded {step : EntryStep} {u : Unit} (h : j.step step = (.ok u, j')) :
    j.labels.Grown j'.labels ∧ ∀ bound, j'.labels.size ≤ bound →
      (j.withBound bound).step step = (.ok u, j'.withBound bound) := by
  cases step with
  | mark offset =>
      cases h
      exact ⟨.refl _, fun _ _ => rfl⟩
  | seed offset snapshot =>
      simp only [Joins.step] at h ⊢
      cases hseed : j.labels.seed offset snapshot with
      | mk result labels =>
          rw [hseed] at h
          cases result with
          | error e => cases h
          | ok id =>
              cases h
              obtain ⟨hgrown, hsame⟩ := LabelStore.seed_bounded offset snapshot id labels hseed
              refine ⟨hgrown, fun bound hle => ?_⟩
              simp only [withBound, hsame bound hle]
              rfl
  | refuse reason => cases h

theorem perform_bounded {steps : List EntryStep} {u : Unit} (h : j.perform steps = (.ok u, j')) :
    j.labels.Grown j'.labels ∧ ∀ bound, j'.labels.size ≤ bound →
      (j.withBound bound).perform steps = (.ok u, j'.withBound bound) := by
  induction steps generalizing j with
  | nil =>
      cases h
      exact ⟨.refl _, fun _ _ => rfl⟩
  | cons step rest ih =>
      unfold perform at h ⊢
      cases hstep : j.step step with
      | mk result next =>
          rw [hstep] at h
          cases result with
          | error e => cases h
          | ok _ =>
              obtain ⟨hgrown, hsame⟩ := step_bounded hstep
              obtain ⟨hgrown', hsame'⟩ := ih h
              refine ⟨hgrown.trans hgrown', fun bound hle => ?_⟩
              rw [hsame bound (Nat.le_trans hgrown'.size_mono hle)]
              exact hsame' bound hle

/-- What the exception regions of a method ask for can be done under every bound that has room for
the labels it takes. -/
theorem addRegions_bounded {u : Universe} {regions : List Region} {done : Unit}
    (h : j.addRegions u regions = (.ok done, j')) :
    j.labels.Grown j'.labels ∧ ∀ bound, j'.labels.size ≤ bound →
      (j.withBound bound).addRegions u regions = (.ok done, j'.withBound bound) :=
  perform_bounded h

end Joins

end ManagedCode
