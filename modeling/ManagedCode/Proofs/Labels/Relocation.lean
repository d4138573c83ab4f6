import ManagedCode.Proofs.Code.Relocation
import ManagedCode.Proofs.Labels.Store

set_option autoImplicit false

/-! # Labels that lie elsewhere

Labels are found by their offset and otherwise known by their number. So every operation does the
same to two stores whose labels lie at corresponding offsets, when it is asked about corresponding
offsets: it answers alike, and the labels still correspond (`LabelStore.Moved`).
-/

namespace ManagedCode

variable {R : Nat → Nat → Prop}

/-- The same label at a corresponding offset. -/
structure Label.Moved (R : Nat → Nat → Prop) (l l' : Label) : Prop where
  id_eq : l.id = l'.id
  offset : R l.offset l'.offset
  snapshot_eq : l.snapshot = l'.snapshot
  visited_eq : l.visited = l'.visited
  seeded_eq : l.seeded = l'.seeded

namespace LabelStore

/-- The labels are the same, at corresponding offsets. -/
structure Moved (R : Nat → Nat → Prop) (s s' : LabelStore) : Prop where
  labels : List.Forall₂ (Label.Moved R) s.labels.toList s'.labels.toList
  bound_eq : s.bound = s'.bound

theorem moved_empty (R : Nat → Nat → Prop) (bound : Nat) : Moved R { bound } { bound } :=
  ⟨.nil, rfl⟩

/-- The same is found in corresponding lists by tests that agree. -/
theorem find?_moved {labels labels' : List Label} (h : List.Forall₂ (Label.Moved R) labels labels')
    {p q : Label → Bool} (hpq : ∀ l l', l.Moved R l' → p l = q l') :
    labels.find? p = none ∧ labels'.find? q = none ∨
      ∃ l l', labels.find? p = some l ∧ labels'.find? q = some l' ∧ l.Moved R l' := by
  induction h with
  | nil => exact .inl ⟨rfl, rfl⟩
  | @cons l l' rest rest' hl hrest ih =>
      have htest := hpq l l' hl
      cases hp : p l with
      | true =>
          have hq : q l' = true := htest ▸ hp
          rw [List.find?_cons_of_pos hp, List.find?_cons_of_pos hq]
          exact .inr ⟨l, l', rfl, rfl, hl⟩
      | false =>
          have hq : q l' = false := htest ▸ hp
          rw [List.find?_cons_of_neg (by simp [hp]), List.find?_cons_of_neg (by simp [hq])]
          exact ih

section Moved

variable (hR : Relocation R) {s s' : LabelStore} (hs : s.Moved R s')
include hs

theorem Moved.size_eq : s.size = s'.size := by
  have hlength := hs.labels.length_eq
  simpa [size] using hlength

include hR in
/-- There is a label at one of two corresponding offsets if there is one at the other. -/
theorem Moved.label? {o o' : Nat} (ho : R o o') :
    s.label? o = none ∧ s'.label? o' = none ∨
      ∃ l l', s.label? o = some l ∧ s'.label? o' = some l' ∧ l.Moved R l' := by
  unfold LabelStore.label?
  rw [← Array.find?_toList, ← Array.find?_toList]
  refine find?_moved hs.labels fun l l' hl => ?_
  simp only [hR.eq_iff hl.offset ho]

theorem Moved.snapshot_eq (id : Nat) : s.snapshot id = s'.snapshot id := by
  unfold snapshot
  rw [← Array.find?_toList, ← Array.find?_toList]
  have htest : ∀ l l' : Label, l.Moved R l' → decide (l.id = id) = decide (l'.id = id) :=
    fun l l' hl => by rw [hl.id_eq]
  rcases find?_moved hs.labels htest with ⟨hnone, hnone'⟩ | ⟨l, l', hsome, hsome', hl⟩
  · rw [hnone, hnone']
  · rw [hsome, hsome']
    exact hl.snapshot_eq

theorem Moved.create {o o' : Nat} (ho : R o o') (snapshot : Slots) (seeded : Bool) :
    Agree Eq (s.create o snapshot seeded).1 (s'.create o' snapshot seeded).1 ∧
      (s.create o snapshot seeded).2.Moved R (s'.create o' snapshot seeded).2 := by
  have hsize := hs.size_eq
  unfold LabelStore.create
  rw [← hsize, ← hs.bound_eq]
  split
  · refine ⟨.ok rfl, ?_, rfl⟩
    have hnew : Label.Moved R { id := s.size, offset := o, snapshot, seeded }
        { id := s.size, offset := o', snapshot, seeded } := ⟨rfl, ho, rfl, rfl, rfl⟩
    rw [Array.toList_push, Array.toList_push]
    exact List.rel_append hs.labels (.cons hnew .nil)
  · exact ⟨.error _ _, hs⟩

theorem Moved.modify (id : Nat) {f f' : Label → Label}
    (hf : ∀ l l', l.Moved R l' → (f l).Moved R (f' l')) :
    (s.modify id f).Moved R (s'.modify id f') := by
  refine ⟨?_, hs.bound_eq⟩
  simp only [LabelStore.modify, Array.toList_map]
  rw [List.forall₂_map_left_iff, List.forall₂_map_right_iff]
  refine hs.labels.imp fun l l' hl => ?_
  simp only [hl.id_eq]
  split
  · exact hf l l' hl
  · exact hl

theorem Moved.markVisited (id : Nat) : (s.markVisited id).Moved R (s'.markVisited id) :=
  hs.modify id fun _ _ hl => ⟨hl.id_eq, hl.offset, hl.snapshot_eq, rfl, hl.seeded_eq⟩

include hR

theorem Moved.reload {o o' : Nat} (ho : R o o') :
    Agree Eq (s.reload o).1 (s'.reload o').1 ∧ (s.reload o).2.Moved R (s'.reload o').2 := by
  unfold LabelStore.reload
  rcases hs.label? hR ho with ⟨hnone, hnone'⟩ | ⟨l, l', hsome, hsome', hl⟩
  · rw [hnone, hnone']
    exact hs.create ho _ _
  · rw [hsome, hsome']
    exact ⟨.ok hl.id_eq, hs⟩

theorem Moved.seed {o o' : Nat} (ho : R o o') (snapshot : Slots) :
    Agree Eq (s.seed o snapshot).1 (s'.seed o' snapshot).1 ∧
      (s.seed o snapshot).2.Moved R (s'.seed o' snapshot).2 := by
  unfold LabelStore.seed
  rcases hs.label? hR ho with ⟨hnone, hnone'⟩ | ⟨l, l', hsome, hsome', hl⟩
  · rw [hnone, hnone']
    exact hs.create ho _ _
  · simp only [hsome, hsome', hl.snapshot_eq]
    split
    · exact ⟨.ok hl.id_eq, hs⟩
    · exact ⟨.error _ _, hs⟩

/-- **The answer to an arrival depends on the place only through the label that is there.** -/
theorem Moved.observe (u : Universe) {o o' : Nat} (ho : R o o') (incoming : Slots) :
    Agree Eq (s.observe u o incoming).1 (s'.observe u o' incoming).1 ∧
      (s.observe u o incoming).2.Moved R (s'.observe u o' incoming).2 := by
  unfold LabelStore.observe
  rcases hs.label? hR ho with ⟨hnone, hnone'⟩ | ⟨l, l', hsome, hsome', hl⟩
  · rw [hnone, hnone']
    exact hs.create ho _ _
  · simp only [hsome, hsome', hl.snapshot_eq, hl.visited_eq, hl.seeded_eq]
    split
    · refine ⟨?_, ?_⟩
      · split
        · exact .ok hl.id_eq
        · exact .error _ _
      · rw [hl.id_eq]
        exact hs.modify _ fun _ _ h => ⟨h.id_eq, h.offset, rfl, h.visited_eq, h.seeded_eq⟩
    · exact ⟨.error _ _, hs⟩

end Moved

/-- All labels of one store were reached if all of the other were. -/
theorem Moved.firstUnresolved? {s s' : LabelStore} (hs : s.Moved R s') :
    s.firstUnresolved? = none ↔ s'.firstUnresolved? = none := by
  have hvisited : ∀ l l' : Label, l.Moved R l' → (!l.visited) = !l'.visited :=
    fun l l' hl => by rw [hl.visited_eq]
  have hfind := find?_moved hs.labels hvisited
  unfold LabelStore.firstUnresolved?
  rw [List.min?_eq_none_iff, List.min?_eq_none_iff, List.map_eq_nil_iff, List.map_eq_nil_iff,
    List.filter_eq_nil_iff, List.filter_eq_nil_iff, ← List.find?_eq_none, ← List.find?_eq_none]
  rcases hfind with ⟨hnone, hnone'⟩ | ⟨l, l', hsome, hsome', _⟩
  · simp only [hnone, hnone']
  · simp only [hsome, hsome', reduceCtorEq]

end LabelStore

/-! ## Entry points of regions -/

namespace Joins

/-- Marks and labels correspond. -/
structure Moved (R : Nat → Nat → Prop) (j j' : Joins) : Prop where
  mask : j.mask.Moved R j'.mask
  labels : j.labels.Moved R j'.labels

variable (hR : Relocation R) {j j' : Joins} (hj : j.Moved R j')
include hR hj

theorem Moved.step {e e' : EntryStep} (he : e.Moved R e') :
    Agree (fun _ _ => True) (j.step e).1 (j'.step e').1 ∧ (j.step e).2.Moved R (j'.step e').2 := by
  cases he with
  | mark ho => exact ⟨.ok trivial, hj.mask.markSpecial hR ho, hj.labels⟩
  | @seed o o' ho snapshot =>
      obtain ⟨hresult, hlabels⟩ := hj.labels.seed hR ho snapshot
      refine ⟨?_, hj.mask, hlabels⟩
      exact hresult.map fun _ _ _ => trivial
  | refuse e e' => exact ⟨.error e e', hj⟩

theorem Moved.perform {steps steps' : List EntryStep}
    (h : List.Forall₂ (EntryStep.Moved R) steps steps') :
    Agree (fun _ _ => True) (j.perform steps).1 (j'.perform steps').1 ∧
      (j.perform steps).2.Moved R (j'.perform steps').2 := by
  induction h generalizing j j' with
  | nil => exact ⟨.ok trivial, hj⟩
  | @cons e e' rest rest' he _ ih =>
      obtain ⟨hresult, hnext⟩ := hj.step hR he
      unfold Joins.perform
      rcases hstep : j.step e with ⟨result, next⟩
      rcases hstep' : j'.step e' with ⟨result', next'⟩
      rw [hstep, hstep'] at hresult hnext
      cases hresult with
      | ok _ => exact ih hnext
      | error e e' => exact ⟨.error e e', hnext⟩

/-- **Regions at corresponding offsets prepare corresponding marks and labels.** -/
theorem Moved.addRegions (u : Universe) {regions regions' : List Region}
    (h : List.Forall₂ (Region.Moved R) regions regions') :
    Agree (fun _ _ => True) (j.addRegions u regions).1 (j'.addRegions u regions').1 ∧
      (j.addRegions u regions).2.Moved R (j'.addRegions u regions').2 := by
  refine hj.perform hR ?_
  -- All regions are looked at with the marks from the scan.
  induction h with
  | nil => exact .nil
  | cons hr _ ih =>
      rw [List.flatMap_cons, List.flatMap_cons]
      exact List.rel_append (hr.steps hR hj.mask u) ih

end Joins

end ManagedCode
