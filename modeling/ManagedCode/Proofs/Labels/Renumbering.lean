import ManagedCode.Proofs.Checks
import ManagedCode.Proofs.Labels.Lookup

set_option autoImplicit false

/-! # Labels with other numbers

Labels are numbered in the order in which they are made, and nothing else depends on that order. Two
stores that have the same labels under other numbers (`LabelStore.Renumbered`) answer every question
alike, and still have the same labels afterwards.
-/

namespace ManagedCode

/-- The labels are the same but for their numbers. -/
structure Label.Alike (l l' : Label) : Prop where
  offset_eq : l.offset = l'.offset
  snapshot_eq : l.snapshot = l'.snapshot
  visited_eq : l.visited = l'.visited
  seeded_eq : l.seeded = l'.seeded

namespace LabelStore

/-- The stores have the same labels, under other numbers. -/
structure Renumbered (s s' : LabelStore) : Prop where
  left : s.Coherent
  right : s'.Coherent
  bound_eq : s.bound = s'.bound
  size_eq : s.size = s'.size
  label? : ∀ offset, Option.Rel Label.Alike (s.label? offset) (s'.label? offset)

/-- The labels that have these numbers lie at the same offset. -/
def SameOffset (s s' : LabelStore) (id id' : Nat) : Prop :=
  ∃ l ∈ s.labels, ∃ l' ∈ s'.labels, l.id = id ∧ l'.id = id' ∧ l.offset = l'.offset

namespace Renumbered

variable {s s' : LabelStore} (h : s.Renumbered s')
include h

/-- There is a label at an offset in one store if there is one in the other. -/
theorem label?_cases (offset : Nat) :
    s.label? offset = none ∧ s'.label? offset = none ∨
      ∃ l l', s.label? offset = some l ∧ s'.label? offset = some l' ∧ l.Alike l' := by
  have hrel := h.label? offset
  generalize s.label? offset = found at hrel ⊢
  generalize s'.label? offset = found' at hrel ⊢
  cases hrel with
  | none => exact .inl ⟨rfl, rfl⟩
  | some halike => exact .inr ⟨_, _, rfl, rfl, halike⟩

theorem symm : s'.Renumbered s := by
  refine ⟨h.right, h.left, h.bound_eq.symm, h.size_eq.symm, fun offset => ?_⟩
  rcases h.label?_cases offset with ⟨hnone, hnone'⟩ | ⟨l, l', hsome, hsome', halike⟩
  · rw [hnone, hnone']
    exact .none
  · rw [hsome, hsome']
    exact .some ⟨halike.offset_eq.symm, halike.snapshot_eq.symm, halike.visited_eq.symm,
      halike.seeded_eq.symm⟩

theorem exists_alike {l : Label} (hl : l ∈ s.labels) : ∃ l' ∈ s'.labels, l.Alike l' := by
  have hfind : s.label? l.offset = some l := h.left.label?_eq_some_iff.mpr ⟨hl, rfl⟩
  rcases h.label?_cases l.offset with ⟨hnone, _⟩ | ⟨l₁, l', hsome, hsome', halike⟩
  · rw [hnone] at hfind
    cases hfind
  · rw [hfind] at hsome
    cases hsome
    exact ⟨l', (h.right.label?_eq_some_iff.mp hsome').1, halike⟩

/-- Labels at the same offset are alike. -/
theorem alike {l l' : Label} (hl : l ∈ s.labels) (hl' : l' ∈ s'.labels)
    (hoffset : l.offset = l'.offset) : l.Alike l' := by
  obtain ⟨l₁, hl₁, halike⟩ := h.exists_alike hl
  have heq : l₁ = l' := h.right.offset_inj l₁ hl₁ l' hl' (halike.offset_eq.symm.trans hoffset)
  rw [← heq]
  exact halike

/-! ## The two ways in which a store changes -/

theorem push {offset : Nat} (hnew : s.label? offset = none) (hroom : s.size < s.bound)
    (snapshot : Slots) (seeded : Bool) :
    (s.push (s.fresh offset snapshot seeded)).Renumbered
      (s'.push (s'.fresh offset snapshot seeded)) := by
  have hnew' : s'.label? offset = none := by
    rcases h.label?_cases offset with ⟨_, hnone'⟩ | ⟨l, _, hsome, _⟩
    · exact hnone'
    · rw [hnew] at hsome
      cases hsome
  have hroom' : s'.size < s'.bound := by
    rw [← h.size_eq, ← h.bound_eq]
    exact hroom
  have hsize : s.labels.size = s'.labels.size := h.size_eq
  refine ⟨coherent_push h.left rfl hnew hroom, coherent_push h.right rfl hnew' hroom',
    h.bound_eq, ?_, fun o => ?_⟩
  · simp only [size, LabelStore.push, Array.size_push, hsize]
  · rw [label?_push_fresh hnew, label?_push_fresh hnew']
    by_cases ho : o = offset
    · rw [if_pos ho, if_pos ho]
      exact .some ⟨rfl, rfl, rfl, rfl⟩
    · rw [if_neg ho, if_neg ho]
      exact h.label? o

theorem modify {l l' : Label} (hl : l ∈ s.labels) (hl' : l' ∈ s'.labels)
    (hoffset : l.offset = l'.offset) {f : Label → Label}
    (hid : ∀ l, (f l).id = l.id) (hf : ∀ l, (f l).offset = l.offset)
    (halike : (f l).Alike (f l')) : (s.modify l.id f).Renumbered (s'.modify l'.id f) := by
  have hfind : s.label? l.offset = some l := h.left.label?_eq_some_iff.mpr ⟨hl, rfl⟩
  have hfind' : s'.label? l'.offset = some l' := h.right.label?_eq_some_iff.mpr ⟨hl', rfl⟩
  refine ⟨coherent_modify h.left _ hid hf, coherent_modify h.right _ hid hf, h.bound_eq, ?_,
    fun o => ?_⟩
  · rw [size_modify, size_modify]
    exact h.size_eq
  · rw [h.left.label?_modify hfind hf, h.right.label?_modify hfind' hf, hoffset]
    by_cases ho : o = l'.offset
    · simp only [if_pos ho]
      exact .some halike
    · simp only [if_neg ho]
      exact h.label? o

/-! ## Operations -/

theorem snapshot_eq {id id' : Nat} (hsame : s.SameOffset s' id id') :
    s.snapshot id = s'.snapshot id' := by
  obtain ⟨l, hl, l', hl', rfl, rfl, hoffset⟩ := hsame
  rw [h.left.snapshot_id hl, h.right.snapshot_id hl', (h.alike hl hl' hoffset).snapshot_eq]

theorem markVisited {id id' : Nat} (hsame : s.SameOffset s' id id') :
    (s.markVisited id).Renumbered (s'.markVisited id') := by
  obtain ⟨l, hl, l', hl', rfl, rfl, hoffset⟩ := hsame
  have halike := h.alike hl hl' hoffset
  exact h.modify hl hl' hoffset (fun _ => rfl) (fun _ => rfl)
    ⟨hoffset, halike.snapshot_eq, rfl, halike.seeded_eq⟩

theorem create {offset : Nat} (hnew : s.label? offset = none) (snapshot : Slots)
    (seeded : Bool) :
    Agree ((s.create offset snapshot seeded).2.SameOffset (s'.create offset snapshot seeded).2)
        (s.create offset snapshot seeded).1 (s'.create offset snapshot seeded).1 ∧
      (s.create offset snapshot seeded).2.Renumbered (s'.create offset snapshot seeded).2 := by
  rw [create_eq, create_eq]
  by_cases hroom : s.size < s.bound
  · have hroom' : s'.size < s'.bound := by
      rw [← h.size_eq, ← h.bound_eq]
      exact hroom
    simp only [if_pos hroom, if_pos hroom']
    refine ⟨.ok ?_, h.push hnew hroom snapshot seeded⟩
    exact ⟨_, mem_push.mpr (.inr rfl), _, mem_push.mpr (.inr rfl), rfl, rfl, rfl⟩
  · have hfull : ¬ s'.size < s'.bound := by
      rw [← h.size_eq, ← h.bound_eq]
      exact hroom
    simp only [if_neg hroom, if_neg hfull]
    exact ⟨.error _ _, h⟩

theorem reload (offset : Nat) :
    Agree ((s.reload offset).2.SameOffset (s'.reload offset).2) (s.reload offset).1
        (s'.reload offset).1 ∧
      (s.reload offset).2.Renumbered (s'.reload offset).2 := by
  unfold LabelStore.reload
  rcases h.label?_cases offset with ⟨hnone, hnone'⟩ | ⟨l, l', hsome, hsome', halike⟩
  · simp only [hnone, hnone']
    exact h.create hnone _ _
  · obtain ⟨hl, _⟩ := h.left.label?_eq_some_iff.mp hsome
    obtain ⟨hl', _⟩ := h.right.label?_eq_some_iff.mp hsome'
    simp only [hsome, hsome']
    exact ⟨.ok ⟨l, hl, l', hl', rfl, rfl, halike.offset_eq⟩, h⟩

/-- **Control arrives alike, whatever the labels are called.** -/
theorem observe (u : Universe) (offset : Nat) (incoming : Slots) :
    Agree ((s.observe u offset incoming).2.SameOffset (s'.observe u offset incoming).2)
        (s.observe u offset incoming).1 (s'.observe u offset incoming).1 ∧
      (s.observe u offset incoming).2.Renumbered (s'.observe u offset incoming).2 := by
  unfold LabelStore.observe
  rcases h.label?_cases offset with ⟨hnone, hnone'⟩ | ⟨l, l', hsome, hsome', halike⟩
  · simp only [hnone, hnone']
    exact h.create hnone _ _
  · obtain ⟨hl, _⟩ := h.left.label?_eq_some_iff.mp hsome
    obtain ⟨hl', _⟩ := h.right.label?_eq_some_iff.mp hsome'
    simp only [hsome, hsome', halike.snapshot_eq, halike.visited_eq, halike.seeded_eq]
    split
    · refine ⟨?_, ?_⟩
      · split
        · exact .ok ⟨_, mem_modify.mpr ⟨l, hl, if_pos rfl⟩, _,
            mem_modify.mpr ⟨l', hl', if_pos rfl⟩, rfl, rfl, halike.offset_eq⟩
        · exact .error _ _
      · exact h.modify hl hl' halike.offset_eq (fun _ => rfl) (fun _ => rfl)
          ⟨halike.offset_eq, rfl, halike.visited_eq, halike.seeded_eq⟩
    · exact ⟨.error _ _, h⟩

/-- All labels of one store were reached if all of the other were. -/
theorem firstUnresolved? : s.firstUnresolved? = none ↔ s'.firstUnresolved? = none := by
  rw [firstUnresolved?_eq_none_iff, firstUnresolved?_eq_none_iff]
  constructor
  · intro hs l' hl'
    obtain ⟨l, hl, halike⟩ := h.symm.exists_alike hl'
    exact halike.visited_eq.trans (hs l hl)
  · intro hs l hl
    obtain ⟨l', hl', halike⟩ := h.exists_alike hl
    exact halike.visited_eq.trans (hs l' hl')

end Renumbered

end LabelStore

end ManagedCode
