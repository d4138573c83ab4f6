import ManagedCode.Proofs.Labels.Bounds
import ManagedCode.Proofs.Labels.Store
import Mathlib.Data.List.Nodup

set_option autoImplicit false

/-! # What is found in a label store

Control finds labels by their offset, and `label?` is the view through which it sees the store. A
store changes in two ways, by a new label and by a change of one label, and each shows at one offset
only (`label?_push_fresh`, `Coherent.label?_modify`). From these come the views after an arrival
(`Coherent.label?_observe`, `Coherent.label?_reload`).
-/

namespace ManagedCode

namespace LabelStore

variable {s : LabelStore}

theorem Coherent.nodup_offsets (hs : s.Coherent) : (s.labels.toList.map (·.offset)).Nodup := by
  have hids : s.labels.toList.map (·.id) = List.range s.labels.size := by
    refine List.ext_getElem (by simp) fun i hi _ => ?_
    have hlt : i < s.labels.size := by simpa using hi
    simpa using hs.id_eq i hlt
  have hlabels : s.labels.toList.Nodup := List.Nodup.of_map _ (hids ▸ List.nodup_range)
  refine hlabels.map_on fun l hl l' hl' heq => ?_
  exact hs.offset_inj l (by simpa using hl) l' (by simpa using hl') heq

theorem firstUnresolved?_eq_none_iff :
    s.firstUnresolved? = none ↔ ∀ l ∈ s.labels, l.visited = true := by
  unfold firstUnresolved?
  rw [List.min?_eq_none_iff, List.map_eq_nil_iff, List.filter_eq_nil_iff]
  simp

/-! ## The two ways in which a store changes -/

/-- The label that is made at an offset. -/
def fresh (s : LabelStore) (offset : Nat) (snapshot : Slots) (seeded : Bool) : Label :=
  { id := s.size, offset, snapshot, seeded }

theorem label?_push_fresh {offset : Nat} (hnew : s.label? offset = none) (snapshot : Slots)
    (seeded : Bool) (o : Nat) :
    (s.push (s.fresh offset snapshot seeded)).label? o =
      if o = offset then some (s.fresh offset snapshot seeded) else s.label? o := by
  unfold label? at hnew ⊢
  rw [push, Array.find?_push]
  by_cases h : o = offset
  · subst h
    simp [hnew, fresh]
  · have h' : offset ≠ o := fun heq => h heq.symm
    simp [h, h', fresh]

theorem Coherent.label?_modify (hs : s.Coherent) {l : Label} (hl : s.label? l.offset = some l)
    {f : Label → Label} (hf : ∀ l, (f l).offset = l.offset) (offset : Nat) :
    (s.modify l.id f).label? offset =
      if offset = l.offset then some (f l) else s.label? offset := by
  have hfind : (s.modify l.id f).label? offset =
      (s.label? offset).map fun l' => if l'.id = l.id then f l' else l' := by
    have hkeep : ∀ l' : Label, (if l'.id = l.id then f l' else l').offset = l'.offset := by
      intro l'
      split
      · exact hf l'
      · rfl
    unfold label? modify
    rw [Array.find?_map]
    congr 2
    funext l'
    simp only [Function.comp_apply, hkeep]
  rw [hfind]
  by_cases h : offset = l.offset
  · rw [if_pos h, h, hl]
    simp
  · rw [if_neg h]
    cases hother : s.label? offset with
    | none => rfl
    | some l' =>
        -- Another offset has another label, and so another number.
        have hid : l'.id ≠ l.id := by
          intro hid
          obtain ⟨hmem, hoffset⟩ := hs.label?_eq_some_iff.mp hother
          obtain ⟨hmem', _⟩ := hs.label?_eq_some_iff.mp hl
          rw [hs.id_inj hmem hmem' hid] at hoffset
          exact h hoffset.symm
        simp [hid]

/-! ## Operations -/

theorem Coherent.label?_markVisited (hs : s.Coherent) {l : Label} (hl : s.label? l.offset = some l)
    (offset : Nat) :
    (s.markVisited l.id).label? offset =
      if offset = l.offset then some { l with visited := true } else s.label? offset := by
  unfold markVisited
  refine hs.label?_modify hl ?_ offset
  exact fun _ => rfl

theorem create_eq (s : LabelStore) (offset : Nat) (snapshot : Slots) (seeded : Bool) :
    s.create offset snapshot seeded =
      if s.size < s.bound then (.ok s.size, s.push (s.fresh offset snapshot seeded))
      else (.error .outOfMemory, s) := rfl

/-- **Where control arrived, a label is found**, and elsewhere what was found before. The label is new
and records the stack, or it is the one that was there, and records what the two unify to. -/
theorem Coherent.label?_observe (hs : s.Coherent) {u : Universe} {offset id : Nat}
    {incoming : Slots} {s' : LabelStore} (h : s.observe u offset incoming = (.ok id, s')) :
    ∃ l, l.id = id ∧ l.offset = offset ∧
      (∀ o, s'.label? o = if o = offset then some l else s.label? o) ∧
      (s.label? offset = none ∧ l.frozen = false ∧ l.snapshot = incoming ∨
        ∃ old, s.label? offset = some old ∧ l.frozen = old.frozen ∧
          old.snapshot.length = incoming.length ∧
          Slots.unify u old.frozen old.snapshot incoming = (l.snapshot, true)) := by
  unfold observe at h
  cases hfind : s.label? offset with
  | none =>
      simp only [hfind, create_eq] at h
      split at h
      · cases h
        exact ⟨_, rfl, rfl, label?_push_fresh hfind incoming false, .inl ⟨rfl, rfl, rfl⟩⟩
      · cases h
  | some old =>
      obtain ⟨_, rfl⟩ := hs.label?_eq_some_iff.mp hfind
      simp only [hfind] at h
      split at h
      · rename_i hlength
        simp only [Prod.mk.injEq] at h
        obtain ⟨hok, rfl⟩ := h
        split at hok
        · rename_i hagree
          cases hok
          refine ⟨{ old with snapshot := (Slots.unify u old.frozen old.snapshot incoming).1 }, rfl,
            rfl, hs.label?_modify hfind fun _ => rfl, .inr ⟨old, rfl, rfl, hlength, ?_⟩⟩
          exact Prod.ext rfl hagree
        · cases hok
      · cases h

/-- **Where control can only arrive by jumps, a label is found**, and elsewhere what was found
before. The label is new and records an empty stack, or it is the one that was there. -/
theorem Coherent.label?_reload (hs : s.Coherent) {offset id : Nat} {s' : LabelStore}
    (h : s.reload offset = (.ok id, s')) :
    ∃ l, l.id = id ∧ l.offset = offset ∧
      (∀ o, s'.label? o = if o = offset then some l else s.label? o) ∧
      (s.label? offset = none ∧ l.snapshot = [] ∨ s.label? offset = some l) := by
  unfold reload at h
  cases hfind : s.label? offset with
  | none =>
      simp only [hfind, create_eq] at h
      split at h
      · cases h
        exact ⟨_, rfl, rfl, label?_push_fresh hfind [] false, .inl ⟨rfl, rfl⟩⟩
      · cases h
  | some l =>
      obtain ⟨_, hoffset⟩ := hs.label?_eq_some_iff.mp hfind
      simp only [hfind] at h
      cases h
      refine ⟨l, rfl, hoffset, fun o => ?_, .inr rfl⟩
      by_cases ho : o = offset
      · rw [if_pos ho, ho, hfind]
      · rw [if_neg ho]

end LabelStore

end ManagedCode
