import ManagedCode.Proofs.Labels.Agreement

set_option autoImplicit false

/-! # The label store, operation by operation

A store is `Coherent` when a label's number is its place, no two labels share an offset, and there
are no more labels than allowed. Every operation keeps that, whether it succeeds or fails.

What an operation does to the labels that are there is said through `LabelStore.Carries P s s'`:
every label of `s` is still in `s'`, changed as `P` allows. The lemmas `carries_seed`,
`carries_observe`, `carries_reload` and `carries_markVisited` say what `P` has to allow.
-/

namespace ManagedCode

/-- The snapshot of the label may not change any more. -/
def Label.frozen (l : Label) : Bool := l.visited || l.seeded

namespace LabelStore

/-! ## Coherent stores -/

/-- Numbers are places, offsets are unique, and the number of labels is bounded. -/
structure Coherent (s : LabelStore) : Prop where
  id_eq : ∀ i (h : i < s.labels.size), (s.labels[i]).id = i
  offset_inj : ∀ l ∈ s.labels, ∀ l' ∈ s.labels, l.offset = l'.offset → l = l'
  size_le : s.size ≤ s.bound

theorem coherent_empty (bound : Nat) : Coherent { bound } := by
  refine ⟨fun i h => ?_, fun l h => ?_, Nat.zero_le _⟩
  · exact absurd h (Nat.not_lt_zero i)
  · simp at h

section Coherent

variable {s : LabelStore} (hs : s.Coherent)
include hs

theorem Coherent.id_inj {l l' : Label} (hl : l ∈ s.labels) (hl' : l' ∈ s.labels)
    (h : l.id = l'.id) : l = l' := by
  obtain ⟨i, hi, rfl⟩ := Array.mem_iff_getElem.mp hl
  obtain ⟨j, hj, rfl⟩ := Array.mem_iff_getElem.mp hl'
  rw [hs.id_eq i hi, hs.id_eq j hj] at h
  subst h
  rfl

theorem Coherent.label?_eq_some_iff {offset : Nat} {l : Label} :
    s.label? offset = some l ↔ l ∈ s.labels ∧ l.offset = offset := by
  unfold label?
  constructor
  · intro h
    exact ⟨Array.mem_of_find?_eq_some h, by simpa using Array.find?_some h⟩
  · rintro ⟨hl, rfl⟩
    cases hfind : s.labels.find? (·.offset = l.offset) with
    | none =>
        have := Array.find?_eq_none.mp hfind l hl
        simp at this
    | some l' =>
        have hoffset : l'.offset = l.offset := by simpa using Array.find?_some hfind
        rw [hs.offset_inj l' (Array.mem_of_find?_eq_some hfind) l hl hoffset]

theorem Coherent.snapshot_id {l : Label} (hl : l ∈ s.labels) :
    s.snapshot l.id = l.snapshot := by
  unfold snapshot
  cases hfind : s.labels.find? (·.id = l.id) with
  | none =>
      have := Array.find?_eq_none.mp hfind l hl
      simp at this
  | some l' =>
      have hid : l'.id = l.id := by simpa using Array.find?_some hfind
      rw [hs.id_inj (Array.mem_of_find?_eq_some hfind) hl hid]
      rfl

end Coherent

theorem label?_eq_none_iff {s : LabelStore} {offset : Nat} :
    s.label? offset = none ↔ ∀ l ∈ s.labels, l.offset ≠ offset := by
  unfold label?
  simp [Array.find?_eq_none]

/-! ## The two ways in which a store changes -/

/-- A store with one more label. -/
def push (s : LabelStore) (l : Label) : LabelStore := { s with labels := s.labels.push l }

theorem mem_push {s : LabelStore} {l l' : Label} :
    l' ∈ (s.push l).labels ↔ l' ∈ s.labels ∨ l' = l := Array.mem_push

theorem mem_modify {s : LabelStore} {id : Nat} {f : Label → Label} {l' : Label} :
    l' ∈ (s.modify id f).labels ↔ ∃ l ∈ s.labels, (if l.id = id then f l else l) = l' := by
  simp only [modify, Array.mem_map]

theorem coherent_push {s : LabelStore} (hs : s.Coherent) {l : Label} (hid : l.id = s.size)
    (hoffset : s.label? l.offset = none) (hroom : s.size < s.bound) : (s.push l).Coherent := by
  have hnew := label?_eq_none_iff.mp hoffset
  refine ⟨?_, ?_, ?_⟩
  · intro i hi
    simp only [push, Array.getElem_push]
    split
    · exact hs.id_eq i _
    · have hi : i < s.labels.size + 1 := by simpa [push] using hi
      rw [hid, size]
      omega
  · intro a ha b hb h
    rcases mem_push.mp ha with hold | rfl
    · rcases mem_push.mp hb with hold' | rfl
      · exact hs.offset_inj a hold b hold' h
      · exact absurd h (hnew a hold)
    · rcases mem_push.mp hb with hold' | rfl
      · exact absurd h.symm (hnew b hold')
      · rfl
  · simp only [push, size, Array.size_push]
    exact hroom

theorem coherent_modify {s : LabelStore} (hs : s.Coherent) (id : Nat) {f : Label → Label}
    (hid : ∀ l, (f l).id = l.id) (hoffset : ∀ l, (f l).offset = l.offset) :
    (s.modify id f).Coherent := by
  have hkeep : ∀ l : Label, (if l.id = id then f l else l).offset = l.offset := by
    intro l
    split
    · exact hoffset l
    · rfl
  refine ⟨?_, ?_, ?_⟩
  · intro i hi
    have hi' : i < s.labels.size := by simpa [modify] using hi
    simp only [modify, Array.getElem_map]
    split
    · rw [hid, hs.id_eq i hi']
    · exact hs.id_eq i hi'
  · intro a ha b hb h
    obtain ⟨l, hl, rfl⟩ := mem_modify.mp ha
    obtain ⟨l', hl', rfl⟩ := mem_modify.mp hb
    rw [hkeep, hkeep] at h
    rw [hs.offset_inj l hl l' hl' h]
  · have := hs.size_le
    simpa only [size, modify, Array.size_map] using this

/-- Changing a label to itself changes nothing. -/
theorem modify_eq_self {s : LabelStore} (hs : s.Coherent) {l : Label} (hl : l ∈ s.labels)
    {f : Label → Label} (hf : f l = l) : s.modify l.id f = s := by
  have hmap : s.labels.map (fun l' => if l'.id = l.id then f l' else l') = s.labels := by
    apply Array.ext (by simp)
    intro i _ hi
    rw [Array.getElem_map]
    split
    · rename_i hid
      rw [hs.id_inj (Array.getElem_mem hi) hl hid, hf]
    · rfl
  unfold modify
  rw [hmap]

/-! ## Control that may arrive -/

/-- Control may arrive where there is no label yet, which records the stack then, or where there is
one that the stack agrees with. -/
theorem observe_eq_ok {s s' : LabelStore} {u : Universe} {offset id : Nat} {incoming : Slots}
    (h : s.observe u offset incoming = (.ok id, s')) :
    (∃ l : Label, l.id = id ∧ l.offset = offset ∧ l.snapshot = incoming ∧ s' = s.push l) ∨
      ∃ l, s.label? offset = some l ∧ l.id = id ∧ l.snapshot.length = incoming.length ∧
        (Slots.unify u l.frozen l.snapshot incoming).2 = true ∧
        s' = s.modify l.id fun l' =>
          { l' with snapshot := (Slots.unify u l.frozen l.snapshot incoming).1 } := by
  unfold observe at h
  split at h
  · unfold create at h
    split at h
    · cases h
      exact .inl ⟨_, rfl, rfl, rfl, rfl⟩
    · cases h
  · rename_i l hfind
    split at h
    · rename_i hlength
      simp only [Prod.mk.injEq] at h
      obtain ⟨hok, rfl⟩ := h
      split at hok
      · rename_i hagree
        cases hok
        exact .inr ⟨l, hfind, rfl, hlength, hagree, rfl⟩
      · cases hok
    · cases h

/-- The label at which control arrived. -/
theorem exists_of_observe {s s' : LabelStore} (hs : s.Coherent) {u : Universe} {offset id : Nat}
    {incoming : Slots} (h : s.observe u offset incoming = (.ok id, s')) :
    ∃ l ∈ s'.labels, l.id = id ∧ l.offset = offset := by
  rcases observe_eq_ok h with ⟨l, hid, hoffset, _, rfl⟩ | ⟨l, hfind, rfl, _, _, rfl⟩
  · exact ⟨l, mem_push.mpr (.inr rfl), hid, hoffset⟩
  · obtain ⟨hl, hoffset⟩ := hs.label?_eq_some_iff.mp hfind
    exact ⟨_, mem_modify.mpr ⟨l, hl, if_pos rfl⟩, rfl, hoffset⟩

theorem exists_of_reload {s s' : LabelStore} (hs : s.Coherent) {offset id : Nat}
    (h : s.reload offset = (.ok id, s')) : ∃ l ∈ s'.labels, l.id = id ∧ l.offset = offset := by
  unfold reload at h
  split at h
  · rename_i l hfind
    cases h
    obtain ⟨hl, hoffset⟩ := hs.label?_eq_some_iff.mp hfind
    exact ⟨l, hl, rfl, hoffset⟩
  · unfold create at h
    split at h
    · cases h
      exact ⟨_, mem_push.mpr (.inr rfl), rfl, rfl⟩
    · cases h

/-! ## What becomes of the labels that are there -/

/-- Every label of `s` is in `s'`, changed as `P` allows. -/
def Carries (P : Label → Label → Prop) (s s' : LabelStore) : Prop :=
  ∀ l ∈ s.labels, ∃ l' ∈ s'.labels, P l l'

section Carries

variable {P : Label → Label → Prop} (hrefl : ∀ l, P l l)
include hrefl

theorem carries_refl (s : LabelStore) : s.Carries P s := fun l hl => ⟨l, hl, hrefl l⟩

theorem carries_push (s : LabelStore) (l : Label) : s.Carries P (s.push l) :=
  fun l' hl' => ⟨l', mem_push.mpr (.inl hl'), hrefl l'⟩

theorem carries_modify (s : LabelStore) (id : Nat) (f : Label → Label)
    (hf : ∀ l ∈ s.labels, l.id = id → P l (f l)) : s.Carries P (s.modify id f) := by
  intro l hl
  refine ⟨if l.id = id then f l else l, mem_modify.mpr ⟨l, hl, rfl⟩, ?_⟩
  split
  · rename_i hid
    exact hf l hl hid
  · exact hrefl l

theorem carries_create (s : LabelStore) (offset : Nat) (snapshot : Slots) (seeded : Bool) :
    s.Carries P (s.create offset snapshot seeded).2 := by
  unfold create
  split
  · exact carries_push hrefl s _
  · exact carries_refl hrefl s

theorem carries_seed (s : LabelStore) (offset : Nat) (snapshot : Slots) :
    s.Carries P (s.seed offset snapshot).2 := by
  unfold seed
  split
  · exact carries_create hrefl s _ _ _
  · split <;> exact carries_refl hrefl s

theorem carries_reload (s : LabelStore) (offset : Nat) : s.Carries P (s.reload offset).2 := by
  unfold reload
  split
  · exact carries_refl hrefl s
  · exact carries_create hrefl s _ _ _

theorem carries_markVisited (s : LabelStore) (id : Nat)
    (hvisit : ∀ l ∈ s.labels, P l { l with visited := true }) :
    s.Carries P (s.markVisited id) :=
  carries_modify hrefl s id _ fun l hl _ => hvisit l hl

theorem carries_observe {s : LabelStore} (hs : s.Coherent) (u : Universe) (offset : Nat)
    (incoming : Slots)
    (hunify : ∀ l ∈ s.labels,
      P l { l with snapshot := (Slots.unify u l.frozen l.snapshot incoming).1 }) :
    s.Carries P (s.observe u offset incoming).2 := by
  unfold observe
  split
  · exact carries_create hrefl s _ _ _
  · rename_i l hfind
    have hl := (hs.label?_eq_some_iff.mp hfind).1
    split
    · refine carries_modify hrefl s l.id _ fun l' hl' hid => ?_
      rw [hs.id_inj hl' hl hid]
      exact hunify l hl
    · exact carries_refl hrefl s

end Carries

theorem Carries.trans {P : Label → Label → Prop} (htrans : ∀ a b c, P a b → P b c → P a c)
    {s t r : LabelStore} (hst : s.Carries P t) (htr : t.Carries P r) : s.Carries P r := by
  intro l hl
  obtain ⟨l', hl', h⟩ := hst l hl
  obtain ⟨l'', hl'', h'⟩ := htr l' hl'
  exact ⟨l'', hl'', htrans l l' l'' h h'⟩

/-! ## Coherence is kept -/

section CoherentSteps

variable {s : LabelStore} (hs : s.Coherent)
include hs

theorem coherent_create {offset : Nat} (hnew : s.label? offset = none) (snapshot : Slots)
    (seeded : Bool) : (s.create offset snapshot seeded).2.Coherent := by
  unfold create
  split
  · rename_i hroom
    exact coherent_push hs rfl hnew hroom
  · exact hs

theorem coherent_seed (offset : Nat) (snapshot : Slots) :
    (s.seed offset snapshot).2.Coherent := by
  unfold seed
  split
  · rename_i hnew
    exact coherent_create hs hnew _ _
  · split <;> exact hs

theorem coherent_reload (offset : Nat) : (s.reload offset).2.Coherent := by
  unfold reload
  split
  · exact hs
  · rename_i hnew
    exact coherent_create hs hnew _ _

theorem coherent_observe (u : Universe) (offset : Nat) (incoming : Slots) :
    (s.observe u offset incoming).2.Coherent := by
  unfold observe
  split
  · rename_i hnew
    exact coherent_create hs hnew _ _
  · split
    · exact coherent_modify hs _ (fun _ => rfl) (fun _ => rfl)
    · exact hs

theorem Coherent.of_observe {u : Universe} {offset : Nat} {incoming : Slots}
    {result : Except Rejection Nat} {s' : LabelStore}
    (h : s.observe u offset incoming = (result, s')) : s'.Coherent := by
  have hcoherent := coherent_observe hs u offset incoming
  rwa [h] at hcoherent

theorem coherent_markVisited (id : Nat) : (s.markVisited id).Coherent :=
  coherent_modify hs id (fun _ => rfl) (fun _ => rfl)

end CoherentSteps

/-! ## Where labels lie -/

/-- All labels lie at offsets that satisfy `P`. -/
def Within (P : Nat → Prop) (s : LabelStore) : Prop := ∀ l ∈ s.labels, P l.offset

section Within

variable {P : Nat → Prop} {s : LabelStore} (hs : s.Within P)
include hs

theorem within_create {offset : Nat} (h : P offset) (snapshot : Slots) (seeded : Bool) :
    (s.create offset snapshot seeded).2.Within P := by
  unfold create
  split
  · intro l hl
    rcases mem_push.mp hl with hold | rfl
    · exact hs l hold
    · exact h
  · exact hs

theorem within_modify (id : Nat) {f : Label → Label} (hf : ∀ l, (f l).offset = l.offset) :
    (s.modify id f).Within P := by
  intro l' hl'
  obtain ⟨l, hl, rfl⟩ := mem_modify.mp hl'
  split
  · rw [hf]
    exact hs l hl
  · exact hs l hl

theorem within_reload {offset : Nat} (h : P offset) : (s.reload offset).2.Within P := by
  unfold reload
  split
  · exact hs
  · exact within_create hs h _ _

theorem within_observe (u : Universe) {offset : Nat} (h : P offset) (incoming : Slots) :
    (s.observe u offset incoming).2.Within P := by
  unfold observe
  split
  · exact within_create hs h _ _
  · split
    · exact within_modify hs _ fun _ => rfl
    · exact hs

theorem within_markVisited (id : Nat) : (s.markVisited id).Within P :=
  within_modify hs id fun _ => rfl

end Within

end LabelStore

end ManagedCode
