import ManagedCode.EntryPoint
import ManagedCode.Proofs.Code.Marks
import ManagedCode.Proofs.Labels.Lookup
import Mathlib.Data.Finset.Card
import Mathlib.Data.Finset.Dedup

set_option autoImplicit false

/-! # Which steps can be carried out

Steps are carried out one after the other, but what they come to does not depend on the order. They
can all be carried out exactly if none of them refuses, no two of them want different stacks at one
offset, and the offsets that have a stack are no more than there may be labels
(`EntryStep.Feasible`). Then the marks and labels that are there in the end are the ones that were
there before and the ones that some step asks for (`Joins.Records`).

Both are properties of the set of steps. `Joins.perform_feasible` proves them step by step, where the
steps that were carried out so far stand for the state.
-/

namespace ManagedCode

namespace EntryStep

/-! ## Steps that go together -/

/-- The offset at which the step wants a stack. -/
def seedOffset? : EntryStep → Option Nat
  | .seed offset _ => some offset
  | _ => none

/-- The offsets at which steps want stacks. -/
def seedOffsets (steps : List EntryStep) : Finset Nat := (steps.filterMap seedOffset?).toFinset

theorem mem_seedOffsets {steps : List EntryStep} {offset : Nat} :
    offset ∈ seedOffsets steps ↔ ∃ snapshot, .seed offset snapshot ∈ steps := by
  unfold seedOffsets
  rw [List.mem_toFinset, List.mem_filterMap]
  constructor
  · rintro ⟨s, hs, hoffset⟩
    cases s with
    | seed o snapshot =>
        cases hoffset
        exact ⟨snapshot, hs⟩
    | mark o | refuse reason => cases hoffset
  · rintro ⟨snapshot, hs⟩
    exact ⟨_, hs, rfl⟩

/-- The steps can be carried out together, with room for `bound` labels. -/
structure Feasible (bound : Nat) (steps : List EntryStep) : Prop where
  accepted : ∀ reason, .refuse reason ∉ steps
  agree : ∀ offset snapshot snapshot', .seed offset snapshot ∈ steps →
    .seed offset snapshot' ∈ steps → snapshot = snapshot'
  room : (seedOffsets steps).card ≤ bound

variable {bound : Nat} {steps steps' : List EntryStep}

theorem feasible_nil (bound : Nat) : Feasible bound [] :=
  ⟨by simp, by simp, Nat.zero_le bound⟩

theorem Feasible.mono (hsub : ∀ s ∈ steps', s ∈ steps) (h : Feasible bound steps) :
    Feasible bound steps' where
  accepted reason hs := h.accepted reason (hsub _ hs)
  agree offset snapshot snapshot' hs hs' := h.agree offset _ _ (hsub _ hs) (hsub _ hs')
  room := by
    refine Nat.le_trans (Finset.card_le_card fun offset hoffset => ?_) h.room
    obtain ⟨snapshot, hs⟩ := mem_seedOffsets.mp hoffset
    exact mem_seedOffsets.mpr ⟨snapshot, hsub _ hs⟩

theorem Feasible.of_append (h : Feasible bound (steps ++ steps')) : Feasible bound steps :=
  h.mono fun _ hs => List.mem_append_left steps' hs

theorem seedOffsets_append_seed (steps : List EntryStep) (offset : Nat) (snapshot : Slots) :
    seedOffsets (steps ++ [.seed offset snapshot]) = insert offset (seedOffsets steps) := by
  ext o
  simp only [mem_seedOffsets, Finset.mem_insert, List.mem_append, List.mem_singleton,
    EntryStep.seed.injEq]
  grind

/-- What one more step has to satisfy. -/
theorem feasible_append_iff {s : EntryStep} :
    Feasible bound (steps ++ [s]) ↔ Feasible bound steps ∧
      match s with
      | .mark _ => True
      | .refuse _ => False
      | .seed offset snapshot =>
          (∀ snapshot', .seed offset snapshot' ∈ steps → snapshot' = snapshot) ∧
            (insert offset (seedOffsets steps)).card ≤ bound := by
  cases s with
  | mark offset =>
      refine ⟨fun h => ⟨h.of_append, trivial⟩, fun h => ?_⟩
      obtain ⟨⟨haccepted, hagree, hroom⟩, _⟩ := h
      have hoffsets : seedOffsets (steps ++ [.mark offset]) = seedOffsets steps := by
        ext o
        simp [mem_seedOffsets]
      exact ⟨by simpa using haccepted, by simpa using hagree, hoffsets ▸ hroom⟩
  | refuse reason => simpa using fun h : Feasible bound _ => h.accepted reason (by simp)
  | seed offset snapshot =>
      constructor
      · intro h
        refine ⟨h.of_append, fun snapshot' hs => ?_, ?_⟩
        · exact h.agree offset snapshot' snapshot (by simp [hs]) (by simp)
        · exact seedOffsets_append_seed steps offset snapshot ▸ h.room
      · rintro ⟨⟨haccepted, hagree, _⟩, hsame, hroom⟩
        refine ⟨by simpa using haccepted, fun o x y hx hy => ?_, ?_⟩
        · simp only [List.mem_append, List.mem_singleton, EntryStep.seed.injEq] at hx hy
          rcases hx with hx | ⟨rfl, rfl⟩
          · rcases hy with hy | ⟨rfl, rfl⟩
            · exact hagree o x y hx hy
            · exact hsame x hx
          · rcases hy with hy | ⟨_, rfl⟩
            · exact (hsame y hy).symm
            · rfl
        · rw [seedOffsets_append_seed]
          exact hroom

/-- The order of the steps does not matter. -/
theorem Feasible.perm (hperm : steps.Perm steps') (h : Feasible bound steps) :
    Feasible bound steps' := h.mono fun _ hs => hperm.mem_iff.mpr hs

end EntryStep

namespace Joins

open EntryStep (Feasible seedOffsets mem_seedOffsets)

/-! ## What steps leave behind -/

/-- With room for `bound` labels, the marks are those of `mask` and those that the steps ask for,
and the labels are those that they ask for. -/
structure Records (mask : JumpMask) (bound : Nat) (steps : List EntryStep) (j : Joins) : Prop where
  size_eq : j.mask.size = mask.size
  starts_eq : j.mask.starts = mask.starts
  targets_bound : j.mask.targets.bound = mask.targets.bound
  special_bound : j.mask.special.bound = mask.special.bound
  isTarget_iff : ∀ offset, j.mask.isTarget offset = true ↔
    mask.isTarget offset = true ∨ .mark offset ∈ steps ∧ offset < mask.targets.bound
  isSpecial_iff : ∀ offset, j.mask.isSpecial offset = true ↔
    mask.isSpecial offset = true ∨ .mark offset ∈ steps ∧ offset < mask.special.bound
  coherent : j.labels.Coherent
  bound_eq : j.labels.bound = bound
  label_iff : ∀ offset snapshot, .seed offset snapshot ∈ steps ↔
    ∃ l ∈ j.labels.labels, l.offset = offset ∧ l.snapshot = snapshot
  seeded : ∀ l ∈ j.labels.labels, l.seeded = true
  unvisited : ∀ l ∈ j.labels.labels, l.visited = false

variable {mask : JumpMask} {bound : Nat} {done steps : List EntryStep} {j j' : Joins}

theorem records_empty (mask : JumpMask) (bound : Nat) :
    Records mask bound [] ⟨mask, { bound }⟩ where
  size_eq := rfl
  starts_eq := rfl
  targets_bound := rfl
  special_bound := rfl
  isTarget_iff := by simp
  isSpecial_iff := by simp
  coherent := LabelStore.coherent_empty bound
  bound_eq := rfl
  label_iff := by simp
  seeded := by simp
  unvisited := by simp

namespace Records

variable (hj : j.Records mask bound done)
include hj

/-- There is a label for each offset that has a stack. -/
theorem card_seedOffsets : (seedOffsets done).card = j.labels.size := by
  have heq : seedOffsets done = (j.labels.labels.toList.map (·.offset)).toFinset := by
    ext offset
    rw [mem_seedOffsets, List.mem_toFinset, List.mem_map]
    constructor
    · rintro ⟨snapshot, hs⟩
      obtain ⟨l, hl, hoffset, _⟩ := (hj.label_iff offset snapshot).mp hs
      exact ⟨l, by simpa using hl, hoffset⟩
    · rintro ⟨l, hl, hoffset⟩
      exact ⟨l.snapshot, (hj.label_iff offset _).mpr ⟨l, by simpa using hl, hoffset, rfl⟩⟩
  rw [heq, List.toFinset_card_of_nodup hj.coherent.nodup_offsets]
  simp [LabelStore.size]

theorem mark (offset : Nat) :
    Records mask bound (done ++ [.mark offset]) { j with mask := j.mask.markSpecial offset } where
  size_eq := hj.size_eq
  starts_eq := hj.starts_eq
  targets_bound := (OffsetSet.bound_insert _ _).trans hj.targets_bound
  special_bound := (OffsetSet.bound_insert _ _).trans hj.special_bound
  isTarget_iff o := by
    have hold : j.mask.targets.contains o = true ↔ _ := hj.isTarget_iff o
    simp only [JumpMask.isTarget, JumpMask.markSpecial, OffsetSet.contains_insert,
      Bool.or_eq_true, decide_eq_true_iff, List.mem_append, List.mem_singleton,
      EntryStep.mark.injEq, hold, hj.targets_bound]
    grind
  isSpecial_iff o := by
    have hold : j.mask.special.contains o = true ↔ _ := hj.isSpecial_iff o
    simp only [JumpMask.isSpecial, JumpMask.markSpecial, OffsetSet.contains_insert,
      Bool.or_eq_true, decide_eq_true_iff, List.mem_append, List.mem_singleton,
      EntryStep.mark.injEq, hold, hj.special_bound]
    grind
  coherent := hj.coherent
  bound_eq := hj.bound_eq
  label_iff offset snapshot := by
    rw [← hj.label_iff]
    simp
  seeded := hj.seeded
  unvisited := hj.unvisited

/-- The steps are the same, but some are given more often. -/
theorem congr (h : ∀ s, s ∈ steps ↔ s ∈ done) : j.Records mask bound steps where
  size_eq := hj.size_eq
  starts_eq := hj.starts_eq
  targets_bound := hj.targets_bound
  special_bound := hj.special_bound
  isTarget_iff offset := by rw [h, hj.isTarget_iff]
  isSpecial_iff offset := by rw [h, hj.isSpecial_iff]
  coherent := hj.coherent
  bound_eq := hj.bound_eq
  label_iff offset snapshot := by rw [h, hj.label_iff]
  seeded := hj.seeded
  unvisited := hj.unvisited

theorem push {offset : Nat} (hnew : j.labels.label? offset = none)
    (hroom : j.labels.size < j.labels.bound) (snapshot : Slots) :
    Records mask bound (done ++ [.seed offset snapshot])
      { j with labels := j.labels.push (j.labels.fresh offset snapshot true) } where
  size_eq := hj.size_eq
  starts_eq := hj.starts_eq
  targets_bound := hj.targets_bound
  special_bound := hj.special_bound
  isTarget_iff o := by simp [hj.isTarget_iff]
  isSpecial_iff o := by simp [hj.isSpecial_iff]
  coherent := LabelStore.coherent_push hj.coherent rfl hnew hroom
  bound_eq := hj.bound_eq
  label_iff o x := by
    simp only [List.mem_append, List.mem_singleton, EntryStep.seed.injEq, hj.label_iff,
      LabelStore.mem_push]
    constructor
    · rintro (⟨l, hl, hlabel⟩ | ⟨rfl, rfl⟩)
      · exact ⟨l, .inl hl, hlabel⟩
      · exact ⟨_, .inr rfl, rfl, rfl⟩
    · rintro ⟨l, hl | rfl, hoffset, hsnapshot⟩
      · exact .inl ⟨l, hl, hoffset, hsnapshot⟩
      · exact .inr ⟨hoffset.symm, hsnapshot.symm⟩
  seeded l hl := by
    rcases LabelStore.mem_push.mp hl with hold | rfl
    · exact hj.seeded l hold
    · rfl
  unvisited l hl := by
    rcases LabelStore.mem_push.mp hl with hold | rfl
    · exact hj.unvisited l hold
    · rfl

/-- **A step is carried out exactly if it goes together with those before it.** -/
theorem step_feasible (hdone : Feasible bound done) (s : EntryStep) :
    (∃ j', j.step s = (.ok (), j') ∧ j'.Records mask bound (done ++ [s])) ∧
        Feasible bound (done ++ [s]) ∨
      (∃ e j', j.step s = (.error e, j')) ∧ ¬ Feasible bound (done ++ [s]) := by
  rw [EntryStep.feasible_append_iff]
  cases s with
  | mark offset => exact .inl ⟨⟨_, rfl, hj.mark offset⟩, hdone, trivial⟩
  | refuse reason => exact .inr ⟨⟨reason, j, rfl⟩, fun h => h.2⟩
  | seed offset snapshot =>
      cases hfind : j.labels.label? offset with
      | none =>
          have hnew : offset ∉ seedOffsets done := by
            intro hmem
            obtain ⟨snapshot', hs⟩ := mem_seedOffsets.mp hmem
            obtain ⟨l, hl, hoffset, _⟩ := (hj.label_iff offset snapshot').mp hs
            exact LabelStore.label?_eq_none_iff.mp hfind l hl hoffset
          have hfree : ∀ snapshot', .seed offset snapshot' ∈ done → snapshot' = snapshot :=
            fun snapshot' hs => absurd (mem_seedOffsets.mpr ⟨snapshot', hs⟩) hnew
          have hcard : (insert offset (seedOffsets done)).card = j.labels.size + 1 := by
            rw [Finset.card_insert_of_notMem hnew, hj.card_seedOffsets]
          have hbound := hj.bound_eq
          by_cases hroom : j.labels.size < j.labels.bound
          · refine .inl ⟨⟨_, ?_, hj.push hfind hroom snapshot⟩, hdone, hfree, by omega⟩
            simp only [step, LabelStore.seed, hfind, LabelStore.create_eq, if_pos hroom]
            rfl
          · refine .inr ⟨⟨.outOfMemory, j, ?_⟩, fun h => ?_⟩
            · simp only [step, LabelStore.seed, hfind, LabelStore.create_eq, if_neg hroom]
              rfl
            · have hle := h.2.2
              omega
      | some l =>
          obtain ⟨hl, hoffset⟩ := hj.coherent.label?_eq_some_iff.mp hfind
          have hthere : .seed offset l.snapshot ∈ done :=
            (hj.label_iff offset l.snapshot).mpr ⟨l, hl, hoffset, rfl⟩
          have hcard : (insert offset (seedOffsets done)).card ≤ bound := by
            rw [Finset.insert_eq_of_mem (mem_seedOffsets.mpr ⟨l.snapshot, hthere⟩)]
            exact hdone.room
          by_cases hsnapshot : l.snapshot = snapshot
          · subst hsnapshot
            refine .inl ⟨⟨j, ?_, hj.congr fun s => ?_⟩, hdone, ?_, hcard⟩
            · simp only [step, LabelStore.seed, hfind, if_true]
              rfl
            · rw [List.mem_append, List.mem_singleton]
              exact ⟨fun hs => hs.elim id fun heq => heq ▸ hthere, .inl⟩
            · exact fun snapshot' hs => hdone.agree offset _ _ hs hthere
          · refine .inr ⟨⟨.stack offset .conflictingSeed, j, ?_⟩, fun h => ?_⟩
            · simp only [step, LabelStore.seed, hfind, if_neg hsnapshot]
              rfl
            · exact hsnapshot (h.2.1 _ hthere)

end Records

/-- **Steps are carried out exactly if they go together**, and leave behind what they ask for. -/
theorem perform_feasible (hj : j.Records mask bound done) (hdone : Feasible bound done)
    (steps : List EntryStep) :
    (∃ j', j.perform steps = (.ok (), j') ∧ j'.Records mask bound (done ++ steps)) ∧
        Feasible bound (done ++ steps) ∨
      (∃ e j', j.perform steps = (.error e, j')) ∧ ¬ Feasible bound (done ++ steps) := by
  induction steps generalizing j done with
  | nil =>
      rw [List.append_nil]
      exact .inl ⟨⟨j, rfl, hj⟩, hdone⟩
  | cons s rest ih =>
      rw [List.append_cons]
      unfold perform
      rcases hj.step_feasible hdone s with
        ⟨⟨next, hstep, hnext⟩, hfeasible⟩ | ⟨⟨e, next, hstep⟩, hnot⟩
      · simp only [hstep]
        exact ih hnext hfeasible
      · simp only [hstep]
        exact .inr ⟨⟨e, next, rfl⟩, fun h => hnot h.of_append⟩

theorem perform_eq_ok {result : Unit} (h : perform ⟨mask, { bound }⟩ steps = (.ok result, j)) :
    j.Records mask bound steps ∧ Feasible bound steps := by
  rcases perform_feasible (records_empty mask bound) (EntryStep.feasible_nil bound) steps with
    ⟨⟨j', heq, hrecords⟩, hfeasible⟩ | ⟨⟨e, j', heq⟩, _⟩
  · cases heq.symm.trans h
    exact ⟨hrecords, hfeasible⟩
  · cases heq.symm.trans h

end Joins

end ManagedCode
