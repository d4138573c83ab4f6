import ManagedCode.JumpMask
import ManagedCode.Proofs.Checks
import ManagedCode.Proofs.Code.OffsetSets

set_option autoImplicit false

/-! # What a jump mask says about code

Marks are only added, never taken away (`JumpMask.Extends`). A pass over a list of instructions adds
their offsets and their targets and nothing else (`JumpMask.Gains`), or it fails at a target outside
the code. When a listing has a mask, every target of an instruction is marked, whatever is marked as
a target is marked as a start, and starts are offsets of instructions:
`JumpMask.ofListing_eq_ok`.
-/

namespace ManagedCode

namespace JumpMask

/-! ## More marks -/

/-- `m'` marks the same code as `m`, and at least the same targets. -/
structure Extends (m m' : JumpMask) : Prop where
  size_eq : m'.size = m.size
  bound_eq : m'.targets.bound = m.targets.bound
  isTarget : ∀ offset, m.isTarget offset = true → m'.isTarget offset = true

/-! ## Scanning -/

variable {m m' m'' : JumpMask}

/-- There are as many places for marks as there are bytes of code. -/
structure Spans (m : JumpMask) : Prop where
  starts : m.starts.bound = m.size
  targets : m.targets.bound = m.size

theorem spans_empty (size : Nat) : (empty size).Spans := ⟨rfl, rfl⟩

/-- `m'` has the marks of `m` and in addition the given starts and targets, all of them targets
inside the code. -/
structure Gains (m : JumpMask) (starts : List Nat) (targets : List Int) (m' : JumpMask) : Prop where
  size_eq : m'.size = m.size
  spans : m'.Spans
  special_eq : m'.special = m.special
  inside : ∀ target ∈ targets, 0 ≤ target ∧ target < m.size
  isStart_iff : ∀ offset, m'.isStart offset = true ↔
    m.isStart offset = true ∨ offset ∈ starts ∧ offset < m.size
  isTarget_iff : ∀ offset : Nat, m'.isTarget offset = true ↔
    m.isTarget offset = true ∨ (offset : Int) ∈ targets

theorem gains_refl (hm : m.Spans) : m.Gains [] [] m := by
  refine ⟨rfl, hm, rfl, ?_, ?_, ?_⟩ <;> simp

theorem Gains.trans {starts starts' : List Nat} {targets targets' : List Int}
    (h : m.Gains starts targets m') (h' : m'.Gains starts' targets' m'') :
    m.Gains (starts ++ starts') (targets ++ targets') m'' where
  size_eq := h'.size_eq.trans h.size_eq
  spans := h'.spans
  special_eq := h'.special_eq.trans h.special_eq
  inside := by
    have hinside' := h'.inside
    rw [h.size_eq] at hinside'
    intro target htarget
    rcases List.mem_append.mp htarget with htarget | htarget
    · exact h.inside target htarget
    · exact hinside' target htarget
  isStart_iff offset := by
    rw [h'.isStart_iff, h.isStart_iff, h.size_eq, List.mem_append, or_and_right, or_assoc]
  isTarget_iff offset := by
    rw [h'.isTarget_iff, h.isTarget_iff, List.mem_append, or_assoc]

theorem gains_markStart (hm : m.Spans) (offset : Nat) :
    m.Gains [offset] [] (m.markStart offset) := by
  refine ⟨rfl, ⟨?_, hm.targets⟩, rfl, by simp, fun o => ?_, fun o => ?_⟩
  · exact (OffsetSet.bound_insert _ _).trans hm.starts
  · simp only [isStart, markStart, OffsetSet.contains_insert, Bool.or_eq_true, decide_eq_true_iff,
      List.mem_singleton, hm.starts]
    refine or_congr_right ⟨?_, ?_⟩
    · rintro ⟨rfl, hlt⟩
      exact ⟨rfl, hlt⟩
    · rintro ⟨rfl, hlt⟩
      exact ⟨rfl, hlt⟩
  · simp [isTarget, markStart]

theorem gains_markTarget (hm : m.Spans) {target : Int} (h : 0 ≤ target ∧ target < m.size) :
    m.Gains [] [target] (m.markTarget target.toNat) := by
  refine ⟨rfl, ⟨hm.starts, ?_⟩, rfl, by simpa using h, fun o => ?_, fun o => ?_⟩
  · exact (OffsetSet.bound_insert _ _).trans hm.targets
  · simp [isStart, markTarget]
  · simp only [isTarget, markTarget, OffsetSet.contains_insert, Bool.or_eq_true,
      decide_eq_true_iff, List.mem_singleton, hm.targets]
    refine or_congr_right ?_
    omega

/-- Targets inside the code are marked, and nothing else is. -/
theorem addTargets_gains {source : Nat} {targets : List Int} (hm : m.Spans)
    (h : targets.foldlM (addTarget source) m = .ok m') : m.Gains [] targets m' := by
  induction targets generalizing m with
  | nil =>
      cases h
      exact gains_refl hm
  | cons target targets ih =>
      rw [List.foldlM_cons] at h
      obtain ⟨marked, hmark, h⟩ := bind_eq_ok h
      unfold addTarget at hmark
      split at hmark
      · rename_i hinside
        cases hmark
        have hfirst := gains_markTarget hm hinside
        exact hfirst.trans (ih hfirst.spans h)
      · cases hmark

/-- The first target outside the code is the one that is named. -/
theorem addTargets_eq_error {source : Nat} {targets : List Int} (hm : m.Spans) {e : Rejection}
    (h : targets.foldlM (addTarget source) m = .error e) :
    ∃ target ∈ targets, ¬ (0 ≤ target ∧ target < m.size) ∧ e = .branchOutOfRange source target := by
  induction targets generalizing m with
  | nil => cases h
  | cons target targets ih =>
      rw [List.foldlM_cons] at h
      by_cases hinside : 0 ≤ target ∧ target < m.size
      · have hfirst := gains_markTarget hm hinside
        have hmark : addTarget source m target = .ok (m.markTarget target.toNat) := if_pos hinside
        rw [hmark] at h
        obtain ⟨outside, hmem, hrange, he⟩ := ih hfirst.spans h
        exact ⟨outside, List.mem_cons_of_mem target hmem, hrange, he⟩
      · have hmark : addTarget source m target = .error (.branchOutOfRange source target) :=
          if_neg hinside
        rw [hmark] at h
        cases h
        exact ⟨target, List.mem_cons_self, hinside, rfl⟩

theorem addInstruction_gains {i : Instruction} (hm : m.Spans) (h : addInstruction m i = .ok m') :
    m.Gains [i.offset] i.targets m' := by
  have hstart := gains_markStart hm i.offset
  exact hstart.trans (addTargets_gains hstart.spans h)

/-- Instructions are marked with their targets. -/
theorem addInstructions_gains {instructions : List Instruction} (hm : m.Spans)
    (h : instructions.foldlM addInstruction m = .ok m') :
    m.Gains (instructions.map (·.offset)) (instructions.flatMap (·.targets)) m' := by
  induction instructions generalizing m with
  | nil =>
      cases h
      exact gains_refl hm
  | cons i rest ih =>
      rw [List.foldlM_cons] at h
      obtain ⟨marked, hmark, h⟩ := bind_eq_ok h
      have hfirst := addInstruction_gains hm hmark
      exact hfirst.trans (ih hfirst.spans h)

/-- Instructions are marked up to the first with a target outside the code. -/
theorem addInstructions_eq_error {instructions : List Instruction} (hm : m.Spans) {e : Rejection}
    (h : instructions.foldlM addInstruction m = .error e) :
    ∃ i ∈ instructions, ∃ target ∈ i.targets,
      ¬ (0 ≤ target ∧ target < m.size) ∧ e = .branchOutOfRange i.offset target := by
  induction instructions generalizing m with
  | nil => cases h
  | cons i rest ih =>
      rw [List.foldlM_cons] at h
      cases hmark : addInstruction m i with
      | error e' =>
          rw [hmark] at h
          cases h
          exact ⟨i, List.mem_cons_self,
            addTargets_eq_error (gains_markStart hm i.offset).spans hmark⟩
      | ok marked =>
          rw [hmark] at h
          have hfirst := addInstruction_gains hm hmark
          obtain ⟨j, hj, target, htarget, hrange, he⟩ := ih hfirst.spans h
          rw [hfirst.size_eq] at hrange
          exact ⟨j, List.mem_cons_of_mem i hj, target, htarget, hrange, he⟩

/-! ## The mask of a listing -/

/-- What the mask of a listing says about its instructions. -/
structure Describes (m : JumpMask) (instructions : List Instruction) : Prop where
  bound_eq : m.targets.bound = m.size
  starts : ∀ offset, m.isStart offset = true → ∃ i ∈ instructions, i.offset = offset
  targets : ∀ i ∈ instructions, ∀ target ∈ i.targets,
    ∃ offset : Nat, (offset : Int) = target ∧ m.isTarget offset = true
  isStart_of_isTarget : ∀ offset, m.isTarget offset = true → m.isStart offset = true

theorem Spans.bound_eq (hm : m.Spans) : m.targets.bound = m.starts.bound :=
  hm.targets.trans hm.starts.symm

/-- A listing with a mask has been read to its end, and the mask has the marks of its instructions
and no others. -/
theorem ofListing_gains {size : Nat} {listing : Listing} (h : ofListing size listing = .ok m) :
    listing.fault = none ∧ m.targets.firstNotIn m.starts = none ∧
      (empty size).Gains (listing.instructions.map (·.offset))
        (listing.instructions.flatMap (·.targets)) m := by
  unfold ofListing at h
  obtain ⟨mask, hfold, h⟩ := bind_eq_ok h
  split at h
  · cases h
  · rename_i hfault
    split at h
    · cases h
    · rename_i hinside
      cases h
      exact ⟨hfault, hinside, addInstructions_gains (spans_empty size) hfold⟩

/-- **The mask of a listing describes it**, and a listing with a mask has been read to its end. -/
theorem ofListing_eq_ok {size : Nat} {listing : Listing} (h : ofListing size listing = .ok m) :
    listing.fault = none ∧ m.size = size ∧ m.Describes listing.instructions := by
  obtain ⟨hfault, hfirst, hgains⟩ := ofListing_gains h
  refine ⟨hfault, hgains.size_eq, hgains.spans.targets, ?_, ?_, ?_⟩
  · intro offset hoffset
    rcases (hgains.isStart_iff offset).mp hoffset with hold | ⟨hmem, _⟩
    · simp [isStart, empty] at hold
    · exact List.mem_map.mp hmem
  · intro i hi target htarget
    have hmem : target ∈ listing.instructions.flatMap (·.targets) :=
      List.mem_flatMap.mpr ⟨i, hi, htarget⟩
    have hoffset : (target.toNat : Int) = target :=
      Int.toNat_of_nonneg (hgains.inside target hmem).1
    refine ⟨target.toNat, hoffset, (hgains.isTarget_iff _).mpr (.inr ?_)⟩
    rw [hoffset]
    exact hmem
  · intro offset hoffset
    exact (OffsetSet.firstNotIn_eq_none_iff hgains.spans.bound_eq).mp hfirst offset hoffset

end JumpMask

end ManagedCode
