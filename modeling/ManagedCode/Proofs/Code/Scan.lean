import ManagedCode.Proofs.Code.Listing
import ManagedCode.Proofs.Code.Marks

set_option autoImplicit false

/-! # Scanning is exact

Scanning looks for two kinds of bad targets in two ways: targets outside the code on the way, and
targets inside an instruction when all starts are known, where the jump that is to blame has to be
found once more. Together the two accept exactly the code that is read to its end and jumps to
nothing but its own instructions (`Listing.Closed`), the marks say exactly where instructions start
and where jumps lead (`JumpMask.Exact`), and a rejection names a fault that is there
(`Rejection.TrueOf`).
-/

namespace ManagedCode

namespace Listing

/-- An instruction of the listing starts at the target. -/
def StartsAt (listing : Listing) (target : Int) : Prop :=
  ∃ i ∈ listing.instructions, (i.offset : Int) = target

/-- The code was read to its end, and every jump leads to an instruction. -/
structure Closed (listing : Listing) : Prop where
  fault_eq : listing.fault = none
  startsAt : ∀ i ∈ listing.instructions, ∀ target ∈ i.targets, listing.StartsAt target

end Listing

/-- What a scan blames is there: an instruction that cannot be read, or a jump to a place where no
instruction starts, be it inside an instruction or outside the code. -/
def Rejection.TrueOf (listing : Listing) : Rejection → Prop
  | .truncated offset => listing.fault = some (.truncated offset)
  | .invalidOpcode offset => listing.fault = some (.invalidOpcode offset)
  | .branchOutOfRange offset target =>
      ∃ i ∈ listing.instructions,
        i.offset = offset ∧ target ∈ i.targets ∧ ¬ listing.StartsAt target
  | _ => False

namespace JumpMask

/-- The marks say where instructions start and where jumps lead, and nothing else. -/
structure Exact (m : JumpMask) (instructions : List Instruction) : Prop where
  isStart_iff : ∀ offset, m.isStart offset = true ↔ ∃ i ∈ instructions, i.offset = offset
  isTarget_iff : ∀ offset : Nat, m.isTarget offset = true ↔
    ∃ i ∈ instructions, (offset : Int) ∈ i.targets
  isSpecial_eq : ∀ offset, m.isSpecial offset = false

variable {m : JumpMask} {code : Code}

/-- The marks that were made for all instructions of the code are exact. -/
theorem Gains.exact
    (h : (empty code.length).Gains ((disassemble code).instructions.map (·.offset))
      ((disassemble code).instructions.flatMap (·.targets)) m) :
    m.Exact (disassemble code).instructions where
  isStart_iff offset := by
    have hnone : (empty code.length).isStart offset = false := OffsetSet.contains_empty _ _
    rw [h.isStart_iff, hnone, List.mem_map]
    constructor
    · rintro (hfalse | ⟨hstart, _⟩)
      · cases hfalse
      · exact hstart
    · rintro ⟨i, hi, rfl⟩
      exact .inr ⟨⟨i, hi, rfl⟩, offset_lt_length code i hi⟩
  isTarget_iff offset := by
    have hnone : (empty code.length).isTarget offset = false := OffsetSet.contains_empty _ _
    rw [h.isTarget_iff, hnone, List.mem_flatMap]
    simp
  isSpecial_eq offset := by
    unfold isSpecial
    rw [h.special_eq]
    exact OffsetSet.contains_empty _ _

theorem scan_eq_ok (h : scan code = .ok m) :
    (disassemble code).Closed ∧ m.Exact (disassemble code).instructions := by
  obtain ⟨hfault, _, hgains⟩ := ofListing_gains h
  obtain ⟨_, _, hdescribes⟩ := ofListing_eq_ok h
  refine ⟨⟨hfault, fun i hi target htarget => ?_⟩, hgains.exact⟩
  obtain ⟨offset, hoffset, hmarked⟩ := hdescribes.targets i hi target htarget
  have hstart := hdescribes.isStart_of_isTarget offset hmarked
  obtain ⟨j, hj, hat⟩ := hdescribes.starts offset hstart
  exact ⟨j, hj, by omega⟩

/-- The jump to blame for a target is found among the instructions. -/
theorem sourceOf_eq {instructions : List Instruction} {target : Nat}
    (h : ∃ i ∈ instructions, (target : Int) ∈ i.targets) :
    ∃ i ∈ instructions, i.offset = sourceOf instructions target ∧ (target : Int) ∈ i.targets := by
  obtain ⟨i, hi, htarget⟩ := h
  unfold sourceOf
  cases hfind : instructions.find? fun i => (target : Int) ∈ i.targets with
  | none =>
      have hno := List.find?_eq_none.mp hfind i hi
      simp [htarget] at hno
  | some j =>
      have hj : (target : Int) ∈ j.targets := by simpa using List.find?_some hfind
      exact ⟨j, List.mem_of_find?_eq_some hfind, rfl, hj⟩

theorem scan_eq_error {e : Rejection} (h : scan code = .error e) : e.TrueOf (disassemble code) := by
  unfold scan ofListing at h
  rcases bind_eq_error h with hfold | ⟨mask, hfold, h⟩
  · -- A target lies outside the code, and instructions start inside.
    obtain ⟨i, hi, target, htarget, houtside, rfl⟩ :=
      addInstructions_eq_error (spans_empty code.length) hfold
    refine ⟨i, hi, rfl, htarget, ?_⟩
    rintro ⟨j, hj, hat⟩
    have hlt : j.offset < (empty code.length).size := offset_lt_length code j hj
    omega
  · have hgains := addInstructions_gains (spans_empty code.length) hfold
    have hexact := hgains.exact
    split at h
    · rename_i fault hfault
      cases h
      cases fault <;> exact hfault
    · split at h
      · rename_i target hfirst
        cases h
        have hmarks : mask.isTarget target = true ∧ mask.isStart target = false :=
          ((OffsetSet.firstNotIn_eq_some_iff hgains.spans.bound_eq).mp hfirst).1
        obtain ⟨i, hi, hsource, hmem⟩ := sourceOf_eq ((hexact.isTarget_iff target).mp hmarks.1)
        refine ⟨i, hi, hsource, hmem, ?_⟩
        rintro ⟨j, hj, hat⟩
        have hstart : mask.isStart target = true :=
          (hexact.isStart_iff target).mpr ⟨j, hj, by omega⟩
        simp [hmarks.2] at hstart
      · cases h

/-- **Scanning is exact.** Code is accepted exactly if it is read to its end and every jump leads to
an instruction. The marks then say where instructions start and where jumps lead, and no border of a
region is marked. A rejection is the error of the listing, or names a jump of the listing to a place
where no instruction starts. -/
theorem scan_exact (code : Code) :
    ((∃ mask, scan code = .ok mask) ↔ (disassemble code).Closed) ∧
      (∀ mask, scan code = .ok mask → mask.Exact (disassemble code).instructions) ∧
      ∀ e, scan code = .error e → e.TrueOf (disassemble code) := by
  refine ⟨⟨?accepted, ?closed⟩, fun mask h => (scan_eq_ok h).2, fun e h => scan_eq_error h⟩
  case accepted =>
    rintro ⟨mask, h⟩
    exact (scan_eq_ok h).1
  case closed =>
    intro hclosed
    cases hscan : scan code with
    | ok mask => exact ⟨mask, rfl⟩
    | error e =>
        -- Whatever a rejection could blame is not there.
        have htrue := scan_eq_error hscan
        unfold Rejection.TrueOf at htrue
        split at htrue
        · rw [hclosed.fault_eq] at htrue
          cases htrue
        · rw [hclosed.fault_eq] at htrue
          cases htrue
        · obtain ⟨i, hi, _, htarget, hno⟩ := htrue
          exact absurd (hclosed.startsAt i hi _ htarget) hno
        · exact htrue.elim

/-- `br.s 7; ldc.i4 7; ret`: jumps over a constant. -/
def jumpOver : Code := [0x2B, 0x05, 0x20, 0x07, 0x00, 0x00, 0x00, 0x2A]

/-- `br.s 3; ldc.i4 7; ret`: jumps into the constant. -/
def jumpInto : Code := [0x2B, 0x01, 0x20, 0x07, 0x00, 0x00, 0x00, 0x2A]

/-- A jump over an instruction is marked where it leads, and a jump into it is blamed. -/
theorem scan_constant :
    (∃ mask, scan jumpOver = .ok mask ∧ mask.isTarget 7 = true ∧ mask.isStart 3 = false) ∧
      ∃ e, scan jumpInto = .error e ∧ e.TrueOf (disassemble jumpInto) := by
  have hover : disassemble jumpOver =
      ⟨[⟨0, .brS, 2, .branch 7⟩, ⟨2, .ldcI4, 5, .int32 7⟩, ⟨7, .ret, 1, .none⟩], none⟩ := by
    decide +kernel
  have hinto : disassemble jumpInto =
      ⟨[⟨0, .brS, 2, .branch 3⟩, ⟨2, .ldcI4, 5, .int32 7⟩, ⟨7, .ret, 1, .none⟩], none⟩ := by
    decide +kernel
  obtain ⟨haccepts, hmarks, _⟩ := scan_exact jumpOver
  obtain ⟨haccepts', _, hblames⟩ := scan_exact jumpInto
  refine ⟨?_, ?_⟩
  · have hclosed : (disassemble jumpOver).Closed := by
      rw [hover]
      exact ⟨rfl, by simp [Instruction.targets, Listing.StartsAt]⟩
    obtain ⟨mask, hmask⟩ := haccepts.mpr hclosed
    have hexact := hmarks mask hmask
    rw [hover] at hexact
    refine ⟨mask, hmask, (hexact.isTarget_iff 7).mpr (by simp [Instruction.targets]), ?_⟩
    simpa using hexact.isStart_iff 3
  · cases hscan : scan jumpInto with
    | error e => exact ⟨e, rfl, hblames e hscan⟩
    | ok mask =>
        have hclosed := (haccepts'.mp ⟨mask, hscan⟩).startsAt
        rw [hinto] at hclosed
        simp [Instruction.targets, Listing.StartsAt] at hclosed

end JumpMask

end ManagedCode
