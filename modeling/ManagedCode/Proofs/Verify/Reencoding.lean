import ManagedCode.Proofs.Code.Forms
import ManagedCode.Proofs.Code.Scan
import ManagedCode.Proofs.Engine.Relocation
import ManagedCode.Proofs.Verify.Sessions

set_option autoImplicit false

/-! # Verification does not depend on the encoding

A method can be encoded in many ways: short branches or long ones, `ldarg.0` or `ldarg 0`, remarks
of any length. This moves its instructions to other offsets, and targets and regions with them.
Two encodings have the same boundaries, number by number (`MethodBody.SamePlace`), and all that a
session asks of offsets is how boundaries compare. So both are accepted or both are not, and the
figures are the same: `verify_reencoded`.
-/

namespace ManagedCode

/-! ## Places -/

namespace MethodBody

/-- The offsets where instructions start, and the end of the code. -/
def boundaries (body : MethodBody) : List Nat :=
  (disassemble body.code).instructions.map (·.offset) ++ [body.code.length]

/-- The offsets are boundaries of the same number. -/
def SamePlace (a b : MethodBody) (offset offset' : Nat) : Prop :=
  ∃ k : Nat, a.boundaries[k]? = some offset ∧ b.boundaries[k]? = some offset'

/-- The instruction of number `k` starts at the target. -/
def InstructionAt (body : MethodBody) (k : Nat) (target : Int) : Prop :=
  ∃ i, (disassemble body.code).instructions[k]? = some i ∧ (i.offset : Int) = target

/-- The targets are instructions of the same number, if any. -/
def SameTarget (a b : MethodBody) (target target' : Int) : Prop :=
  ∀ k : Nat, a.InstructionAt k target ↔ b.InstructionAt k target'

/-- The methods are the same but for their encoding. One by one, the instructions are forms of one
another and lead to instructions of the same number, and regions lie between boundaries of the same
number. -/
structure Reencoded (a b : MethodBody) : Prop where
  moved : a.Moved (SamePlace a b) b
  instructions : List.Forall₂ (Instruction.Alike (SameTarget a b))
    (disassemble a.code).instructions (disassemble b.code).instructions

theorem pairwise_boundaries (body : MethodBody) : body.boundaries.Pairwise (· < ·) := by
  have hstarts := List.pairwise_map.mpr (consecutive_disassemble body.code).pairwise_lt
  refine List.pairwise_append.mpr ⟨hstarts, List.pairwise_singleton _ _, ?_⟩
  intro offset hoffset length hlength
  obtain ⟨i, hi, rfl⟩ := List.mem_map.mp hoffset
  rw [List.mem_singleton.mp hlength]
  exact offset_lt_length body.code i hi

theorem le_length_of_boundary {body : MethodBody} {k offset : Nat}
    (h : body.boundaries[k]? = some offset) : offset ≤ body.code.length := by
  rcases List.mem_append.mp (List.mem_of_getElem? h) with hstart | hend
  · obtain ⟨i, hi, rfl⟩ := List.mem_map.mp hstart
    exact Nat.le_of_lt (offset_lt_length body.code i hi)
  · exact Nat.le_of_eq (List.mem_singleton.mp hend)

/-- Boundaries compare as their numbers do. -/
theorem boundary_lt_iff {body : MethodBody} {k k' offset offset' : Nat}
    (h : body.boundaries[k]? = some offset) (h' : body.boundaries[k']? = some offset') :
    offset < offset' ↔ k < k' := by
  have hsorted := List.pairwise_iff_getElem.mp body.pairwise_boundaries
  obtain ⟨hk, rfl⟩ := List.getElem?_eq_some_iff.mp h
  obtain ⟨hk', rfl⟩ := List.getElem?_eq_some_iff.mp h'
  constructor
  · intro hlt
    by_contra hle
    rcases Nat.lt_or_eq_of_le (Nat.le_of_not_lt hle) with hgt | rfl
    · exact absurd (hsorted k' k hk' hk hgt) (Nat.lt_asymm hlt)
    · exact absurd hlt (Nat.lt_irrefl _)
  · exact hsorted k k' hk hk'

theorem boundary_of_instruction {body : MethodBody} {k : Nat} {i : Instruction}
    (h : (disassemble body.code).instructions[k]? = some i) :
    body.boundaries[k]? = some i.offset := by
  obtain ⟨hk, rfl⟩ := List.getElem?_eq_some_iff.mp h
  unfold boundaries
  rw [List.getElem?_append_left (by simpa using hk), List.getElem?_map, h]
  rfl

theorem boundary_end (body : MethodBody) :
    body.boundaries[(disassemble body.code).instructions.length]? = some body.code.length := by
  unfold boundaries
  rw [List.getElem?_append_right (by simp)]
  simp

variable {a b : MethodBody}

/-- **Boundaries of the same number compare alike.** -/
theorem relocation (ha : a.code.length ≤ Limits.codeLength)
    (hb : b.code.length ≤ Limits.codeLength) : Relocation (SamePlace a b) where
  lt_iff := by
    -- Both sides compare as the numbers of the boundaries.
    rintro x y x' y' ⟨k, hx, hy⟩ ⟨k', hx', hy'⟩
    rw [boundary_lt_iff hx hx', boundary_lt_iff hy hy']
  lt_wordCount := by
    rintro x y ⟨k, hx, hy⟩
    have hx := le_length_of_boundary hx
    have hy := le_length_of_boundary hy
    unfold Limits.codeLength at ha hb
    unfold Span.wordCount
    omega

/-- A place is the start of one instruction only. -/
theorem InstructionAt.eq {body : MethodBody} {k k' : Nat} {target : Int}
    (h : body.InstructionAt k target) (h' : body.InstructionAt k' target) : k = k' := by
  obtain ⟨i, hk, hat⟩ := h
  obtain ⟨i', hk', hat'⟩ := h'
  have hlt := boundary_lt_iff (boundary_of_instruction hk) (boundary_of_instruction hk')
  have hgt := boundary_lt_iff (boundary_of_instruction hk') (boundary_of_instruction hk)
  omega

theorem sameTarget_of_instructionAt {k : Nat} {target target' : Int} (h : a.InstructionAt k target)
    (h' : b.InstructionAt k target') : SameTarget a b target target' := by
  intro j
  constructor
  · intro hj
    rw [hj.eq h]
    exact h'
  · intro hj
    rw [hj.eq h']
    exact h

/-- In code that was scanned, targets of the same number are boundaries of the same number. -/
theorem SameTarget.place {mask : JumpMask} (hscan : JumpMask.scan a.code = .ok mask)
    {i : Instruction} (hi : i ∈ (disassemble a.code).instructions) {target target' : Int}
    (hmem : target ∈ i.targets) (h : SameTarget a b target target') :
    Instruction.LeadsAlike (SamePlace a b) target target' := by
  obtain ⟨hclosed, _⟩ := JumpMask.scan_eq_ok hscan
  obtain ⟨j, hj, hat⟩ := hclosed.startsAt i hi target hmem
  obtain ⟨k, hk⟩ := List.mem_iff_getElem?.mp hj
  -- So the other target is an instruction as well, the one of the same number.
  obtain ⟨j', hk', hat'⟩ := (h k).mp ⟨j, hk, hat⟩
  exact ⟨j.offset, j'.offset, hat.symm, hat'.symm, k, boundary_of_instruction hk,
    boundary_of_instruction hk'⟩

/-! ## Instructions and marks -/

namespace Reencoded

variable (h : a.Reencoded b)
include h

/-- Instructions of the same number start at boundaries of the same number. -/
theorem offsets : List.Forall₂ (fun i i' => SamePlace a b i.offset i'.offset)
    (disassemble a.code).instructions (disassemble b.code).instructions := by
  refine List.forall₂_iff_get.mpr ⟨h.instructions.length_eq, fun k hk hk' => ⟨k, ?_, ?_⟩⟩
  · exact boundary_of_instruction (List.getElem?_eq_getElem hk)
  · exact boundary_of_instruction (List.getElem?_eq_getElem hk')

variable {mask mask' : JumpMask} (hscan : JumpMask.scan a.code = .ok mask)
include hscan

/-- Instructions of the same number are alike, and lead to corresponding offsets. -/
theorem alike : List.Forall₂ (Instruction.Alike (Instruction.LeadsAlike (SamePlace a b)))
    (disassemble a.code).instructions (disassemble b.code).instructions := by
  refine forall₂_imp_of_mem h.instructions fun i hi i' _ halike => ?_
  have htargets := (decoded_disassemble a.code i hi).longForm.2
  refine ⟨halike.opcode_eq, halike.operand.imp fun t ht t' hsame => ?_⟩
  rw [htargets] at ht
  exact hsame.place hscan hi ht

/-- **The instructions do the same at corresponding offsets.** -/
theorem instructions_moved :
    List.Forall₂ (Engine.Correspondence.moved (SamePlace a b)).Instructions
      (disassemble a.code).instructions (disassemble b.code).instructions := by
  have hoperations := forall₂_imp_of_mem (h.alike hscan) fun i hi i' hi' halike =>
    halike.operation? (decoded_disassemble a.code i hi) (decoded_disassemble b.code i' hi')
  obtain ⟨hlength, hoffsets⟩ := List.forall₂_iff_get.mp h.offsets
  obtain ⟨_, hoperations⟩ := List.forall₂_iff_get.mp hoperations
  refine List.forall₂_iff_get.mpr ⟨hlength, fun k hk hk' => ⟨hoffsets k hk hk', ?_⟩⟩
  obtain ⟨operation, operation', hop, hop', ho⟩ := hoperations k hk hk'
  rw [hop, hop']
  exact .some ho

theorem targets : List.Forall₂ (fun i i' =>
      List.Forall₂ (Instruction.LeadsAlike (SamePlace a b)) i.targets i'.targets)
    (disassemble a.code).instructions (disassemble b.code).instructions := by
  refine forall₂_imp_of_mem (h.alike hscan) fun i hi i' hi' halike => ?_
  rw [← (decoded_disassemble a.code i hi).longForm.2,
    ← (decoded_disassemble b.code i' hi').longForm.2]
  exact halike.operand.forall₂_targets

/-- **Scanning marks the same places.** -/
theorem mask_moved (hR : Relocation (SamePlace a b))
    (hscan' : JumpMask.scan b.code = .ok mask') : mask.Moved (SamePlace a b) mask' := by
  obtain ⟨_, hexact⟩ := JumpMask.scan_eq_ok hscan
  obtain ⟨_, hexact'⟩ := JumpMask.scan_eq_ok hscan'
  obtain ⟨_, hsize, hdescribes⟩ := JumpMask.ofListing_eq_ok hscan
  obtain ⟨_, hsize', hdescribes'⟩ := JumpMask.ofListing_eq_ok hscan'
  refine ⟨?size, ⟨hdescribes.bound_eq, hdescribes'.bound_eq⟩, ?isStart, ?isTarget⟩
  case size =>
    have hend := b.boundary_end
    rw [← h.instructions.length_eq] at hend
    rw [hsize, hsize']
    exact ⟨_, a.boundary_end, hend⟩
  case isStart =>
    intro o o' ho
    rw [Bool.eq_iff_iff, hexact.isStart_iff, hexact'.isStart_iff]
    exact exists_mem_iff_of_forall₂ h.offsets fun i i' hi => hR.eq_iff hi ho
  case isTarget =>
    -- The jumps that lead to one place are those of the same number that lead to the other.
    intro o o' ho
    rw [Bool.eq_iff_iff, hexact.isTarget_iff, hexact'.isTarget_iff]
    refine exists_mem_iff_of_forall₂ (h.targets hscan) fun i i' hi => ?_
    have hnames : (∃ t ∈ i.targets, t = o) ↔ ∃ t' ∈ i'.targets, t' = o' := by
      refine exists_mem_iff_of_forall₂ hi ?_
      rintro _ _ ⟨offset, offset', rfl, rfl, hoffset⟩
      rw [Int.natCast_inj, Int.natCast_inj, hR.eq_iff hoffset ho]
    simpa using hnames

end Reencoded

end MethodBody

/-! ## Sessions -/

namespace MethodBody.Reencoded

variable {a b : MethodBody} (h : a.Reencoded b) (ha : a.code.length ≤ Limits.codeLength)
  (hb : b.code.length ≤ Limits.codeLength) {mask mask' : JumpMask}
  (hscan : JumpMask.scan a.code = .ok mask) (hscan' : JumpMask.scan b.code = .ok mask')
include h ha hb hscan hscan'

/-- Regions prepare the same entry points. -/
theorem prepare_moved (world : Universe) (options : Options) :
    Agree (Joins.Moved (SamePlace a b)) (Session.prepare a world options)
      (Session.prepare b world options) := by
  have hR := relocation ha hb
  have hstart : Joins.Moved (SamePlace a b) ⟨mask, { bound := options.maxLabels }⟩
      ⟨mask', { bound := options.maxLabels }⟩ :=
    ⟨h.mask_moved hscan hR hscan', LabelStore.moved_empty _ _⟩
  obtain ⟨hresult, hjoins⟩ := hstart.addRegions hR world h.moved.regions
  rw [Session.prepare_of_scan hscan rfl, Session.prepare_of_scan hscan' rfl]
  exact hresult.map fun _ _ _ => hjoins

/-- **Two encodings of a method have the same session**, up to offsets. -/
theorem run_moved (world : Universe) (options : Options) :
    Agree Eq (Session.run a world options).result (Session.run b world options).result := by
  have hR := relocation ha hb
  have hprepare := h.prepare_moved ha hb hscan hscan' world options
  have hfault := (JumpMask.scan_eq_ok hscan).1.fault_eq
  have hfault' := (JumpMask.scan_eq_ok hscan').1.fault_eq
  rw [Session.run_result, Session.run_result]
  refine .bind hprepare fun joins joins' hjoins => ?_
  have hcx : (Session.context a world options joins).Moved (SamePlace a b)
      (Session.context b world options joins') := ⟨rfl, rfl, h.moved, hjoins.mask⟩
  have hpass := Engine.run_corresponds (Engine.simulates_of_moved hR hcx)
    (h.instructions_moved hscan) (by rw [hfault, hfault']) hjoins.labels
  refine .bind hpass.result fun st st' hst => ?_
  have hlabels : st.labels.Moved (SamePlace a b) st'.labels := hst.labels
  exact Session.conclude_agree hst.stack_eq hlabels.size_eq hlabels.firstUnresolved?

end MethodBody.Reencoded

/-! ## Verification -/

/-- **Verification does not depend on the encoding.** Two encodings of a method that are within the
limit and were scanned are both accepted or both not, whatever the universe, the options and the
backend, and what is reported is the same. -/
theorem verify_reencoded {a b : MethodBody} (h : a.Reencoded b)
    (ha : a.code.length ≤ Limits.codeLength) (hb : b.code.length ≤ Limits.codeLength)
    {mask mask' : JumpMask} (hscan : JumpMask.scan a.code = .ok mask)
    (hscan' : JumpMask.scan b.code = .ok mask') (world : Universe) (options : Options)
    (backend : Recorder) (v : Verified) :
    (verify a world options backend).1 = .ok v ↔ (verify b world options backend).1 = .ok v := by
  have hstack : a.maxStack = b.maxStack := by rw [h.moved.body_eq]
  have hlimits : Agree (fun _ _ => True) a.checkLimits b.checkLimits := by
    have hlength : decide (a.code.length ≤ Limits.codeLength) =
        decide (b.code.length ≤ Limits.codeLength) := by simp only [ha, hb]
    refine .bind (.require hlength _ _) fun _ _ _ => .require ?_ _ _
    rw [hstack]
  have hsession := h.run_moved ha hb hscan hscan' world options
  have hverify : Agree Eq (verify a world options backend).1
      (verify b world options backend).1 := by
    rw [verify_result, verify_result]
    refine .bind hlimits fun _ _ _ => .bind hsession fun x x' hx => ?_
    rw [hx]
    exact .refl _
  exact hverify.eq_ok_iff

/-- Jumps to a block with cleanup, in short forms: `ldc.i4.1; brtrue.s 3; ann.data.s; leave.s 9;
endfinally; ret`. -/
def shortCleanup : MethodBody where
  code := [0x17, 0x2D, 0x00, 0xFE, 0x22, 0x00, 0xDE, 0x01, 0xDC, 0x2A]
  regions := [⟨.finally, ⟨3, 5⟩, ⟨8, 1⟩⟩]

/-- The same method in long forms, with a longer remark: `ldc.i4 1; brtrue 10; ann.data; leave 24;
endfinally; ret`. -/
def longCleanup : MethodBody where
  code := [0x20, 0x01, 0x00, 0x00, 0x00, 0x3A, 0x00, 0x00, 0x00, 0x00, 0xFE, 0x23, 0x02, 0x00, 0x00,
    0x00, 0x07, 0x07, 0xDD, 0x01, 0x00, 0x00, 0x00, 0xDC, 0x2A]
  regions := [⟨.finally, ⟨10, 13⟩, ⟨23, 1⟩⟩]

theorem disassemble_shortCleanup : (disassemble shortCleanup.code).instructions =
    [⟨0, .ldcI41, 1, .none⟩, ⟨1, .brtrueS, 2, .branch 3⟩, ⟨3, .annDataS, 3, .payload 0⟩,
      ⟨6, .leaveS, 2, .branch 9⟩, ⟨8, .endfinally, 1, .none⟩, ⟨9, .ret, 1, .none⟩] := by
  decide +kernel

theorem disassemble_longCleanup : (disassemble longCleanup.code).instructions =
    [⟨0, .ldcI4, 5, .int32 1⟩, ⟨5, .brtrue, 5, .branch 10⟩, ⟨10, .annData, 8, .payload 2⟩,
      ⟨18, .leave, 5, .branch 24⟩, ⟨23, .endfinally, 1, .none⟩, ⟨24, .ret, 1, .none⟩] := by
  decide +kernel

theorem reencoded_cleanup : shortCleanup.Reencoded longCleanup := by
  have hshort : shortCleanup.boundaries = [0, 1, 3, 6, 8, 9, 10] := by
    rw [MethodBody.boundaries, disassemble_shortCleanup]
    rfl
  have hlong : longCleanup.boundaries = [0, 5, 10, 18, 23, 24, 25] := by
    rw [MethodBody.boundaries, disassemble_longCleanup]
    rfl
  -- The blocks start and end at the boundaries of number 2, 4 and 5.
  have hplace : ∀ k offset offset', [0, 1, 3, 6, 8, 9, 10][k]? = some offset →
      [0, 5, 10, 18, 23, 24, 25][k]? = some offset' →
      MethodBody.SamePlace shortCleanup longCleanup offset offset' :=
    fun k _ _ h h' => ⟨k, hshort ▸ h, hlong ▸ h'⟩
  have hstart := hplace 2 3 10 rfl rfl
  have hborder := hplace 4 8 23 rfl rfl
  have hstop := hplace 5 9 24 rfl rfl
  -- The jumps lead to the instructions of number 2 and 5.
  have htarget : ∀ (k : Nat) (i i' : Instruction),
      (disassemble shortCleanup.code).instructions[k]? = some i →
      (disassemble longCleanup.code).instructions[k]? = some i' →
      MethodBody.SameTarget shortCleanup longCleanup i.offset i'.offset :=
    fun k i i' h h' => MethodBody.sameTarget_of_instructionAt ⟨i, h, rfl⟩ ⟨i', h', rfl⟩
  rw [disassemble_shortCleanup, disassemble_longCleanup] at htarget
  refine ⟨⟨rfl, .cons ⟨trivial, ⟨hstart, hborder⟩, hborder, hstop⟩ .nil⟩, ?_⟩
  rw [disassemble_shortCleanup, disassemble_longCleanup]
  exact .cons ⟨rfl, .same rfl⟩ (.cons ⟨rfl, .branch (htarget 2 _ _ rfl rfl)⟩
    (.cons ⟨rfl, .same rfl⟩ (.cons ⟨rfl, .branch (htarget 5 _ _ rfl rfl)⟩
      (.cons ⟨rfl, .same rfl⟩ (.cons ⟨rfl, .same rfl⟩ .nil)))))

/-- The short and the long encoding are accepted alike, also when the backend asks for a restart. -/
theorem verify_cleanup_reencoded :
    shortCleanup.Reencoded longCleanup ∧
      (verify shortCleanup .core {} (.withRestarts 1)).1 = .ok ⟨1, 3, 1⟩ ∧
      (verify longCleanup .core {} (.withRestarts 1)).1 = .ok ⟨1, 3, 1⟩ := by
  have haccepted : (verify shortCleanup .core {} (.withRestarts 1)).1 = .ok ⟨1, 3, 1⟩ := by
    decide +kernel
  obtain ⟨_, hscan⟩ : ∃ mask, JumpMask.scan shortCleanup.code = .ok mask :=
    exists_of_toBool (by decide +kernel)
  obtain ⟨_, hscan'⟩ : ∃ mask, JumpMask.scan longCleanup.code = .ok mask :=
    exists_of_toBool (by decide +kernel)
  have hsame := verify_reencoded reencoded_cleanup (by decide) (by decide) hscan hscan' .core {}
    (.withRestarts 1) ⟨1, 3, 1⟩
  exact ⟨reencoded_cleanup, haccepted, hsame.mp haccepted⟩

end ManagedCode
