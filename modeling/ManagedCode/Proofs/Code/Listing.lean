import ManagedCode.Proofs.Effect.Slots

set_option autoImplicit false

/-! # Listings and the flow of control

The instructions of a listing lie one behind the other (`Consecutive`), and each was read from the
code. So its operand is of the layout of its opcode, and an instruction names the same targets as
the operation it stands for (`Instruction.flow_of_operation?`).
-/

namespace ManagedCode

namespace Instruction

/-- Control can go from one instruction to another: by a target, or on to the next one. -/
def Leads (i j : Instruction) : Prop :=
  (j.offset : Int) ∈ i.targets ∨ i.opcode.isUnconditional = false ∧ j.offset = i.next

/-- The instructions follow each other without a gap, from `start` on. -/
def Consecutive (start : Nat) : List Instruction → Prop
  | [] => True
  | i :: rest => i.offset = start ∧ 0 < i.size ∧ Consecutive i.next rest

theorem Consecutive.le_offset {start : Nat} {instructions : List Instruction}
    (h : Consecutive start instructions) : ∀ i ∈ instructions, start ≤ i.offset := by
  induction instructions generalizing start with
  | nil => simp
  | cons i rest ih =>
      obtain ⟨rfl, _, hrest⟩ := h
      intro j hj
      rcases List.mem_cons.mp hj with rfl | hj
      · exact Nat.le_refl _
      · have hle : i.next ≤ j.offset := ih hrest j hj
        unfold next at hle
        omega

/-- Later instructions have greater offsets. -/
theorem Consecutive.pairwise_lt {start : Nat} {instructions : List Instruction}
    (h : Consecutive start instructions) :
    instructions.Pairwise fun i j => i.offset < j.offset := by
  induction instructions generalizing start with
  | nil => exact .nil
  | cons i rest ih =>
      obtain ⟨_, hsize, hrest⟩ := h
      refine .cons (fun j hj => ?_) (ih hrest)
      have hle : i.next ≤ j.offset := hrest.le_offset j hj
      unfold next at hle
      omega

/-! ## Reading -/

/-- The instruction was read from bytes at its offset. -/
def Decoded (i : Instruction) : Prop := ∃ bytes, read i.offset bytes = .ok i

end Instruction

/-- The operand is of the layout. -/
def Layout.holds : Layout → Operand → Bool
  | .none, .none | .int8, .int8 _ | .uint8, .uint8 _ | .uint16, .uint16 _ | .int32, .int32 _
  | .int64, .int64 _ | .float32, .float32 _ | .float64, .float64 _ | .token, .token _
  | .shortBranch, .branch _ | .branch, .branch _ | .switch, .switch _ | .payload8, .payload _
  | .payload32, .payload _ => true
  | _, _ => false

theorem Layout.holds_of_read {layout : Layout} {start size : Nat} {bytes : List UInt8}
    {operand : Operand} (h : layout.read start bytes = some (operand, size)) :
    layout.holds operand = true := by
  cases layout with
  | none =>
      cases h
      rfl
  | switch =>
      obtain ⟨_, _, h⟩ := Option.bind_eq_some_iff.mp h
      obtain ⟨_, _, h⟩ := Option.bind_eq_some_iff.mp h
      cases h
      rfl
  | payload8 | payload32 =>
      obtain ⟨_, _, h⟩ := Option.bind_eq_some_iff.mp h
      split at h
      · cases h
        rfl
      · cases h
  | _ =>
      obtain ⟨_, _, h⟩ := Option.bind_eq_some_iff.mp h
      cases h
      rfl

/-- The operand names offsets of the code. -/
def Layout.isJump : Layout → Bool
  | .shortBranch | .branch | .switch => true
  | _ => false

/-- The targets in an operand of one of the other layouts: none. -/
theorem Layout.read_plain {layout : Layout} {start size : Nat} {bytes : List UInt8}
    {operand : Operand} (hlayout : layout.isJump = false)
    (h : layout.read start bytes = some (operand, size)) (offset : Nat) (opcode : Opcode)
    (length : Nat) : (Instruction.mk offset opcode length operand).targets = [] := by
  cases layout with
  | shortBranch | branch | switch => cases hlayout
  | none =>
      cases h
      rfl
  | int8 | uint8 | uint16 | int32 | int64 | float32 | float64 | token =>
      obtain ⟨_, _, h⟩ := Option.bind_eq_some_iff.mp h
      cases h
      rfl
  | payload8 | payload32 =>
      obtain ⟨_, _, h⟩ := Option.bind_eq_some_iff.mp h
      split at h
      · cases h
        rfl
      · cases h

namespace Instruction

theorem read_eq_ok {offset : Nat} {bytes : List UInt8} {i : Instruction}
    (h : read offset bytes = .ok i) :
    i.offset = offset ∧ ∃ operandSize,
      i.opcode.layout.read (offset + i.opcode.length) (bytes.drop i.opcode.length) =
        some (i.operand, operandSize) ∧ i.size = i.opcode.length + operandSize := by
  unfold read at h
  split at h
  · cases h
  · split at h
    · cases h
    · split at h
      · cases h
      · rename_i opcode _ operand size hread
        cases h
        exact ⟨rfl, size, hread, rfl⟩

theorem size_pos_of_read {offset : Nat} {bytes : List UInt8} {i : Instruction}
    (h : read offset bytes = .ok i) : 0 < i.size := by
  obtain ⟨_, size, _, hsize⟩ := read_eq_ok h
  have hlength : 0 < i.opcode.length := by
    unfold Opcode.length
    split <;> decide
  omega

theorem Decoded.targets_eq_nil {i : Instruction} (h : i.Decoded)
    (hlayout : i.opcode.layout.isJump = false) : i.targets = [] := by
  obtain ⟨bytes, h⟩ := h
  obtain ⟨_, size, hread, _⟩ := read_eq_ok h
  exact Layout.read_plain hlayout hread i.offset i.opcode i.size

theorem Decoded.holds {i : Instruction} (h : i.Decoded) :
    i.opcode.layout.holds i.operand = true := by
  obtain ⟨bytes, h⟩ := h
  obtain ⟨_, size, hread, _⟩ := read_eq_ok h
  exact Layout.holds_of_read hread

/-- **Every instruction that was read stands for an operation.** -/
theorem Decoded.exists_operation {i : Instruction} (h : i.Decoded) :
    ∃ operation, i.operation? = some operation := by
  have hoperand := h.holds
  clear h
  obtain ⟨offset, opcode, size, operand⟩ := i
  cases opcode
  -- Where the opcode alone does not give the operation, the operand is of the one kind that does.
  all_goals first
    | exact ⟨_, rfl⟩
    | (cases operand <;> first | (cases hoperand; done) | exact ⟨_, rfl⟩)

theorem targets_of_target? {i : Instruction} {target : Int} (h : i.target? = some target) :
    i.targets = [target] := by
  unfold target? at h
  split at h
  · rename_i hoperand
    cases h
    unfold targets
    rw [hoperand]
  · cases h

/-- **An instruction and its operation lead to the same places.** -/
theorem Decoded.flow_of_operation? {i : Instruction} (hi : i.Decoded) {operation : Operation}
    (h : i.operation? = some operation) :
    operation.isUnconditional = i.opcode.isUnconditional ∧ operation.targets = i.targets := by
  apply of_operation? h
  have hplain := hi.targets_eq_nil
  clear hi h
  obtain ⟨offset, opcode, size, operand⟩ := i
  cases opcode
  -- The operation does not depend on the operand, or not on its targets, or just on them.
  all_goals first
    | exact ⟨rfl, (hplain rfl).symm⟩
    | exact fun _ _ => ⟨rfl, (hplain rfl).symm⟩
    | exact fun _ htarget => ⟨rfl, (targets_of_target? htarget).symm⟩
    | (rintro _ rfl
       exact ⟨rfl, rfl⟩)

end Instruction

/-! ## Listings -/

/-- Induction along a listing. No bytes are left, or those that are left cannot be read, or the
listing goes on behind an instruction. -/
theorem disassembleFrom_rec {P : Nat → List UInt8 → Listing → Prop}
    (hnil : ∀ offset, P offset [] ⟨[], none⟩)
    (hfault : ∀ offset bytes e, 0 < bytes.length → Instruction.read offset bytes = .error e →
      P offset bytes ⟨[], some e⟩)
    (hcons : ∀ offset bytes i tail, 0 < bytes.length → Instruction.read offset bytes = .ok i →
      P i.next (bytes.drop i.size) tail → P offset bytes ⟨i :: tail.instructions, tail.fault⟩)
    (offset : Nat) (bytes : List UInt8) : P offset bytes (disassembleFrom offset bytes) := by
  induction hn : bytes.length using Nat.strongRecOn generalizing offset bytes with
  | ind n ih =>
    subst hn
    cases bytes with
    | nil =>
        rw [disassembleFrom_nil]
        exact hnil offset
    | cons b rest =>
        rw [disassembleFrom_cons]
        cases h : Instruction.read offset (b :: rest) with
        | error e => exact hfault offset _ e (by simp) h
        | ok i =>
            have hlt : (rest.drop (i.size - 1)).length < (b :: rest).length := by
              simp only [List.length_drop, List.length_cons]
              omega
            have hdrop : (b :: rest).drop i.size = rest.drop (i.size - 1) := by
              have hsize := Instruction.size_pos_of_read h
              rw [← Nat.sub_add_cancel hsize, List.drop_succ_cons, Nat.add_sub_cancel]
            refine hcons offset (b :: rest) i _ (by simp) h ?_
            rw [hdrop]
            exact ih _ hlt i.next _ rfl

/-- What holds of a listing that ends, in an error or not, and is passed on from the listing behind
an instruction, holds of every listing. -/
theorem disassembleFrom_induction {P : Nat → List UInt8 → Listing → Prop}
    (hend : ∀ offset bytes fault, P offset bytes ⟨[], fault⟩)
    (hcons : ∀ offset bytes i tail, 0 < bytes.length → Instruction.read offset bytes = .ok i →
      P i.next (bytes.drop i.size) tail → P offset bytes ⟨i :: tail.instructions, tail.fault⟩)
    (offset : Nat) (bytes : List UInt8) : P offset bytes (disassembleFrom offset bytes) :=
  disassembleFrom_rec (fun offset => hend offset [] none)
    (fun offset bytes e _ _ => hend offset bytes (some e)) hcons offset bytes

theorem consecutive_disassemble (code : Code) :
    Instruction.Consecutive 0 (disassemble code).instructions := by
  refine disassembleFrom_induction (P := fun offset _ listing =>
    Instruction.Consecutive offset listing.instructions) (fun _ _ _ => trivial) ?_ 0 code
  intro offset bytes i tail _ hread htail
  exact ⟨(Instruction.read_eq_ok hread).1, Instruction.size_pos_of_read hread, htail⟩

theorem decoded_disassemble (code : Code) : ∀ i ∈ (disassemble code).instructions, i.Decoded := by
  refine disassembleFrom_induction (P := fun _ _ listing =>
    ∀ i ∈ listing.instructions, i.Decoded) (fun _ _ _ => by simp) ?_ 0 code
  intro offset bytes i tail _ hread htail
  have hi : i.Decoded := ⟨bytes, (Instruction.read_eq_ok hread).1 ▸ hread⟩
  exact List.forall_mem_cons.mpr ⟨hi, htail⟩

/-- Every instruction starts inside the code. -/
theorem offset_lt_length (code : Code) :
    ∀ i ∈ (disassemble code).instructions, i.offset < code.length := by
  -- Where bytes are left, the offset and their number add up to the length of the code.
  have hbytes : ∀ i ∈ (disassemble code).instructions,
      0 < code.length ∧ i.offset < 0 + code.length := by
    refine disassembleFrom_induction (P := fun offset bytes listing =>
      ∀ i ∈ listing.instructions, 0 < bytes.length ∧ i.offset < offset + bytes.length)
      (fun _ _ _ => by simp) ?_ 0 code
    intro offset bytes i tail hpos hread htail
    have hoffset : i.offset = offset := (Instruction.read_eq_ok hread).1
    refine List.forall_mem_cons.mpr ⟨⟨hpos, by omega⟩, fun j hj => ⟨hpos, ?_⟩⟩
    have hj := htail j hj
    simp only [List.length_drop, Instruction.next] at hj
    omega
  intro i hi
  have hi := (hbytes i hi).2
  omega

end ManagedCode
