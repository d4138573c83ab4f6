import ManagedCode.Proofs.Code.Commands
import Mathlib.Data.List.Forall2

set_option autoImplicit false

/-! # Assembled code is read back

If every command of a program is used with an opcode of the layout it is meant for, and all labels
have their place in the end, then the listing of the code has one instruction for each that was
written, in the same order, at the offset at which it was written and with the operand that was
given. A branch to a label leads to where the label was placed last, be that before or after the
branch was written.

The proof looks at one command at a time. Once all labels are placed, what the command appends
becomes the bytes of one instruction (`Command.encodes`).
-/

namespace ManagedCode

namespace Assembler

/-! ## Instructions that are written -/

namespace Command

/-- The opcode of the instruction that is written, if one is. -/
def opcode? : Command → Option Opcode
  | .newLabel | .mark _ | .here | .raw _ => none
  | .op opcode | .op8 opcode _ | .op16 opcode _ | .op32 opcode _ | .token opcode _
  | .branch opcode _ | .branchBy opcode _ => some opcode
  | .loadInt32 _ => some .ldcI4
  | .loadInt8 _ => some .ldcI4S
  | .loadInt64 _ => some .ldcI8
  | .loadFloat32 _ => some .ldcR4
  | .loadFloat64 _ => some .ldcR8
  | .switch _ => some .switch
  | .remark payload => some (if payload.length < 256 then .annDataS else .annData)

/-- The command is meant for opcodes of this layout, and a displacement of one byte fits. Bytes that
are appended as they are need not be an instruction. -/
def fits : Command → Bool
  | .op opcode => opcode.layout = .none
  | .op8 opcode _ => opcode.layout = .int8 || opcode.layout = .uint8
  | .op16 opcode _ => opcode.layout = .uint16
  | .op32 opcode _ | .token opcode _ =>
      opcode.layout = .int32 || opcode.layout = .float32 || opcode.layout = .token
  | .branch opcode _ => opcode.layout = .shortBranch || opcode.layout = .branch
  | .branchBy opcode displacement =>
      opcode.layout = .branch || (opcode.layout = .shortBranch &&
        (-128 ≤ displacement.toInt && displacement.toInt ≤ 127))
  | .raw _ => false
  | _ => true

/-- The instruction has the operand that the command gives it, where `bound` says which place a
label has. -/
def Carries (bound : Nat → Option Nat) (i : Instruction) : Command → Prop
  | .newLabel | .mark _ | .here | .raw _ => False
  | .op _ => i.operand = .none
  | .op8 opcode value => i.operand = opcode.layout.operand8 value
  | .op16 _ value => i.operand = .uint16 value
  | .op32 opcode value | .token opcode value => i.operand = opcode.layout.operand32 value
  | .loadInt32 value => i.operand = .int32 value
  | .loadInt8 value => i.operand = .int8 value
  | .loadInt64 value => i.operand = .int64 value
  | .loadFloat32 bits => i.operand = .float32 bits
  | .loadFloat64 bits => i.operand = .float64 bits
  | .branch _ label => ∃ target : Nat, bound label = some target ∧ i.operand = .branch target
  | .branchBy _ displacement => i.operand = .branch (i.next + displacement.toInt)
  | .switch labels => ∃ targets : List Nat, labels.map bound = targets.map some ∧
      i.operand = .switch (targets.map fun target : Nat => (target : Int))
  | .remark payload => i.operand = .payload payload.length

end Command

/-- The instructions that commands write, with the offset that the assembler has before each. -/
def emissions (a : Assembler) : List Command → List (Nat × Command)
  | [] => []
  | c :: rest =>
      if c.opcode?.isSome then (a.offset, c) :: (c.apply a).emissions rest
      else (c.apply a).emissions rest

/-- An instruction of the listing is one that was written. -/
structure ReadBack (bound : Nat → Option Nat) (written : Nat × Command) (i : Instruction) :
    Prop where
  offset_eq : i.offset = written.1
  opcode_eq : written.2.opcode? = some i.opcode
  carries : written.2.Carries bound i

/-! ## One instruction -/

variable {a final : Assembler} {c : Command} {offset : Nat} {code : Code}

/-- The command is written as bytes that read back as its instruction. -/
def Command.Encodes (a : Assembler) (offset : Nat) (c : Command) (code : Code) : Prop :=
  ∃ i : Instruction, i.Encodes code ∧ ReadBack a.place? (offset, c) i

/-- An instruction whose bytes are known at once. -/
theorem encodes_of_bytes {opcode : Opcode} {operand : Operand} {bytes : List UInt8}
    (h : a.resolveAll [.bytes (opcode.encoding ++ bytes)] = .ok code)
    (hlayout : opcode.layout.Encodes (offset + opcode.length) operand bytes)
    (hopcode : c.opcode? = some opcode)
    (hcarries : c.Carries a.place? ⟨offset, opcode, opcode.length + bytes.length, operand⟩) :
    c.Encodes a offset code := by
  rw [resolveAll_singleton] at h
  cases h
  exact ⟨_, Opcode.encodes hlayout, rfl, hopcode, hcarries⟩

theorem isShort_of_shortBranch {opcode : Opcode} (h : opcode.layout = .shortBranch) :
    isShort opcode = true := decide_eq_true h

theorem isShort_of_branch {opcode : Opcode} (h : opcode.layout = .branch) :
    isShort opcode = false := by
  refine decide_eq_false ?_
  rw [h]
  decide

/-- A branch to a label leads to the place of the label. -/
theorem branch_encodes {opcode : Opcode} {label : Nat}
    (hfits : (Command.branch opcode label).fits = true)
    (h : a.resolveAll ((Command.branch opcode label).fragments offset) = .ok code)
    (hplaces : ∀ label place, a.place? label = some place → place < 2 ^ 31)
    (hend : offset + code.length < 2 ^ 31) :
    (Command.branch opcode label).Encodes a offset code := by
  simp only [Command.fits, Bool.or_eq_true, decide_eq_true_eq] at hfits
  obtain ⟨bytes, hbytes, rfl⟩ := resolveAll_bytes_cons h
  rw [resolveAll_singleton] at hbytes
  rw [List.length_append, opcode.length_encoding] at hend
  rcases hfits with hlayout | hlayout
  · have hshort := isShort_of_shortBranch hlayout
    simp only [hshort, if_true] at hbytes
    obtain ⟨place, hplace, rfl, hdistance⟩ := resolve_short hbytes
    refine ⟨_, Opcode.encodes (Layout.encodes_shortBranch hlayout hdistance), rfl, rfl, place,
      hplace, congrArg Operand.branch ?_⟩
    push_cast
    omega
  · have hlong := isShort_of_branch hlayout
    simp only [hlong, Bool.false_eq_true, if_false] at hbytes
    obtain ⟨place, hplace, rfl⟩ := resolve_long hbytes
    have hlt := hplaces label place hplace
    rw [length_bytes32] at hend
    -- Both ends of the branch lie below `2 ^ 31`, so the distance is in range.
    have hmin : -2 ^ 31 ≤ (place : Int) - (offset + opcode.length + 4 : Nat) := by omega
    have hmax : (place : Int) - (offset + opcode.length + 4 : Nat) < 2 ^ 31 := by omega
    refine ⟨_, Opcode.encodes (Layout.encodes_branch hlayout (displacement32_toUInt32 hmin hmax)),
      rfl, rfl, place, hplace, congrArg Operand.branch ?_⟩
    push_cast
    omega

theorem branchBy_encodes {opcode : Opcode} {displacement : Int32}
    (hfits : (Command.branchBy opcode displacement).fits = true)
    (h : a.resolveAll ((Command.branchBy opcode displacement).fragments offset) = .ok code) :
    (Command.branchBy opcode displacement).Encodes a offset code := by
  simp only [Command.fits, Bool.or_eq_true, Bool.and_eq_true, decide_eq_true_eq] at hfits
  simp only [Command.fragments] at h
  rcases hfits with hlayout | ⟨hlayout, hmin, hmax⟩
  · have hlong := isShort_of_branch hlayout
    have hdistance : displacement32 displacement.toUInt32.toNat = displacement.toInt := by
      rw [displacement32, UInt32.ofNat_toNat, Int32.toInt32_toUInt32]
    simp only [hlong, Bool.false_eq_true, if_false] at h
    refine encodes_of_bytes h (Layout.encodes_branch hlayout hdistance) rfl
      (congrArg Operand.branch ?_)
    simp only [Instruction.next, length_bytes32]
    push_cast
    omega
  · have hshort := isShort_of_shortBranch hlayout
    have hdistance := displacement8_lowByte hmin hmax
    have hbyte : (bytes32 displacement.toUInt32).take 1 =
        [UInt8.ofNat displacement.toUInt32.toNat] := rfl
    simp only [hshort, if_true, hbyte] at h
    refine encodes_of_bytes h (Layout.encodes_shortBranch hlayout hdistance) rfl
      (congrArg Operand.branch ?_)
    simp only [Instruction.next, List.length_singleton]
    push_cast
    omega

/-- The table of a switch over labels. -/
theorem resolveAll_cases {labels : List Nat} {base source : Nat} {code : Code}
    (h : a.resolveAll (labels.map fun label => .displacement label base source false) =
      .ok code) :
    ∃ places : List Nat, labels.map a.place? = places.map some ∧
      code = Layout.caseBytes (places.map fun place : Nat => (place : Int) - base) := by
  induction labels generalizing code with
  | nil =>
      cases h
      exact ⟨[], rfl, rfl⟩
  | cons label labels ih =>
      rw [List.map_cons, resolveAll_cons] at h
      obtain ⟨first, hfirst, h⟩ := bind_eq_ok h
      obtain ⟨rest, hrest, h⟩ := bind_eq_ok h
      cases h
      obtain ⟨place, hplace, rfl⟩ := resolve_long hfirst
      obtain ⟨places, hplaces, rfl⟩ := ih hrest
      refine ⟨place :: places, ?_, rfl⟩
      rw [List.map_cons, List.map_cons, hplace, hplaces]

theorem switch_encodes {labels : List Nat}
    (h : a.resolveAll ((Command.switch labels).fragments offset) = .ok code)
    (hplaces : ∀ label place, a.place? label = some place → place < 2 ^ 31)
    (hend : offset + code.length < 2 ^ 31) :
    (Command.switch labels).Encodes a offset code := by
  obtain ⟨bytes, hbytes, rfl⟩ := resolveAll_bytes_cons h
  -- All displacements count from the instruction behind the table.
  generalize hbase : offset + Opcode.switch.length + 4 + 4 * labels.length = base at hbytes
  obtain ⟨places, hplace, rfl⟩ := resolveAll_cases hbytes
  have hcount : (places.map fun place : Nat => (place : Int) - base).length = labels.length := by
    have hlengths := congrArg List.length hplace
    simpa using hlengths.symm
  rw [List.append_assoc] at hend ⊢
  rw [← hcount] at hbase hend ⊢
  have hlength : Opcode.switch.encoding.length = Opcode.switch.length := Opcode.length_encoding _
  simp only [List.length_append, length_bytes32, Layout.length_caseBytes, hlength] at hend
  have hrange : ∀ distance ∈ places.map fun place : Nat => (place : Int) - base,
      -2 ^ 31 ≤ distance ∧ distance < 2 ^ 31 := by
    intro distance hmem
    obtain ⟨place, hplaced, rfl⟩ := List.mem_map.mp hmem
    have hsome : some place ∈ labels.map a.place? := by
      rw [hplace]
      exact List.mem_map_of_mem hplaced
    obtain ⟨label, _, hlabel⟩ := List.mem_map.mp hsome
    have hlt := hplaces label place hlabel
    omega
  refine ⟨_, Opcode.encodes (Layout.encodes_switch hrange (by omega)), rfl, rfl, places, hplace,
    congrArg Operand.switch ?_⟩
  rw [List.map_map]
  refine List.map_congr_left fun place _ => ?_
  simp only [Function.comp_apply]
  omega

theorem remark_encodes {payload : List UInt8}
    (h : a.resolveAll ((Command.remark payload).fragments offset) = .ok code)
    (hend : offset + code.length < 2 ^ 31) :
    (Command.remark payload).Encodes a offset code := by
  simp only [Command.fragments] at h
  by_cases hshort : payload.length < 256
  · rw [if_pos hshort, List.append_assoc] at h
    exact encodes_of_bytes h (Layout.encodes_payload8 hshort) (congrArg some (if_pos hshort)) rfl
  · have hlong : payload.length < 2 ^ 32 := by
      rw [resolveAll_singleton] at h
      cases h
      simp only [List.length_append] at hend
      omega
    rw [if_neg hshort, List.append_assoc] at h
    exact encodes_of_bytes h (Layout.encodes_payload32 hlong) (congrArg some (if_neg hshort)) rfl

/-- **One instruction.** With all labels in place, what a command appends reads back as the
instruction that it was to write. -/
theorem Command.encodes (hfits : c.fits = true) (hwrites : c.opcode?.isSome = true)
    (h : a.resolveAll (c.fragments offset) = .ok code)
    (hplaces : ∀ label place, a.place? label = some place → place < 2 ^ 31)
    (hend : offset + code.length < 2 ^ 31) : c.Encodes a offset code := by
  cases c with
  | newLabel | mark label | here | raw bytes => cases hwrites
  | op opcode =>
      refine encodes_of_bytes ?_ (Layout.encodes_none (of_decide_eq_true hfits)) rfl rfl
      rw [List.append_nil]
      exact h
  | op8 opcode value =>
      simp only [fits, Bool.or_eq_true, decide_eq_true_eq] at hfits
      exact encodes_of_bytes h (Layout.encodes_operand8 hfits value) rfl rfl
  | op16 opcode value =>
      exact encodes_of_bytes h (Layout.encodes_uint16 (of_decide_eq_true hfits) value) rfl rfl
  | op32 opcode value | token opcode value =>
      simp only [fits, Bool.or_eq_true, decide_eq_true_eq] at hfits
      exact encodes_of_bytes h (Layout.encodes_operand32 hfits value) rfl rfl
  | loadInt32 value =>
      have hvalue := congrArg Operand.int32 (Int32.toInt32_toUInt32 value)
      exact encodes_of_bytes h (Layout.encodes_operand32 (.inl (.inl rfl)) _) rfl hvalue
  | loadInt8 value =>
      have hvalue := congrArg Operand.int8 (Int8.toInt8_toUInt8 value)
      exact encodes_of_bytes h (Layout.encodes_operand8 (.inl rfl) _) rfl hvalue
  | loadInt64 value =>
      have hvalue := congrArg Operand.int64 (Int64.toInt64_toUInt64 value)
      exact encodes_of_bytes h
        (Layout.encodes_word64 (fun value => .int64 value.toInt64) (fun _ => rfl) _) rfl hvalue
  | loadFloat32 bits =>
      exact encodes_of_bytes h (Layout.encodes_operand32 (.inl (.inr rfl)) bits) rfl rfl
  | loadFloat64 bits =>
      exact encodes_of_bytes h (Layout.encodes_word64 .float64 (fun _ => rfl) bits) rfl rfl
  | branch opcode label => exact branch_encodes hfits h hplaces hend
  | branchBy opcode displacement => exact branchBy_encodes hfits h
  | switch labels => exact switch_encodes h hplaces hend
  | remark payload => exact remark_encodes h hend

/-! ## Whole programs -/

/-- The listing of the code of a program, from any offset on and with any placement of labels. -/
theorem disassembleFrom_program {commands : List Command}
    (hfits : ∀ c ∈ commands, c.fits = true)
    (hplaces : ∀ label place, final.place? label = some place → place < 2 ^ 31)
    (h : final.resolveAll (program a.offset commands) = .ok code)
    (hend : a.offset + code.length < 2 ^ 31) :
    (disassembleFrom a.offset code).fault = none ∧
      List.Forall₂ (ReadBack final.place?) (a.emissions commands)
        (disassembleFrom a.offset code).instructions := by
  induction commands generalizing a code with
  | nil =>
      rw [program, resolveAll_nil] at h
      cases h
      rw [disassembleFrom_nil]
      exact ⟨rfl, .nil⟩
  | cons c rest ih =>
      -- The code of the first command comes off, and the rest starts where it ends.
      obtain ⟨hc, hrest⟩ := List.forall_mem_cons.mp hfits
      rw [program, resolveAll_append] at h
      obtain ⟨first, hfirst, h⟩ := bind_eq_ok h
      obtain ⟨bytes, hbytes, h⟩ := bind_eq_ok h
      cases h
      have hoffset := (apply_fragments a c).2
      rw [← hoffset] at hbytes
      rw [← resolveAll_length hfirst] at hoffset
      rw [List.length_append] at hend
      have htail := ih hrest hbytes (by omega)
      by_cases hwrites : c.opcode?.isSome = true
      · obtain ⟨i, hi, hread⟩ := Command.encodes hc hwrites hfirst hplaces (by omega)
        have hstart : i.offset = a.offset := hread.offset_eq
        have hnext : i.next = (c.apply a).offset := by
          rw [Instruction.next, hi.size_eq, hstart, hoffset]
        rw [← hstart, disassembleFrom_append hi, hnext, emissions, if_pos hwrites]
        exact ⟨htail.1, .cons hread htail.2⟩
      · -- A label takes no room in the code.
        have hnone : c.fragments a.offset = [] := by
          cases c with
          | newLabel | mark label | here => rfl
          | raw bytes => cases hc
          | _ => exact absurd rfl hwrites
        rw [hnone, resolveAll_nil] at hfirst
        cases hfirst
        rw [emissions, if_neg hwrites]
        rw [hoffset] at htail
        exact htail

/-- **Assembled code is read back.** If every command is used with an opcode of its layout and the
code is finished, the listing has one instruction for each that was written, at the offset at which
it was written, with its opcode and its operand; a branch or a switch leads to where its labels were
placed last. -/
theorem disassemble_assemble (commands : List Command) (hfits : ∀ c ∈ commands, c.fits = true)
    {code : Code} (h : (run {} commands).finish = .ok code) (hlength : code.length < 2 ^ 31) :
    (disassemble code).fault = none ∧
      List.Forall₂ (ReadBack (lastBound commands)) (emissions {} commands)
        (disassemble code).instructions := by
  obtain ⟨_, hoffset⟩ := run_fragments {} commands
  have hresolve : (run {} commands).resolveAll (program 0 commands) = .ok code := by
    rw [← finish_eq_resolveAll, h]
  have hwithin : (run {} commands).PlacesWithin := placesWithin_run placesWithin_empty commands
  have hplaces : ∀ label place, (run {} commands).place? label = some place → place < 2 ^ 31 := by
    intro label place hplace
    have hle := hwithin label place hplace
    have hsize := resolveAll_length hresolve
    simp only at hoffset
    omega
  have hend : ({} : Assembler).offset + code.length < 2 ^ 31 := by simpa using hlength
  rw [← place?_eq_lastBound]
  exact disassembleFrom_program hfits hplaces hresolve hend

/-- A loop with a forward branch, a switch and a remark. The second label is placed twice, and only
the second placement counts. -/
def loopProgram : List Command :=
  [.here, .newLabel, .op .ldarg0, .branch .brtrueS 1, .mark 1, .op .ldarg0, .switch [0, 1],
    .remark [7, 7], .loadFloat32 0x3F800000, .branchBy .brS (-3), .mark 1, .op .ret]

/-- The forward branch leads over the first placement of its label, and one case of the switch back
to the start. -/
theorem disassemble_loopProgram :
    ∃ code, (run {} loopProgram).finish = .ok code ∧ (disassemble code).fault = none ∧
      List.Forall₂ (ReadBack (lastBound loopProgram)) (emissions {} loopProgram)
        (disassemble code).instructions ∧
      lastBound loopProgram 1 = some 29 ∧ lastBound loopProgram 0 = some 0 := by
  have hfinish : ∃ code, (run {} loopProgram).finish = .ok code ∧ code.length = 30 :=
    ⟨_, rfl, rfl⟩
  obtain ⟨code, hcode, hlength⟩ := hfinish
  obtain ⟨hfault, hread⟩ :=
    disassemble_assemble loopProgram (by decide) hcode (by rw [hlength]; decide)
  exact ⟨code, hcode, hfault, hread, by decide, by decide⟩

end Assembler

end ManagedCode