import ManagedCode.Proofs.Code.Displacements
import ManagedCode.Proofs.Code.Words

set_option autoImplicit false

/-! # Code in one buffer

A writer keeps its code in one buffer. Zeros stand in the buffer where a displacement is open, and a
fix-up says what belongs there. When the code is finished, the zeros are overwritten in place, one
fix-up after the other.

Told the same commands, the writer finishes with the code of the assembler or with its error
(`Writer.finish_eq`). Step by step its buffer is what the assembler has written, and its fix-ups are
the gaps in that (`Writer.Matches`). To overwrite bytes that are not there would be a trap; fix-ups
lie in the buffer, so there is none.
-/

namespace ManagedCode

open Assembler (Command Gap fragmentGaps fragmentSize isShort)
open Words (Trap)

/-- Code under construction in one buffer. -/
structure Writer where
  code : Code := []
  /-- The place of each label handed out so far. -/
  labels : Array (Option Nat) := #[]
  /-- The displacements that are open. -/
  fixups : Array Gap := #[]

namespace Writer

/-! ## Writing -/

/-- Offset at which the next instruction will start. -/
def offset (w : Writer) : Nat := w.code.length

def label (w : Writer) : Nat × Writer :=
  (w.labels.size, { w with labels := w.labels.push none })

def mark (w : Writer) (label : Nat) : Writer :=
  { w with labels := w.labels.setIfInBounds label (some w.offset) }

def here (w : Writer) : Nat × Writer :=
  let (label, w) := w.label
  (label, w.mark label)

/-- Puts bytes behind the code. -/
def raw (w : Writer) (bytes : List UInt8) : Writer := { w with code := w.code ++ bytes }

def op (w : Writer) (opcode : Opcode) : Writer := w.raw opcode.encoding

def op8 (w : Writer) (opcode : Opcode) (value : UInt8) : Writer := (w.op opcode).raw [value]

def op16 (w : Writer) (opcode : Opcode) (value : UInt16) : Writer :=
  (w.op opcode).raw (bytes16 value)

def op32 (w : Writer) (opcode : Opcode) (value : UInt32) : Writer :=
  (w.op opcode).raw (bytes32 value)

def op64 (w : Writer) (opcode : Opcode) (value : UInt64) : Writer :=
  (w.op opcode).raw (bytes64 value)

/-- A branch to a label: zeros for the displacement, and a fix-up for them. -/
def branch (w : Writer) (opcode : Opcode) (label : Nat) : Writer :=
  let head := w.op opcode
  let short := isShort opcode
  let whole := head.raw (List.replicate (if short then 1 else 4) 0)
  { whole with fixups := whole.fixups.push ⟨head.offset, label, whole.offset, w.offset, short⟩ }

def branchBy (w : Writer) (opcode : Opcode) (displacement : Int32) : Writer :=
  let head := w.op opcode
  if isShort opcode then head.raw [displacement.toInt8.toUInt8]
  else head.raw (bytes32 displacement.toUInt32)

/-- A switch: a fix-up for each case, and zeros for the whole table. -/
def switch (w : Writer) (labels : List Nat) : Writer :=
  let head := (w.op .switch).raw (bytes32 (UInt32.ofNat labels.length))
  let table := head.offset
  let next := w.offset + 5 + 4 * labels.length
  let fixups : List Gap :=
    labels.mapIdx fun k label => ⟨table + k * 4, label, next, w.offset, false⟩
  { head with fixups := head.fixups ++ fixups }.raw (List.replicate (labels.length * 4) 0)

def remark (w : Writer) (payload : List UInt8) : Writer :=
  let head :=
    if payload.length < 256 then (w.op .annDataS).raw [UInt8.ofNat payload.length]
    else (w.op .annData).raw (bytes32 (UInt32.ofNat payload.length))
  head.raw payload

/-- Carries out a command. -/
def apply (w : Writer) : Command → Writer
  | .newLabel => w.label.2
  | .mark label => w.mark label
  | .here => w.here.2
  | .op opcode => w.op opcode
  | .op8 opcode value => w.op8 opcode value
  | .op16 opcode value => w.op16 opcode value
  | .op32 opcode value | .token opcode value => w.op32 opcode value
  | .loadInt32 value => w.op32 .ldcI4 value.toUInt32
  | .loadInt8 value => w.op8 .ldcI4S value.toUInt8
  | .loadInt64 value => w.op64 .ldcI8 value.toUInt64
  | .loadFloat32 bits => w.op32 .ldcR4 bits
  | .loadFloat64 bits => w.op64 .ldcR8 bits
  | .branch opcode label => w.branch opcode label
  | .branchBy opcode displacement => w.branchBy opcode displacement
  | .switch labels => w.switch labels
  | .remark payload => w.remark payload
  | .raw bytes => w.raw bytes

/-- Carries out commands one after the other. -/
def run (w : Writer) (commands : List Command) : Writer := commands.foldl apply w

/-! ## Finishing -/

/-- Overwrites the bytes from an index on. -/
def overwrite (code : Code) (index : Nat) (bytes : List UInt8) : Except Trap Code :=
  if index + bytes.length ≤ code.length then
    .ok (code.take index ++ (bytes ++ code.drop (index + bytes.length)))
  else .error (.outside (index + bytes.length))

/-- Fills in a displacement. -/
def patch (w : Writer) (code : Code) (g : Gap) : ExceptT AssemblyError (Except Trap) Code :=
  match (w.labels[g.label]?).join with
  | none => throw (.unboundLabel g.label)
  | some place =>
      let distance : Int := place - g.next
      if g.short then
        if -128 ≤ distance ∧ distance ≤ 127 then
          overwrite code g.position [(Int8.ofInt distance).toUInt8]
        else throw (.displacementOverflow g.source distance)
      else overwrite code g.position (bytes32 (Int32.ofInt distance).toUInt32)

/-- The buffer with all displacements filled in, in the order of the fix-ups. -/
def finish (w : Writer) : Except Trap (Except AssemblyError Code) :=
  (w.fixups.toList.foldlM w.patch w.code).run

/-! ## One command -/

variable {w : Writer} {a : Assembler}

theorem lowByte_eq_toInt8 (displacement : Int32) :
    (bytes32 displacement.toUInt32).take 1 = [displacement.toInt8.toUInt8] := by
  have hbyte : displacement.toInt8.toUInt8 = UInt8.ofNat displacement.toUInt32.toNat := by
    apply UInt8.toBitVec_inj.mp
    show displacement.toBitVec.signExtend 8 = displacement.toBitVec.setWidth 8
    exact BitVec.signExtend_eq_setWidth_of_le _ (by omega)
  rw [hbyte]
  rfl

theorem blank_cases (next source : Nat) (labels : List Nat) :
    (labels.map fun label => Fragment.displacement label next source false).flatMap
      Fragment.blank = List.replicate (labels.length * 4) 0 := by
  induction labels with
  | nil => rfl
  | cons label labels ih =>
      rw [List.map_cons, List.flatMap_cons, ih, List.length_cons, Fragment.blank,
        List.replicate_append_replicate]
      congr 1
      simp only [Bool.false_eq_true, if_false]
      omega

/-- A command puts its fragments behind the code, with zeros for what is open. -/
theorem apply_code (w : Writer) (c : Command) :
    (w.apply c).code = w.code ++ (c.fragments w.offset).flatMap Fragment.blank := by
  cases c with
  | branchBy opcode displacement =>
      simp only [apply, branchBy, Command.fragments, lowByte_eq_toInt8]
      split <;> simp [raw, op, Fragment.blank]
  | switch labels =>
      simp [apply, switch, Command.fragments, raw, op, Fragment.blank, blank_cases]
  | remark payload =>
      simp only [apply, remark, Command.fragments]
      split <;> simp [raw, op, Fragment.blank]
  | _ =>
      simp [apply, Command.fragments, Fragment.blank, label, mark, here, op, op8, op16, op32, op64,
        raw, branch]

/-- A command leaves a fix-up for each of its gaps. -/
theorem apply_fixups (w : Writer) (c : Command) :
    (w.apply c).fixups.toList = w.fixups.toList ++ c.gaps w.offset := by
  cases c with
  | branch opcode label =>
      simp [apply, branch, Command.gaps, offset, raw, op, Opcode.length_encoding, Nat.add_assoc]
  | branchBy opcode displacement =>
      simp only [apply, branchBy]
      split <;> exact (List.append_nil _).symm
  | switch labels =>
      have htable : ((w.op .switch).raw (bytes32 (UInt32.ofNat labels.length))).offset =
          w.offset + 5 := by
        simp only [offset, raw, op, List.length_append, length_bytes32]
        rfl
      have hcase : ∀ k, 4 * k = k * 4 := Nat.mul_comm 4
      simp only [apply, switch, htable, Command.gaps, hcase]
      exact Array.toList_appendList
  | remark payload =>
      simp only [apply, remark]
      split <;> exact (List.append_nil _).symm
  | _ => exact (List.append_nil _).symm

theorem apply_labels (hlabels : w.labels = a.labels) (hoffset : w.offset = a.offset)
    (c : Command) : (w.apply c).labels = (c.apply a).labels := by
  cases c with
  | newLabel => simp only [apply, Command.apply, label, Assembler.label, hlabels]
  | mark target => simp only [apply, Command.apply, mark, Assembler.mark, hlabels, hoffset]
  | here =>
      show (w.labels.push none).setIfInBounds w.labels.size (some w.offset) =
        (a.labels.push none).setIfInBounds a.labels.size (some a.offset)
      rw [hlabels, hoffset]
  | branchBy opcode displacement =>
      simp only [apply, branchBy]
      split <;> exact hlabels
  | switch labels => exact hlabels.trans (Assembler.labels_switch a labels).symm
  | remark payload =>
      simp only [apply, remark]
      split <;> exact hlabels
  | _ => exact hlabels

/-! ## The writer and the assembler -/

/-- The buffer is what the assembler has written, and the fix-ups are the gaps in it. -/
structure Matches (w : Writer) (a : Assembler) : Prop where
  code_eq : w.code = a.written
  labels_eq : w.labels = a.labels
  fixups_eq : w.fixups.toList = fragmentGaps 0 a.fragments.toList
  offset_eq : w.offset = a.offset

theorem Matches.apply (h : w.Matches a) (c : Command) : (w.apply c).Matches (c.apply a) := by
  obtain ⟨hfragments, hoffset⟩ := Assembler.apply_fragments a c
  have hsize : fragmentSize a.fragments.toList = a.offset := by
    rw [← h.offset_eq, offset, h.code_eq]
    exact (Assembler.length_blanks _).symm
  refine ⟨?_, apply_labels h.labels_eq h.offset_eq c, ?_, ?_⟩
  · rw [apply_code, h.offset_eq, h.code_eq, Assembler.written, Assembler.written, hfragments,
      List.flatMap_append]
  · rw [apply_fixups, h.offset_eq, h.fixups_eq, hfragments, Assembler.fragmentGaps_append,
      Nat.zero_add, hsize, Assembler.fragmentGaps_command]
  · rw [offset, apply_code, List.length_append, Assembler.length_blanks, h.offset_eq, hoffset,
      ← h.offset_eq, offset]

theorem Matches.run (h : w.Matches a) (commands : List Command) :
    (w.run commands).Matches (a.run commands) := by
  induction commands generalizing w a with
  | nil => exact h
  | cons c rest ih => exact ih (h.apply c)

theorem matches_run (commands : List Command) :
    (Writer.run {} commands).Matches (Assembler.run {} commands) :=
  Matches.run ⟨rfl, rfl, rfl, rfl⟩ commands

/-- No offset that the writer keeps lies behind the code: each fits into a word that the length of
the code fits into. -/
theorem offsets_le (commands : List Command) :
    (∀ label place : Nat, ((run {} commands).labels[label]?).join = some place →
        place ≤ (run {} commands).code.length) ∧
      ∀ g ∈ (run {} commands).fixups.toList, g.position + g.width ≤ (run {} commands).code.length ∧
        g.source ≤ g.next ∧ g.next ≤ (run {} commands).code.length := by
  obtain ⟨hcode, hlabels, hfixups, hoffset⟩ := matches_run commands
  rw [offset] at hoffset
  rw [hlabels, hfixups, hoffset]
  refine ⟨Assembler.placesWithin_run Assembler.placesWithin_empty commands, fun g hg => ?_⟩
  have hwithin := (Assembler.fragmentGaps_within g hg).2
  rw [← Assembler.length_blanks, Nat.zero_add] at hwithin
  rw [(Assembler.run_fragments {} commands).1] at hg
  refine ⟨?_, Assembler.offsets_le_of_gap g ?_⟩
  · rw [← hoffset, hcode]
    exact hwithin
  · rw [← Assembler.fragmentGaps_program]
    exact hg

/-! ## Filling in place -/

theorem overwrite_blank {before bytes blank rest : List UInt8}
    (h : bytes.length = blank.length) :
    overwrite (before ++ (blank ++ rest)) before.length bytes =
      .ok (before ++ (bytes ++ rest)) := by
  have hwithin : before.length + bytes.length ≤ (before ++ (blank ++ rest)).length := by
    simp only [List.length_append]
    omega
  have hdrop : (before ++ (blank ++ rest)).drop (before.length + blank.length) = rest := by
    rw [← List.append_assoc, ← List.length_append, List.drop_left]
  rw [overwrite, if_pos hwithin, List.take_left, h, hdrop]

/-- An open displacement is filled with the bytes that it is resolved to. -/
theorem patch_eq (hlabels : w.labels = a.labels) (before rest : List UInt8)
    (label base source : Nat) (short : Bool) :
    w.patch (before ++ ((Fragment.displacement label base source short).blank ++ rest))
        ⟨before.length, label, base, source, short⟩ =
      ExceptT.mk (.ok ((a.resolve (.displacement label base source short)).map
        fun bytes => before ++ (bytes ++ rest))) := by
  simp only [patch, Assembler.resolve, Assembler.place?, hlabels]
  cases (a.labels[label]?).join with
  | none => rfl
  | some place =>
      cases short with
      | true =>
          by_cases hrange : -128 ≤ (place : Int) - base ∧ (place : Int) - base ≤ 127
          · simp only [if_true, if_pos hrange]
            rw [overwrite_blank (by rfl)]
            rfl
          · simp only [if_true, if_neg hrange]
            rfl
      | false =>
          simp only [Bool.false_eq_true, if_false]
          rw [overwrite_blank (length_bytes32 _)]
          rfl

/-- The code in front is filled already, and the fix-ups that are left are those of the fragments
behind it. -/
theorem foldlM_patch (hlabels : w.labels = a.labels) (before : List UInt8)
    (fragments : List Fragment) :
    (fragmentGaps before.length fragments).foldlM w.patch
        (before ++ fragments.flatMap Fragment.blank) =
      ExceptT.mk (.ok ((a.resolveAll fragments).map fun code => before ++ code)) := by
  induction fragments generalizing before with
  | nil => rfl
  | cons fragment rest ih =>
      have hfilled (bytes : List UInt8) (hbytes : bytes.length = fragment.size) :
          (fragmentGaps (before.length + fragment.size) rest).foldlM w.patch
              (before ++ (bytes ++ rest.flatMap Fragment.blank)) =
            ExceptT.mk (.ok ((a.resolveAll rest).map fun code => before ++ (bytes ++ code))) := by
        have hrest := ih (before ++ bytes)
        simp only [List.length_append, hbytes, List.append_assoc] at hrest
        exact hrest
      rw [Assembler.resolveAll_cons, List.flatMap_cons]
      cases fragment with
      | bytes content =>
          refine (hfilled content rfl).trans ?_
          cases a.resolveAll rest <;> rfl
      | displacement label base source short =>
          show (_ :: fragmentGaps _ rest).foldlM w.patch _ = _
          rw [List.foldlM_cons, patch_eq hlabels]
          cases h : a.resolve (.displacement label base source short) with
          | error e => rfl
          | ok bytes =>
              refine (hfilled bytes (Assembler.resolve_length h)).trans ?_
              cases a.resolveAll rest <;> rfl

/-- **The writer finishes as the assembler does.** For all commands, to fill the gaps of the buffer
in place gives the code that the assembler resolves its fragments to, or the same error, and no
fix-up leads out of the buffer. -/
theorem finish_eq (commands : List Command) :
    (run {} commands).finish = .ok (Assembler.run {} commands).finish := by
  have hmatches := matches_run commands
  have hpatch := foldlM_patch hmatches.labels_eq [] (Assembler.run {} commands).fragments.toList
  rw [finish, hmatches.fixups_eq, hmatches.code_eq]
  refine (congrArg ExceptT.run hpatch).trans ?_
  show Except.ok (Except.map id _) = _
  rw [Except.map_id]
  rfl

end Writer

end ManagedCode
