import ManagedCode.Proofs.Code.Listing
import ManagedCode.Proofs.Effect.Relocation

set_option autoImplicit false

/-! # Long and short forms

Many instructions can be written in more than one way: with a small operand in one byte, or with
the operand in the opcode itself. Each has a long form, `Instruction.longForm`, and two instructions
are alike if their long forms have the same opcode and the same operand (`Instruction.Alike`). The
table of long forms does not refer to operations; that it keeps them is `Decoded.longForm`. So
instructions that are alike stand for the same operation: `Instruction.Alike.operation?`.
-/

namespace ManagedCode

namespace Operand

/-- The same number in an operand of the long form. -/
def long : Operand → Operand
  | .int8 value => .int32 value.toInt32
  | .uint8 value => .uint16 value.toUInt16
  | operand => operand

/-- The offsets that the operand names. -/
def targets : Operand → List Int
  | .branch target => [target]
  | .switch targets => targets
  | _ => []

/-- The operands name related targets, and are the same if they name none. -/
inductive Alike (T : Int → Int → Prop) : Operand → Operand → Prop
  | branch {t t' : Int} (h : T t t') : Alike T (.branch t) (.branch t')
  | switch {ts ts' : List Int} (h : List.Forall₂ T ts ts') : Alike T (.switch ts) (.switch ts')
  | same {x : Operand} (h : x.targets = []) : Alike T x x

theorem Alike.forall₂_targets {T : Int → Int → Prop} {x x' : Operand} (h : x.Alike T x') :
    List.Forall₂ T x.targets x'.targets := by
  cases h with
  | branch h => exact .cons h .nil
  | switch h => exact h
  | same h =>
      rw [h]
      exact .nil

theorem Alike.imp {S T : Int → Int → Prop} {x x' : Operand} (h : x.Alike T x')
    (himp : ∀ t ∈ x.targets, ∀ t', T t t' → S t t') : x.Alike S x' := by
  cases h with
  | branch h => exact .branch (himp _ (List.mem_singleton_self _) _ h)
  | switch h => exact .switch (forall₂_imp_of_mem h fun t ht t' _ => himp t ht t')
  | same h => exact .same h

end Operand

namespace Instruction

/-- The instruction in its long form, which says the same. The bytes of a remark say nothing. Other
instructions are long already. -/
def longForm (i : Instruction) : Instruction :=
  match i.opcode with
  | .ldarg0 => { i with opcode := .ldarg, operand := .uint16 0 }
  | .ldarg1 => { i with opcode := .ldarg, operand := .uint16 1 }
  | .ldarg2 => { i with opcode := .ldarg, operand := .uint16 2 }
  | .ldarg3 => { i with opcode := .ldarg, operand := .uint16 3 }
  | .ldargS => { i with opcode := .ldarg, operand := i.operand.long }
  | .ldargaS => { i with opcode := .ldarga, operand := i.operand.long }
  | .stargS => { i with opcode := .starg, operand := i.operand.long }
  | .ldloc0 => { i with opcode := .ldloc, operand := .uint16 0 }
  | .ldloc1 => { i with opcode := .ldloc, operand := .uint16 1 }
  | .ldloc2 => { i with opcode := .ldloc, operand := .uint16 2 }
  | .ldloc3 => { i with opcode := .ldloc, operand := .uint16 3 }
  | .ldlocS => { i with opcode := .ldloc, operand := i.operand.long }
  | .ldlocaS => { i with opcode := .ldloca, operand := i.operand.long }
  | .stloc0 => { i with opcode := .stloc, operand := .uint16 0 }
  | .stloc1 => { i with opcode := .stloc, operand := .uint16 1 }
  | .stloc2 => { i with opcode := .stloc, operand := .uint16 2 }
  | .stloc3 => { i with opcode := .stloc, operand := .uint16 3 }
  | .stlocS => { i with opcode := .stloc, operand := i.operand.long }
  | .ldcI4M1 => { i with opcode := .ldcI4, operand := .int32 (-1) }
  | .ldcI40 => { i with opcode := .ldcI4, operand := .int32 0 }
  | .ldcI41 => { i with opcode := .ldcI4, operand := .int32 1 }
  | .ldcI42 => { i with opcode := .ldcI4, operand := .int32 2 }
  | .ldcI43 => { i with opcode := .ldcI4, operand := .int32 3 }
  | .ldcI44 => { i with opcode := .ldcI4, operand := .int32 4 }
  | .ldcI45 => { i with opcode := .ldcI4, operand := .int32 5 }
  | .ldcI46 => { i with opcode := .ldcI4, operand := .int32 6 }
  | .ldcI47 => { i with opcode := .ldcI4, operand := .int32 7 }
  | .ldcI48 => { i with opcode := .ldcI4, operand := .int32 8 }
  | .ldcI4S => { i with opcode := .ldcI4, operand := i.operand.long }
  | .brS => { i with opcode := .br }
  | .brfalseS => { i with opcode := .brfalse }
  | .brtrueS => { i with opcode := .brtrue }
  | .beqS => { i with opcode := .beq }
  | .bgeS => { i with opcode := .bge }
  | .bgtS => { i with opcode := .bgt }
  | .bleS => { i with opcode := .ble }
  | .bltS => { i with opcode := .blt }
  | .bneUnS => { i with opcode := .bneUn }
  | .bgeUnS => { i with opcode := .bgeUn }
  | .bgtUnS => { i with opcode := .bgtUn }
  | .bleUnS => { i with opcode := .bleUn }
  | .bltUnS => { i with opcode := .bltUn }
  | .leaveS => { i with opcode := .leave }
  | .annDataS | .annData => { i with opcode := .annData, operand := .payload 0 }
  | _ => i

/-- The instructions are forms of one another. What they name as targets is related. -/
structure Alike (T : Int → Int → Prop) (i i' : Instruction) : Prop where
  opcode_eq : i.longForm.opcode = i'.longForm.opcode
  operand : i.longForm.operand.Alike T i'.longForm.operand

theorem targets_eq (i : Instruction) : i.targets = i.operand.targets := by
  obtain ⟨_, _, _, operand⟩ := i
  cases operand <;> rfl

/-- The targets are corresponding offsets. -/
def LeadsAlike (R : Nat → Nat → Prop) (t t' : Int) : Prop :=
  ∃ offset offset' : Nat, t = offset ∧ t' = offset' ∧ R offset offset'

/-- **The long form stands for the same operation and leads to the same places.** -/
theorem Decoded.longForm {i : Instruction} (h : i.Decoded) :
    i.longForm.operation? = i.operation? ∧ i.longForm.operand.targets = i.targets := by
  have hoperand := h.holds
  clear h
  obtain ⟨offset, opcode, size, operand⟩ := i
  cases opcode
  -- Only where the operand itself becomes longer does its kind matter.
  all_goals first
    | exact ⟨rfl, (targets_eq _).symm⟩
    | (cases operand <;> first | (cases hoperand; done) | exact ⟨rfl, rfl⟩)

variable {R : Nat → Nat → Prop}

/-- The operation of an instruction whose operand names a place. -/
theorem moved_of_branch {i i' : Instruction} (hopcode : i.opcode = i'.opcode) {t t' : Nat}
    (ht : R t t') (hi : i.operand = .branch t) (hi' : i'.operand = .branch t')
    {operation operation' : Operation} (h : i.operation? = some operation)
    (h' : i'.operation? = some operation') : operation.Moved R operation' := by
  obtain ⟨_, opcode, _, _⟩ := i
  obtain ⟨_, _, _, _⟩ := i'
  cases hopcode
  cases hi
  cases hi'
  cases opcode
  -- A branch of some sort, an operation that the operand does not matter to, or none at all.
  all_goals first
    | (cases h; done)
    | (cases h; cases h'; first
        | exact .branch ht
        | exact .branchIf _ ht
        | exact .branchCompare _ ht
        | exact .leave ht
        | exact .same rfl)

theorem moved_of_switch {i i' : Instruction} (hopcode : i.opcode = i'.opcode)
    {ts ts' : List Nat} (hts : List.Forall₂ R ts ts')
    (hi : i.operand = .switch (ts.map Int.ofNat)) (hi' : i'.operand = .switch (ts'.map Int.ofNat))
    {operation operation' : Operation} (h : i.operation? = some operation)
    (h' : i'.operation? = some operation') : operation.Moved R operation' := by
  obtain ⟨_, opcode, _, _⟩ := i
  obtain ⟨_, _, _, _⟩ := i'
  cases hopcode
  cases hi
  cases hi'
  cases opcode
  all_goals first
    | (cases h; done)
    | (cases h; cases h'; first
        | exact .switch hts
        | exact .same rfl)

theorem operation?_congr {i i' : Instruction} (hopcode : i.opcode = i'.opcode)
    (hoperand : i.operand = i'.operand) : i.operation? = i'.operation? := by
  obtain ⟨_, opcode, _, _⟩ := i
  obtain ⟨_, _, _, _⟩ := i'
  cases hopcode
  cases hoperand
  rfl

theorem exists_offsets {ts ts' : List Int} (h : List.Forall₂ (LeadsAlike R) ts ts') :
    ∃ offsets offsets', ts = offsets.map Int.ofNat ∧ ts' = offsets'.map Int.ofNat ∧
      List.Forall₂ R offsets offsets' := by
  induction h with
  | nil => exact ⟨[], [], rfl, rfl, .nil⟩
  | cons ht _ ih =>
      obtain ⟨offset, offset', rfl, rfl, hoffset⟩ := ht
      obtain ⟨offsets, offsets', rfl, rfl, hoffsets⟩ := ih
      exact ⟨offset :: offsets, offset' :: offsets', rfl, rfl, .cons hoffset hoffsets⟩

/-- **Instructions that are alike stand for the same operation**, with corresponding targets. -/
theorem Alike.operation? {i i' : Instruction} (h : i.Alike (LeadsAlike R) i') (hi : i.Decoded)
    (hi' : i'.Decoded) :
    ∃ operation operation', i.operation? = some operation ∧ i'.operation? = some operation' ∧
      operation.Moved R operation' := by
  obtain ⟨operation, hop⟩ := hi.exists_operation
  obtain ⟨operation', hop'⟩ := hi'.exists_operation
  refine ⟨operation, operation', hop, hop', ?_⟩
  have hflow : operation.targets = i.targets := (hi.flow_of_operation? hop).2
  obtain ⟨hlong, htargets⟩ := hi.longForm
  obtain ⟨hlong', _⟩ := hi'.longForm
  rw [← hlong] at hop
  rw [← hlong'] at hop'
  have hoperand := h.operand
  generalize hx : i.longForm.operand = x at hoperand htargets
  generalize hx' : i'.longForm.operand = x' at hoperand
  cases hoperand with
  | branch ht =>
      obtain ⟨offset, offset', rfl, rfl, hoffset⟩ := ht
      exact moved_of_branch h.opcode_eq hoffset hx hx' hop hop'
  | switch hts =>
      obtain ⟨offsets, offsets', rfl, rfl, hoffsets⟩ := exists_offsets hts
      exact moved_of_switch h.opcode_eq hoffsets hx hx' hop hop'
  | same hnone =>
      -- The long forms differ in nothing but the place.
      have hsame := operation?_congr h.opcode_eq (hx.trans hx'.symm)
      have heq : operation = operation' := Option.some.inj (hop.symm.trans (hsame.trans hop'))
      rw [← heq]
      exact .same (hflow.trans (htargets.symm.trans hnone))

end Instruction

end ManagedCode
