import ManagedCode.Proofs.Engine.Arrivals
import ManagedCode.Proofs.Engine.Protocol

set_option autoImplicit false

/-! # Modifiers and what they modify

A modifier waits for the next instruction that does something by itself. The instructions that wait
at a place can be read off the code before it (`Instruction.modifiersBefore`), and the state of a
pass holds just them: each sort once, with the type that one of them names (`Waiting.Collects`).
`Path.collects` carries that along a pass.

Two things are owed in a pass, and a pass that ends well pays both (`Path.pays`): an instruction to
modify, once a modifier waits, and a return, once a call was made the last thing the method does.
-/

namespace ManagedCode

/-! ## Opcodes of modifiers -/

/-- The opcode that gives a modifier. -/
def Modifier.opcode : Modifier → Opcode
  | .unaligned _ => .unaligned
  | .volatile => .volatile
  | .tail => .tail
  | .constrained _ => .constrained
  | .noCheck => .no
  | .readonly => .readonly

namespace Opcode

theorem exists_modifier {op : Opcode} (h : op.isModifier = true) :
    ∃ modifier : Modifier, modifier.opcode = op := by
  cases op with
  | unaligned => exact ⟨.unaligned 1, rfl⟩
  | volatile => exact ⟨.volatile, rfl⟩
  | tail => exact ⟨.tail, rfl⟩
  | constrained => exact ⟨.constrained ⟨0⟩, rfl⟩
  | no => exact ⟨.noCheck, rfl⟩
  | readonly => exact ⟨.readonly, rfl⟩
  | _ => cases h

theorem isRemark_of_isModifier {op : Opcode} (h : op.isModifier = true) : op.isRemark = false := by
  obtain ⟨modifier, rfl⟩ := exists_modifier h
  cases modifier <;> rfl

/-- The opcode reads or writes through an address. -/
def accessesMemory : Opcode → Bool
  | .ldindI1 | .ldindU1 | .ldindI2 | .ldindU2 | .ldindI4 | .ldindU4 | .ldindI8 | .ldindI | .ldindR4
  | .ldindR8 | .ldindRef | .stindI1 | .stindI2 | .stindI4 | .stindI8 | .stindI | .stindR4 | .stindR8
  | .stindRef | .ldfld | .stfld | .ldobj | .stobj | .initblk | .cpblk => true
  | _ => false

/-- The modifier says something about instructions with the opcode `op`. -/
def modifies (modifier op : Opcode) : Bool :=
  match modifier with
  | .unaligned => op.accessesMemory
  | .volatile => op.accessesMemory || op = .ldsfld || op = .stsfld
  | .tail => op = .call || op = .callvirt || op = .calli
  | .constrained => op = .callvirt
  | .readonly => op = .ldelema
  | .no => true
  | _ => false

end Opcode

namespace Instruction

variable {i : Instruction} {operation : Operation} {modifier : Modifier}

/-- What an operation may be modified by can be seen from the opcode. -/
theorem admits_of_operation? (h : i.operation? = some operation) :
    operation.accessesMemory = i.opcode.accessesMemory ∧
      operation.accessesStatic = decide (i.opcode = .ldsfld ∨ i.opcode = .stsfld) ∧
      operation.isCall = decide (i.opcode = .call ∨ i.opcode = .callvirt ∨ i.opcode = .calli) ∧
      operation.isVirtualCall = decide (i.opcode = .callvirt) ∧
      operation.takesElementAddress = decide (i.opcode = .ldelema) ∧
      decide (operation = .ret) = decide (i.opcode = .ret) := by
  apply of_operation? h
  cases i.opcode <;>
    first | exact ⟨rfl, rfl, rfl, rfl, rfl, rfl⟩ | exact fun _ _ => ⟨rfl, rfl, rfl, rfl, rfl, rfl⟩

/-- The opcode tells modifiers from remarks and from operations. -/
theorem isModifier_of_operation? (h : i.operation? = some operation) :
    i.opcode.isModifier = true ↔ ∃ modifier, operation = .modify modifier := by
  have hsilent := isSilent_of_operation? h
  have hremark := isRemark_of_operation? h
  unfold isSilent at hsilent
  constructor
  · intro hmodifier
    rcases modify_of_operation? h (.inl hmodifier) with rfl | hmodify
    · rw [Opcode.isRemark_of_isModifier hmodifier] at hremark
      cases hremark
    · exact hmodify
  · rintro ⟨modifier, rfl⟩
    rw [hremark] at hsilent
    simpa [Operation.isSilent] using hsilent

/-- A modifier is given by its opcode, and the type it names by its operand. -/
theorem opcode_of_modify (h : i.operation? = some (.modify modifier)) :
    i.opcode = modifier.opcode ∧
      ∀ token, modifier = .constrained token → i.operand = .token token := by
  have hmodifier := (isModifier_of_operation? h).mpr ⟨modifier, rfl⟩
  obtain ⟨offset, opcode, size, operand⟩ := i
  cases opcode with
  | volatile | tail | no | readonly =>
      cases h
      exact ⟨rfl, fun _ heq => nomatch heq⟩
  | unaligned =>
      cases operand <;> cases h
      exact ⟨rfl, fun _ heq => nomatch heq⟩
  | constrained =>
      obtain ⟨token, hoperand, heq⟩ := exists_token h
      cases heq
      refine ⟨rfl, fun _ heq => ?_⟩
      cases heq
      exact hoperand
  | _ => cases hmodifier

/-- An operation that admits a set of modifiers is one that each of them says something about. -/
theorem modifies_of_admits (h : i.operation? = some operation) {set : Modifiers}
    (hadmits : operation.admits set = true) (hset : set.contains modifier = true) :
    modifier.opcode.modifies i.opcode = true := by
  obtain ⟨hmemory, hstatic, hcall, hvirtual, helement, _⟩ := admits_of_operation? h
  unfold Operation.admits at hadmits
  rw [hmemory, hstatic, hcall, hvirtual, helement] at hadmits
  cases modifier <;> simp_all [Modifiers.contains, Modifier.opcode, Opcode.modifies, or_assoc]

/-! ## Modifiers in the code -/

/-- The modifiers that wait behind the instructions: those with nothing but modifiers and remarks
behind them. -/
def modifiersBefore (before : List Instruction) : List Instruction :=
  (before.rtakeWhile isSilent).filter (·.opcode.isModifier)

theorem isModifier_of_mem_modifiersBefore {before : List Instruction} :
    ∀ p ∈ modifiersBefore before, p.opcode.isModifier = true := by
  intro p hp
  exact (List.mem_filter.mp hp).2

variable (before : List Instruction)

theorem modifiersBefore_concat_modifier (hi : i.opcode.isModifier = true) :
    modifiersBefore (before ++ [i]) = modifiersBefore before ++ [i] := by
  have hsilent : i.isSilent = true := by simp [isSilent, hi]
  unfold modifiersBefore
  rw [List.rtakeWhile_concat_pos _ _ _ hsilent, List.filter_append]
  simp [hi]

theorem modifiersBefore_concat_remark (hi : i.opcode.isModifier = false)
    (hsilent : i.isSilent = true) : modifiersBefore (before ++ [i]) = modifiersBefore before := by
  unfold modifiersBefore
  rw [List.rtakeWhile_concat_pos _ _ _ hsilent, List.filter_append]
  simp [hi]

theorem modifiersBefore_concat_operation (hi : i.isSilent = false) :
    modifiersBefore (before ++ [i]) = [] := by
  unfold modifiersBefore
  rw [List.rtakeWhile_concat_neg _ _ _ (by simp [hi])]
  rfl

/-- The type is the one that a modifier of the group names, and there is none if none does. -/
def NamesType (world : Universe) (group : List Instruction) : Option Ty → Prop
  | some ty => ∃ p ∈ group, p.opcode = .constrained ∧
      ∃ token, p.operand = .token token ∧ world.type? token = some ty
  | none => ∀ p ∈ group, p.opcode ≠ .constrained

end Instruction

namespace Modifiers

variable (set : Modifiers) (a b : Modifier)

/-- Modifiers are of one sort if their opcodes are the same. -/
theorem contains_insert :
    (set.insert a).contains b = (set.contains b || decide (b.opcode = a.opcode)) := by
  cases a <;> cases b <;> simp [insert, contains, Modifier.opcode]

theorem isEmpty_iff {set : Modifiers} :
    set.isEmpty = true ↔ ∀ modifier, set.contains modifier = false := by
  unfold isEmpty
  rw [decide_eq_true_iff]
  constructor
  · rintro rfl modifier
    cases modifier <;> rfl
  · intro h
    obtain ⟨unaligned, volatile, tail, constrained, noCheck, readonly⟩ := set
    have hunaligned := h (.unaligned 1)
    have hvolatile := h .volatile
    have htail := h .tail
    have hconstrained := h (.constrained ⟨0⟩)
    have hnoCheck := h .noCheck
    have hreadonly := h .readonly
    simp only [contains] at hunaligned hvolatile htail hconstrained hnoCheck hreadonly
    subst hunaligned hvolatile htail hconstrained hnoCheck hreadonly
    rfl

theorem isEmpty_insert : (set.insert a).isEmpty = false := by
  rw [Bool.eq_false_iff]
  intro h
  have hcontains := isEmpty_iff.mp h a
  rw [contains_insert] at hcontains
  simp at hcontains

end Modifiers

/-! ## Modifiers in the state -/

/-- What waits is what the modifiers of the group give, each sort of them once. -/
structure Waiting.Collects (world : Universe) (waiting : Waiting) (group : List Instruction) :
    Prop where
  contains_iff : ∀ modifier : Modifier,
    waiting.modifiers.contains modifier = true ↔ modifier.opcode ∈ group.map (·.opcode)
  nodup : (group.map (·.opcode)).Nodup
  names : Instruction.NamesType world group waiting.constraint

/-- What waits in a state. -/
def EngineState.waiting (st : EngineState) : Waiting := ⟨st.pending, st.constraint⟩

theorem EngineState.awaits (st : EngineState) : st.Awaits st.waiting := ⟨rfl, rfl⟩

theorem EngineState.Awaits.waiting_eq {st : EngineState} {waiting : Waiting}
    (h : st.Awaits waiting) : st.waiting = waiting := by
  unfold EngineState.waiting
  rw [h.pending_eq, h.constraint_eq]

namespace Waiting

variable {world : Universe} {waiting : Waiting} {group : List Instruction}

theorem collects_nil (world : Universe) : Collects world {} [] where
  contains_iff modifier := by cases modifier <;> simp [Modifiers.contains, Modifiers.none]
  nodup := .nil
  names := by simp [Instruction.NamesType]

theorem Collects.add {i : Instruction} {modifier : Modifier} (h : waiting.Collects world group)
    (hi : i.operation? = some (.modify modifier))
    (hfresh : waiting.modifiers.contains modifier = false)
    (hnamed : ∀ token, modifier = .constrained token → ∃ ty, world.type? token = some ty) :
    (waiting.add world modifier).Collects world (group ++ [i]) := by
  obtain ⟨hopcode, hoperand⟩ := Instruction.opcode_of_modify hi
  refine ⟨?contains, ?nodup, ?names⟩
  case contains =>
    intro other
    simp only [Waiting.add, Modifiers.contains_insert, Bool.or_eq_true, decide_eq_true_iff,
      h.contains_iff, List.map_append, List.map_cons, List.map_nil, List.mem_append,
      List.mem_singleton, hopcode]
  case nodup =>
    -- A sort that does not wait yet has no opcode in the group.
    have hnew : i.opcode ∉ group.map (·.opcode) := by
      rw [hopcode, ← h.contains_iff, hfresh]
      simp
    rw [List.map_append]
    exact List.nodup_append.mpr ⟨h.nodup, List.nodup_singleton _, by grind⟩
  case names =>
    have hnames := h.names
    cases modifier with
    | constrained token =>
        obtain ⟨ty, hty⟩ := hnamed token rfl
        simp only [Waiting.add, Engine.constraintAfter, hty]
        exact ⟨i, by simp, hopcode, token, hoperand token rfl, hty⟩
    | _ =>
        -- The other modifiers name no type, so the one that waits stays.
        simp only [Waiting.add, Engine.constraintAfter]
        cases hconstraint : waiting.constraint with
        | none =>
            rw [hconstraint] at hnames
            simp only [Instruction.NamesType, List.forall_mem_append] at hnames ⊢
            exact ⟨hnames, by simp [hopcode, Modifier.opcode]⟩
        | some ty =>
            rw [hconstraint] at hnames
            obtain ⟨p, hp, hnamed⟩ := hnames
            exact ⟨p, List.mem_append_left _ hp, hnamed⟩

/-- What stands in the group waits. -/
theorem Collects.exists_contains (h : waiting.Collects world group) {p : Instruction}
    (hp : p ∈ group) (hmodifier : p.opcode.isModifier = true) :
    ∃ modifier : Modifier,
      modifier.opcode = p.opcode ∧ waiting.modifiers.contains modifier = true := by
  obtain ⟨modifier, hopcode⟩ := Opcode.exists_modifier hmodifier
  refine ⟨modifier, hopcode, (h.contains_iff modifier).mpr ?_⟩
  rw [hopcode]
  exact List.mem_map_of_mem hp

/-- Something waits if and only if a modifier stands in the group. -/
theorem Collects.isEmpty_iff (h : waiting.Collects world group)
    (hgroup : ∀ p ∈ group, p.opcode.isModifier = true) :
    waiting.modifiers.isEmpty = true ↔ group = [] := by
  rw [Modifiers.isEmpty_iff]
  constructor
  · intro hnone
    rw [List.eq_nil_iff_forall_not_mem]
    intro p hp
    obtain ⟨modifier, _, hcontains⟩ := h.exists_contains hp (hgroup p hp)
    rw [hnone modifier] at hcontains
    cases hcontains
  · rintro rfl modifier
    rw [Bool.eq_false_iff]
    intro hcontains
    exact List.not_mem_nil ((h.contains_iff modifier).mp hcontains)

end Waiting

/-! ## Calls at the end of a method -/

/-- The result of the call that the directive is about. -/
def Directive.callResult? : Directive → Option (Option Slot)
  | .call _ _ _ result | .callIndirect _ result => some result
  | _ => none

/-- The effect of a call that leaves its own result behind and nothing else. -/
def Effect.LeavesResult (effect : Effect) : Prop :=
  ∃ result, effect.directive.callResult? = some result ∧ effect.stack.slots = result.toList

namespace Site

variable {site : Site} {s : Stack}

theorem pushResult_tail (htail : site.tail = true) (result : Option Slot) :
    Gives (site.pushResult s result) fun s' => s'.slots = result.toList := by
  refine .bind .require fun _ hempty => ?_
  have hempty : s.slots = [] := by simpa [htail, Stack.isEmpty] using hempty
  cases result with
  | none => exact .ok hempty
  | some slot =>
      change Gives (s.push slot) _
      unfold Stack.push Stack.load
      intro s' hs'
      split at hs'
      · cases hs'
        rw [hempty]
        rfl
      · cases hs'

/-- A call at the end of a method leaves nothing but its own result. -/
theorem perform_tail (htail : site.tail = true) {operation : Operation}
    (hcall : operation.isCall = true) :
    Gives (site.perform operation s) Effect.LeavesResult := by
  cases operation with
  | call isVirtual token =>
      refine .skip fun method => .skip fun _ => .skip fun _ => .skip fun _ => .skip fun result => ?_
      exact .bind (pushResult_tail htail result) fun _ hs => .ok ⟨result, rfl, hs⟩
  | callIndirect token =>
      refine .skip fun signature => .skip fun _ => .skip fun _ => .skip fun _ =>
        .skip fun result => ?_
      exact .bind (pushResult_tail htail result) fun _ hs => .ok ⟨result, rfl, hs⟩
  | _ => cases hcall

end Site

namespace Engine

variable {cx : Context} {pc : Nat} {st st' final : EngineState} {v : Visit}

/-! ## One visit -/

/-- What waits and what is owed stays while control arrives. -/
theorem enter_keeps (h : enter cx pc st = .ok st') :
    st'.pending = st.pending ∧ st'.tailCall = st.tailCall ∧
      (st.afterTransfer = false → st'.afterTransfer = false) ∧
      (cx.mask.isTarget pc = true → st.pending.isEmpty = true) := by
  rcases enter_eq_ok h with ⟨_, hjoin⟩ | ⟨htarget, rfl, _⟩
  · obtain ⟨hpending, _, _, _, _, _, rfl⟩ := join_eq_ok hjoin
    exact ⟨rfl, rfl, fun _ => rfl, fun _ => hpending⟩
  · refine ⟨rfl, rfl, id, fun h => ?_⟩
    rw [htarget] at h
    cases h

/-- A modifier is of a sort that does not wait yet, and names a type if it names any. -/
theorem addModifier_fresh {modifier : Modifier} (h : addModifier cx pc modifier st = .ok st') :
    st.pending.contains modifier = false ∧
      ∀ token, modifier = .constrained token → ∃ ty, cx.world.type? token = some ty := by
  rw [addModifier_eq] at h
  obtain ⟨constraint, hcheck, h⟩ := bind_eq_ok h
  obtain ⟨_, hfresh, _⟩ := bind_eq_ok h
  refine ⟨by simpa using require_eq_ok hfresh, ?_⟩
  rintro token rfl
  obtain ⟨ty, hty, _⟩ := bind_eq_ok hcheck
  exact ⟨ty, type?_of_typeAt (rejecting_eq_ok hty)⟩

/-- A modifier is noted in the state in which control arrives. -/
theorem Visited.noted {modifier : Modifier} (h : Visited cx st v)
    (hmodify : v.instruction.operation? = some (.modify modifier)) :
    addModifier cx v.offset modifier v.entered = .ok v.left := by
  obtain ⟨_, operation, hoperation, hwork⟩ := h.work
  cases hoperation.symm.trans hmodify
  rcases hwork with ⟨hremark, _⟩ | ⟨work, hprocess⟩
  · cases hremark
  · obtain ⟨_, ⟨_, heq, _, hadd⟩ | ⟨hother, _⟩⟩ := process_eq_ok hprocess
    · cases heq
      exact hadd
    · exact absurd rfl (hother modifier)

/-- An operation is carried out in the state in which control arrives, if it admits what waits. -/
theorem Visited.executed {operation : Operation} (h : Visited cx st v)
    (hoperation : v.instruction.operation? = some operation)
    (hspeaks : operation.isSilent = false) :
    operation.admits st.pending = true ∧ ∃ directive,
      execute cx v.offset operation v.entered = .ok (v.left, directive) := by
  obtain ⟨_, operation', hoperation', hwork⟩ := h.work
  cases hoperation.symm.trans hoperation'
  obtain ⟨hpending, _⟩ := enter_keeps h.enter_eq
  rcases hwork with ⟨rfl, _⟩ | ⟨work, hprocess⟩
  · cases hspeaks
  · obtain ⟨_, ⟨_, rfl, _⟩ | ⟨_, hadmits, directive, hexecute, _⟩⟩ := process_eq_ok hprocess
    · cases hspeaks
    · rw [hpending] at hadmits
      exact ⟨hadmits, directive, hexecute⟩

/-- **A visit hands on what waits**, and so does the code. -/
theorem Visited.collects {before : List Instruction} (h : Visited cx st v)
    (hst : st.waiting.Collects cx.world (Instruction.modifiersBefore before)) :
    v.left.waiting.Collects cx.world
      (Instruction.modifiersBefore (before ++ [v.instruction])) := by
  obtain ⟨_, operation, hoperation, _⟩ := h.work
  obtain ⟨_, hleft⟩ := visit_told st.awaits h
  have hsilent := Instruction.isSilent_of_operation? hoperation
  have hmodifier := Instruction.isModifier_of_operation? hoperation
  rw [hleft.waiting_eq]
  unfold Waiting.after
  rw [hoperation]
  cases operation with
  | modify modifier =>
      obtain ⟨hpending, _⟩ := enter_keeps h.enter_eq
      obtain ⟨hfresh, hnamed⟩ := addModifier_fresh (h.noted hoperation)
      rw [hpending] at hfresh
      rw [Instruction.modifiersBefore_concat_modifier before (hmodifier.mpr ⟨modifier, rfl⟩)]
      exact hst.add hoperation hfresh hnamed
  | remark =>
      have hremark : v.instruction.opcode.isModifier = false := by simpa using hmodifier
      rw [Instruction.modifiersBefore_concat_remark before hremark hsilent]
      exact hst
  | _ =>
      -- Any other instruction takes all that waits, and ends the run of modifiers in the code.
      rw [Instruction.modifiersBefore_concat_operation before hsilent]
      exact Waiting.collects_nil cx.world

/-! ## A pass -/

/-- **What waits along a pass is what the code before gives.** -/
theorem Path.collects {visits : List Visit} {before : List Instruction}
    (h : Path cx st visits final)
    (hst : st.waiting.Collects cx.world (Instruction.modifiersBefore before)) :
    final.waiting.Collects cx.world
      (Instruction.modifiersBefore (before ++ visits.map (·.instruction))) := by
  induction visits generalizing st before with
  | nil =>
      cases h
      simpa using hst
  | cons v rest ih =>
      obtain ⟨hv, hrest⟩ := h
      have hall := ih hrest (hv.collects hst)
      rwa [List.append_assoc] at hall

/-- What is owed is paid, if every visit pays it or leaves it owed, and nothing is owed at the
end. -/
theorem Path.pays {Owes : EngineState → Prop} {Waits Pays : Visit → Prop} {visits : List Visit}
    (hstep : ∀ {st v}, Owes st → Visited cx st v → Pays v ∨ Waits v ∧ Owes v.left)
    (h : Path cx st visits final) (hst : Owes st) (hfinal : ¬ Owes final) :
    ∃ between w later, visits = between ++ w :: later ∧ (∀ x ∈ between, Waits x) ∧ Pays w := by
  induction visits generalizing st with
  | nil =>
      cases h
      exact absurd hst hfinal
  | cons v rest ih =>
      obtain ⟨hv, hrest⟩ := h
      rcases hstep hst hv with hpays | ⟨hwaits, howes⟩
      · exact ⟨[], v, rest, rfl, by simp, hpays⟩
      · obtain ⟨between, w, later, rfl, hbetween, hpays⟩ := ih hrest howes
        exact ⟨v :: between, w, later, rfl, List.forall_mem_cons.mpr ⟨hwaits, hbetween⟩, hpays⟩

/-- While modifiers wait, an instruction is one that they modify, or there is more to wait for. -/
theorem Visited.modified (hst : st.pending.isEmpty = false) (h : Visited cx st v) :
    v.instruction.isSilent = false ∨
      v.instruction.isSilent = true ∧ v.left.pending.isEmpty = false := by
  obtain ⟨_, operation, hoperation, _⟩ := h.work
  obtain ⟨_, hleft⟩ := visit_told st.awaits h
  rw [Instruction.isSilent_of_operation? hoperation, hleft.pending_eq]
  unfold Waiting.after
  rw [hoperation]
  cases operation with
  | modify modifier => exact .inr ⟨rfl, Modifiers.isEmpty_insert _ _⟩
  | remark => exact .inr ⟨rfl, hst⟩
  | _ => exact .inl rfl

/-- A call was made the last thing the method does, and control is still in the method. -/
def Returning (st : EngineState) : Prop := st.tailCall.isSome = true ∧ st.afterTransfer = false

/-- Behind a call at the end of the method stand remarks and a return. -/
theorem Visited.returning (hst : Returning st) (h : Visited cx st v) :
    v.instruction.opcode = .ret ∨ v.instruction.opcode.isRemark = true ∧ Returning v.left := by
  obtain ⟨_, operation, hoperation, hwork⟩ := h.work
  obtain ⟨_, htail, hfalls, _⟩ := enter_keeps h.enter_eq
  rcases hwork with ⟨rfl, hleft⟩ | ⟨work, hprocess⟩
  · refine .inr ⟨Instruction.isRemark_of_operation? hoperation, ?_⟩
    rw [hleft]
    exact ⟨htail ▸ hst.1, hfalls hst.2⟩
  · -- Only a return passes the check while a call is remembered.
    obtain ⟨hcheck, _⟩ := process_eq_ok hprocess
    obtain ⟨call, hcall⟩ := Option.isSome_iff_exists.mp (htail ▸ hst.1)
    unfold checkTailCall at hcheck
    rw [hcall] at hcheck
    obtain ⟨_, _, _, _, _, hret⟩ := Instruction.admits_of_operation? hoperation
    rw [require_eq_ok hcheck] at hret
    exact .inl (of_decide_eq_true hret.symm)

/-- A call that is made the last thing the method does leaves nothing but its own result, and the
method has to return. -/
theorem Visited.tail {operation : Operation} {effect : Effect} (h : Visited cx st v)
    (hoperation : v.instruction.operation? = some operation) (hspeaks : operation.isSilent = false)
    (hperform : (siteOf cx v.offset st.waiting).perform operation v.entered.stack = .ok effect)
    (htail : st.pending.tail = true) :
    Returning v.left ∧
      ∃ result, effect.directive.callResult? = some result ∧ v.exit = result.toList := by
  obtain ⟨hpending, _⟩ := enter_keeps h.enter_eq
  obtain ⟨hadmits, _, hexecute⟩ := h.executed hoperation hspeaks
  have hcall : operation.isCall = true := by
    simp only [Operation.admits, htail, Bool.and_eq_true] at hadmits
    exact hadmits.1.1.2
  -- The operation has one effect, with what waited before control arrived.
  obtain ⟨effect', _, hperform', _, _, hleft⟩ := execute_state hexecute
  rw [site_eq (enter_waiting st.awaits h.enter_eq), hperform] at hperform'
  cases hperform'
  obtain ⟨result, hresult, hslots⟩ := Site.perform_tail htail hcall effect hperform
  refine ⟨?_, result, hresult, ?_⟩
  · rw [hleft, hpending, htail]
    refine ⟨rfl, ?_⟩
    cases operation with
    | call | callIndirect => rfl
    | _ => cases hcall
  · unfold Visit.exit
    rw [hleft]
    exact hslots

/-- At the end of a pass no modifier waits, and control has left the method. -/
theorem checkEnd_eq_ok (h : checkEnd final = .ok ()) :
    final.afterTransfer = true ∧ final.pending.isEmpty = true := by
  unfold checkEnd at h
  split at h
  · cases h
  · exact Bool.and_eq_true_iff.mp (require_eq_ok h)

/-- What is known of an instruction that does something by itself, behind the modifiers of `group`
and before the visits `after`. -/
structure Modified (cx : Context) (group : List Instruction) (v : Visit) (after : List Visit) :
    Prop where
  /-- Each modifier says something about the instruction. -/
  modifies : ∀ p ∈ group, p.opcode.modifies v.instruction.opcode = true
  /-- The backend is told of the modifiers, if there are any, right before the operation. A call
  that is made the last thing the method does leaves nothing but its own result. -/
  told : ∃ (waiting : Waiting) (operation : Operation) (directive : Directive),
    waiting.Collects cx.world group ∧ v.instruction.operation? = some operation ∧
    directive.isOperation = true ∧ (siteOf cx v.offset waiting).Tells operation directive ∧
    v.directives = cx.mask.arrival v.offset v.entry ++
      (if group = [] then [] else [.modifiers waiting.modifiers waiting.constraint]) ++
        [directive] ∧
    (.tail ∈ group.map (·.opcode) →
      ∃ result, directive.callResult? = some result ∧ v.exit = result.toList)
  /-- Behind such a call, the next instruction that is no remark returns. -/
  returns : .tail ∈ group.map (·.opcode) → ∃ remarks w later, after = remarks ++ w :: later ∧
    (∀ x ∈ remarks, x.instruction.opcode.isRemark = true) ∧ w.instruction.opcode = .ret

theorem Visited.modified_of_collects {group : List Instruction} {after : List Visit}
    (h : Visited cx st v) (hafter : Path cx v.left after final) (hend : checkEnd final = .ok ())
    (hgroup : ∀ p ∈ group, p.opcode.isModifier = true)
    (hst : st.waiting.Collects cx.world group) (hspeaks : v.instruction.isSilent = false) :
    Modified cx group v after := by
  obtain ⟨operation, effect, hoperation, hperform, hspoken, htells, hdirectives⟩ :=
    (visit_told st.awaits h).1.of_operation hspeaks
  rw [Instruction.isSilent_of_operation? hoperation] at hspeaks
  have htail : .tail ∈ group.map (·.opcode) → st.pending.tail = true :=
    (hst.contains_iff .tail).mpr
  refine ⟨?modifies, ⟨st.waiting, operation, effect.directive, hst, hoperation, hspoken, htells,
    ?told, ?result⟩, ?returns⟩
  case modifies =>
    intro p hp
    obtain ⟨hadmits, _⟩ := h.executed hoperation hspeaks
    obtain ⟨modifier, hopcode, hcontains⟩ := hst.exists_contains hp (hgroup p hp)
    rw [← hopcode]
    exact Instruction.modifies_of_admits hoperation hadmits hcontains
  case told =>
    simp only [hdirectives, Waiting.announcement, hst.isEmpty_iff hgroup]
  case result =>
    intro hmem
    exact (h.tail hoperation hspeaks hperform (htail hmem)).2
  case returns =>
    intro hmem
    have hreturning := (h.tail hoperation hspeaks hperform (htail hmem)).1
    refine hafter.pays (fun hst hv => hv.returning hst) hreturning ?_
    rintro ⟨_, hfalls⟩
    rw [(checkEnd_eq_ok hend).1] at hfalls
    cases hfalls

end Engine

end ManagedCode
