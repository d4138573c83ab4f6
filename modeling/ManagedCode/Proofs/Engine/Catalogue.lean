import ManagedCode.Proofs.Effect.Counts
import ManagedCode.Proofs.Engine.Steps

set_option autoImplicit false

/-! # The pass agrees with the catalogue

The catalogue says how many values an opcode pops and pushes, but no check ever asks it: what an
instruction does to the stack is written down a second time, in the operations. The two agree, for
every opcode and in every state of the pass.
-/

namespace ManagedCode

namespace Opcode

/-- Whatever is on the stack is thrown away, however much it is. -/
def discards : Opcode → Bool
  | .leave | .leaveS | .endfinally | .throw | .rethrow => true
  | _ => false

/-- Nothing is on the stack afterwards. -/
def empties : Opcode → Bool
  | .ret | .endfilter | .jmp => true
  | opcode => opcode.discards

end Opcode

namespace Instruction

variable {i : Instruction} {operation : Operation}

/-- The counts of an operation are those that the catalogue has for the opcode. -/
theorem counts_of_operation? (h : i.operation? = some operation) {p q : Nat}
    (hpops : i.opcode.pops = .fixed p) (hpushes : i.opcode.pushes = .fixed q)
    (hkept : i.opcode.discards = false) (callee : Signature) (height : Nat) :
    operation.pops callee height = p ∧ operation.pushes callee = q := by
  apply of_operation? h
  generalize i.opcode = opcode at hpops hpushes hkept
  cases opcode
  -- Opcodes without fixed counts, or that discard the stack, drop out.
  all_goals first
    | (cases hkept; done)
    | (cases hpops; done)
    | (cases hpops; cases hpushes; first | exact ⟨rfl, rfl⟩ | exact fun _ _ => ⟨rfl, rfl⟩)

theorem empties_of_operation? (h : i.operation? = some operation) :
    operation.empties = i.opcode.empties := by
  apply of_operation? h
  cases i.opcode <;> first | rfl | exact fun _ _ => rfl

theorem operand_of_token? {token : Token} (h : i.token? = some token) :
    i.operand = .token token := by
  unfold token? at h
  split at h
  · rename_i hoperand
    cases h
    exact hoperand
  · cases h

/-- An opcode with a token stands for an operation on that token. -/
theorem exists_token {f : Token → Operation} (h : i.token?.map f = some operation) :
    ∃ token, i.operand = .token token ∧ operation = f token := by
  obtain ⟨token, htoken, rfl⟩ := Option.map_eq_some_iff.mp h
  exact ⟨token, operand_of_token? htoken, rfl⟩

theorem call_of_operation? (h : i.operation? = some operation)
    (hopcode : i.opcode = .call ∨ i.opcode = .callvirt) :
    ∃ isVirtual token, i.operand = .token token ∧ operation = .call isVirtual token := by
  unfold operation? at h
  rcases hopcode with hopcode | hopcode
  · rw [hopcode] at h
    exact ⟨false, exists_token h⟩
  · rw [hopcode] at h
    exact ⟨true, exists_token h⟩

theorem callIndirect_of_operation? (h : i.operation? = some operation)
    (hopcode : i.opcode = .calli) :
    ∃ token, i.operand = .token token ∧ operation = .callIndirect token := by
  unfold operation? at h
  rw [hopcode] at h
  exact exists_token h

theorem newObject_of_operation? (h : i.operation? = some operation)
    (hopcode : i.opcode = .newobj) :
    ∃ token, i.operand = .token token ∧ operation = .newObject token := by
  unfold operation? at h
  rw [hopcode] at h
  exact exists_token h

/-- Modifiers and remarks stand for no operation of their own. -/
theorem modify_of_operation? (h : i.operation? = some operation)
    (hopcode : i.opcode.isModifier = true ∨ i.opcode.isRemark = true) :
    operation = .remark ∨ ∃ modifier, operation = .modify modifier := by
  obtain ⟨offset, opcode, size, operand⟩ := i
  cases opcode with
  | annDataS | annData =>
    cases h
    exact .inl rfl
  | volatile | tail | no | readonly =>
    cases h
    exact .inr ⟨_, rfl⟩
  | unaligned =>
    cases operand <;> cases h
    exact .inr ⟨_, rfl⟩
  | constrained =>
    obtain ⟨token, _, rfl⟩ := exists_token h
    exact .inr ⟨_, rfl⟩
  | _ => rcases hopcode with hopcode | hopcode <;> cases hopcode

end Instruction

/-- What the catalogue says about the stack before and after an instruction. Calls are not in the
catalogue: theirs are the counts of the signature that the token stands for. -/
structure Catalogued (world : Universe) (i : Instruction) (before after : Stack) : Prop where
  fixed : ∀ p q, i.opcode.pops = .fixed p → i.opcode.pushes = .fixed q →
    i.opcode.discards = false → before.Exchanged p q after
  call : i.opcode = .call ∨ i.opcode = .callvirt → ∃ token method, i.operand = .token token ∧
    world.method? token = some method ∧
      before.Exchanged method.signature.argCount method.signature.resultCount after
  callIndirect : i.opcode = .calli → ∃ token signature, i.operand = .token token ∧
    world.signature? token = some signature ∧
      before.Exchanged (signature.argCount + 1) signature.resultCount after
  newObject : i.opcode = .newobj → ∃ token constructor, i.operand = .token token ∧
    world.method? token = some constructor ∧
      before.Exchanged constructor.signature.params.length 1 after
  empty : i.opcode.empties = true → after.slots = []

namespace Engine

variable {cx : Context} {pc : Nat} {st st' : EngineState} {operation : Operation}
  {directive : Directive}

theorem execute_exchanged (h : execute cx pc operation st = .ok (st', directive)) :
    st.stack.Exchanged (operation.pops ((operation.callee? cx.world).getD {}) st.stack.height)
      (operation.pushes ((operation.callee? cx.world).getD {})) st'.stack := by
  obtain ⟨effect, _, heffect, _, hstack, _⟩ := execute_eq_ok h
  rw [hstack]
  exact (Site.perform_exchanges operation effect heffect).1

theorem execute_empties (h : execute cx pc operation st = .ok (st', directive))
    (hempties : operation.empties = true) : st'.stack.slots = [] := by
  obtain ⟨effect, _, heffect, _, hstack, _⟩ := execute_eq_ok h
  rw [hstack, (Site.perform_ends hempties effect heffect).1]
  rfl

/-- A call finds the method that its token stands for. -/
theorem execute_call {isVirtual : Bool} {token : Token}
    (h : execute cx pc (.call isVirtual token) st = .ok (st', directive)) :
    ∃ method, cx.world.method? token = some method ∧
      st.stack.Exchanged method.signature.argCount method.signature.resultCount st'.stack := by
  have hexchanged := execute_exchanged h
  obtain ⟨effect, _, heffect, _⟩ := execute_eq_ok h
  obtain ⟨method, hat, _⟩ := bind_eq_ok heffect
  have hmethod : cx.world.method? token = some method := Site.methodAt_eq_ok hat
  simp only [Operation.callee?, hmethod] at hexchanged
  exact ⟨method, hmethod, hexchanged⟩

theorem execute_callIndirect {token : Token}
    (h : execute cx pc (.callIndirect token) st = .ok (st', directive)) :
    ∃ signature, cx.world.signature? token = some signature ∧
      st.stack.Exchanged (signature.argCount + 1) signature.resultCount st'.stack := by
  have hexchanged := execute_exchanged h
  obtain ⟨effect, _, heffect, _⟩ := execute_eq_ok h
  obtain ⟨signature, hat, _⟩ := bind_eq_ok heffect
  have hsignature : cx.world.signature? token = some signature := known_eq_ok hat
  simp only [Operation.callee?, hsignature] at hexchanged
  exact ⟨signature, hsignature, hexchanged⟩

theorem execute_newObject {token : Token}
    (h : execute cx pc (.newObject token) st = .ok (st', directive)) :
    ∃ constructor, cx.world.method? token = some constructor ∧
      st.stack.Exchanged constructor.signature.params.length 1 st'.stack := by
  have hexchanged := execute_exchanged h
  obtain ⟨effect, _, heffect, _⟩ := execute_eq_ok h
  obtain ⟨constructor, hat, _⟩ := bind_eq_ok heffect
  have hconstructor : cx.world.method? token = some constructor := Site.methodAt_eq_ok hat
  simp only [Operation.callee?, hconstructor] at hexchanged
  exact ⟨constructor, hconstructor, hexchanged⟩

theorem visit_modifier {i : Instruction} {directives : List Directive}
    (hopcode : i.opcode.isModifier = true ∨ i.opcode.isRemark = true)
    (h : visit cx i st = ⟨directives, .ok st'⟩) :
    ∃ entered, enter cx i.offset st = .ok entered ∧ st'.stack = entered.stack := by
  obtain ⟨entered, operation, henter, hoperation, hwork⟩ := visit_eq_ok h
  refine ⟨entered, henter, ?_⟩
  rcases hwork with ⟨_, rfl, _⟩ | ⟨hremark, work, hprocess, _⟩
  · rfl
  · rcases Instruction.modify_of_operation? hoperation hopcode with hremark' | ⟨modifier, rfl⟩
    · exact absurd hremark' hremark
    · obtain ⟨_, ⟨_, heq, _, hadd⟩ | ⟨hmodify, _⟩⟩ := process_eq_ok hprocess
      · cases heq
        exact (addModifier_eq_ok hadd).1
      · exact absurd rfl (hmodify modifier)

/-- **The pass agrees with the catalogue.** In every state, an instruction that is carried out
changes the stack as the catalogue says, or as the signature says that it calls; and an instruction
that modifies another one, or carries a remark, leaves the stack with which control arrived. -/
theorem execute_catalogue (cx : Context) (i : Instruction) (operation : Operation)
    (hoperation : i.operation? = some operation) (st st' : EngineState) :
    (∀ directive, execute cx i.offset operation st = .ok (st', directive) →
      Catalogued cx.world i st.stack st'.stack) ∧
    (i.opcode.isModifier = true ∨ i.opcode.isRemark = true →
      ∀ directives, visit cx i st = ⟨directives, .ok st'⟩ →
        ∃ entered, enter cx i.offset st = .ok entered ∧ st'.stack = entered.stack) := by
  refine ⟨fun directive h => ⟨?fixed, ?call, ?callIndirect, ?newObject, ?empty⟩,
    fun hopcode directives h => visit_modifier hopcode h⟩
  case fixed =>
    intro p q hpops hpushes hkept
    have hexchanged := execute_exchanged h
    obtain ⟨hp, hq⟩ := Instruction.counts_of_operation? hoperation hpops hpushes hkept
      ((operation.callee? cx.world).getD {}) st.stack.height
    rwa [hp, hq] at hexchanged
  case call =>
    intro hopcode
    obtain ⟨_, token, htoken, rfl⟩ := Instruction.call_of_operation? hoperation hopcode
    obtain ⟨method, hcall⟩ := execute_call h
    exact ⟨token, method, htoken, hcall⟩
  case callIndirect =>
    intro hopcode
    obtain ⟨token, htoken, rfl⟩ := Instruction.callIndirect_of_operation? hoperation hopcode
    obtain ⟨signature, hcall⟩ := execute_callIndirect h
    exact ⟨token, signature, htoken, hcall⟩
  case newObject =>
    intro hopcode
    obtain ⟨token, htoken, rfl⟩ := Instruction.newObject_of_operation? hoperation hopcode
    obtain ⟨constructor, hcall⟩ := execute_newObject h
    exact ⟨token, constructor, htoken, hcall⟩
  case empty =>
    intro hempties
    rw [← Instruction.empties_of_operation? hoperation] at hempties
    exact execute_empties h hempties

/-- A pass over a method that calls another one, which compares an object with a number. -/
def comparing : Context where
  world := (Universe.core.addMethod
    { owner := .ref WellKnown.object.id
      name := "CompareTo"
      signature :=
        { hasThis := true, params := [.primitive .int32], ret := .primitive .boolean } }).2
  body := { code := [] }
  rawPointers := false
  mask := .empty 5

/-- The object and the number lie on top of the stack. -/
def beforeCompare : EngineState where
  stack := { slots := [.int32, .object .null, .int64], bound := 3 }
  labels := { bound := 0 }

/-- The object and the number are replaced by the answer, and what lies below them stays. -/
theorem execute_compare_catalogue :
    ∃ st' directive,
      execute comparing 0 (.call true (TokenTable.method.token 0)) beforeCompare =
          .ok (st', directive) ∧
        Catalogued comparing.world ⟨0, .callvirt, 5, .token (TokenTable.method.token 0)⟩
          beforeCompare.stack st'.stack ∧
        st'.stack.slots = [.int32, .int64] := by
  obtain ⟨st', directive, hexecute, hslots⟩ : ∃ st' directive,
      execute comparing 0 (.call true (TokenTable.method.token 0)) beforeCompare =
        .ok (st', directive) ∧ st'.stack.slots = [.int32, .int64] := ⟨_, _, rfl, rfl⟩
  obtain ⟨hcatalogued, _⟩ := execute_catalogue comparing
    ⟨0, .callvirt, 5, .token (TokenTable.method.token 0)⟩ _ rfl beforeCompare st'
  exact ⟨st', directive, hexecute, hcatalogued directive hexecute, hslots⟩

end Engine

end ManagedCode
