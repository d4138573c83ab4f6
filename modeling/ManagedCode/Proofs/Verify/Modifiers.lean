import ManagedCode.Proofs.Engine.Modifiers
import ManagedCode.Proofs.Verify.Protocol

set_option autoImplicit false

/-! # Modifiers and calls at the end of an accepted method

In an accepted method no modifier is left without an instruction to modify, control cannot jump
between the two, and each modifier says something about the instruction. The backend hears of the
modifiers right before the operation, and of no others. A call that is made the last thing the
method does finds nothing on the stack below its arguments, and is followed by a return.
-/

namespace ManagedCode

/-- A backend has recorded the session of an accepted method, however often it was run. -/
theorem verify_directives {body : MethodBody} {world : Universe} {options : Options}
    {backend : Recorder} {verified : Verified}
    (h : (verify body world options backend).1 = .ok verified) :
    (verify body world options backend).2.directives =
      (Session.run body world options).directives := by
  unfold verify at h ⊢
  split at h
  · cases h
  · exact attempt_directives _ _ _ backend

namespace Session.Account

variable {body : MethodBody} {world : Universe} {options : Options}
  (account : Account body world options) {before after : List Visit} {v : Visit}

/-- A visit starts where the visits before it end, with the modifiers that the code gives. -/
theorem exists_collected (h : visits body world options = before ++ v :: after) :
    ∃ st, Engine.Visited account.context st v ∧
      Engine.Path account.context v.left after account.final ∧
      st.waiting.Collects world (Instruction.modifiersBefore (before.map (·.instruction))) := by
  have hpath := account.path
  rw [h] at hpath
  obtain ⟨st, hbefore, hv, hafter⟩ := hpath.split
  have hstart : account.start.waiting.Collects world (Instruction.modifiersBefore []) :=
    Waiting.collects_nil world
  exact ⟨st, hv, hafter, hbefore.collects hstart⟩

end Session.Account

/-- **Modifiers are handed to the instruction they modify.** For every instruction of an accepted
method, let `group` be the modifiers before it, with nothing but modifiers and remarks behind them.
A modifier is followed by an instruction that is no modifier and no remark, with nothing but such
ones in between. Control cannot jump to an instruction that modifiers stand before. An instruction
that does something by itself gets just the modifiers of the group, each sort once and all of them
fit for it, and the backend is told of them right before the operation (`Engine.Modified`); behind a
call at the end of the method comes a return. Of other instructions the backend hears at most that
control can jump to them. -/
theorem verify_modifiers (body : MethodBody) (world : Universe) (options : Options)
    (backend : Recorder) {verified : Verified}
    (h : (verify body world options backend).1 = .ok verified) :
    ∃ joins, Session.prepare body world options = .ok joins ∧
      let cx := Session.context body world options joins
      let visits := Session.visits body world options
      visits.map (·.instruction) = (disassemble body.code).instructions ∧
        (verify body world options backend).2.directives.toList = visits.flatMap (·.directives) ∧
        ∀ before v after, visits = before ++ v :: after →
          let group := Instruction.modifiersBefore (before.map (·.instruction))
          (v.instruction.opcode.isModifier = true →
            ∃ between w later, after = between ++ w :: later ∧
              (∀ x ∈ between, x.instruction.isSilent = true) ∧ w.instruction.isSilent = false) ∧
          (group ≠ [] → cx.mask.isTarget v.offset = false) ∧
          (v.instruction.isSilent = true → v.directives = cx.mask.arrival v.offset v.entry) ∧
          (v.instruction.isSilent = false → Engine.Modified cx group v after) := by
  obtain ⟨_, hsession⟩ := verify_eq_ok h
  obtain ⟨account, hprepare⟩ := Session.exists_account_of_prepare hsession
  refine ⟨account.joins, hprepare, account.instructions_eq, ?_, ?_⟩
  · rw [verify_directives h, account.directives_eq]
  · intro before v after hsplit group
    obtain ⟨st, hv, hafter, hcollects⟩ := account.exists_collected hsplit
    have hgroup : ∀ p ∈ group, p.opcode.isModifier = true :=
      Instruction.isModifier_of_mem_modifiersBefore
    obtain ⟨_, hend⟩ := Engine.checkEnd_eq_ok account.checkEnd_eq
    refine ⟨fun hmodifier => ?_, fun hne => ?_, fun hsilent => ?_, fun hspeaks => ?_⟩
    · obtain ⟨_, operation, hoperation, _⟩ := hv.work
      obtain ⟨modifier, rfl⟩ := (Instruction.isModifier_of_operation? hoperation).mp hmodifier
      have hwaits : v.left.pending.isEmpty = false := by
        rw [Engine.addModifier_state (hv.noted hoperation)]
        exact Modifiers.isEmpty_insert _ _
      exact hafter.pays (fun hst hv => hv.modified hst) hwaits (by simp [hend])
    · obtain ⟨_, _, _, htarget⟩ := Engine.enter_keeps hv.enter_eq
      rw [Bool.eq_false_iff]
      intro hmarked
      exact hne ((hcollects.isEmpty_iff hgroup).mp (htarget hmarked))
    · exact (Engine.visit_told st.awaits hv).1.of_silent hsilent
    · exact hv.modified_of_collects hafter account.checkEnd_eq hgroup hcollects hspeaks

/-- Numbers can be compared, and a token stands for their type. -/
def Universe.comparing : Universe := (Engine.comparing.world.addType (.primitive .int32)).2

/-- Compares the number behind a pointer with another one, as the last thing it does:
`ldarg.0; ldarg.1; constrained. int32; tail.; ann.data.s; callvirt CompareTo; ann.data.s; ret`. -/
def compareLast : MethodBody where
  code := [0x02, 0x03, 0xFE, 0x16, 0x01, 0x00, 0x00, 0x1B, 0xFE, 0x14, 0xFE, 0x22, 0x00, 0x6F, 0x01,
    0x00, 0x00, 0x06, 0xFE, 0x22, 0x00, 0x2A]
  maxStack := 2
  signature :=
    { params := [.byRef (.primitive .int32), .primitive .int32], ret := .primitive .boolean }

/-- The call gets both modifiers and the type that one of them names, leaves its result alone on the
stack, and is followed by the return. -/
theorem verify_compareLast_modifiers :
    (verify compareLast .comparing {} (.withRestarts 0)).1 = .ok ⟨0, 0, 2⟩ ∧
      ∃ joins before v after, Session.prepare compareLast .comparing {} = .ok joins ∧
        Session.visits compareLast .comparing {} = before ++ v :: after ∧
        v.instruction = ⟨13, .callvirt, 5, .token (TokenTable.method.token 0)⟩ ∧
        joins.mask.isTarget 13 = false ∧
        ∃ (waiting : Waiting) (directive : Directive) (result : Option Slot),
          waiting.Collects .comparing [⟨2, .constrained, 6, .token (TokenTable.type.token 0)⟩,
            ⟨8, .tail, 2, .none⟩] ∧
          v.directives = [.modifiers waiting.modifiers waiting.constraint, directive] ∧
          directive.callResult? = some result ∧ v.exit = result.toList ∧
          ∃ remarks w later, after = remarks ++ w :: later ∧ w.instruction.opcode = .ret := by
  have haccepted : (verify compareLast .comparing {} (.withRestarts 0)).1 = .ok ⟨0, 0, 2⟩ := by
    decide +kernel
  have hlisting : (disassemble compareLast.code).instructions =
      [⟨0, .ldarg0, 1, .none⟩, ⟨1, .ldarg1, 1, .none⟩,
        ⟨2, .constrained, 6, .token (TokenTable.type.token 0)⟩, ⟨8, .tail, 2, .none⟩,
        ⟨10, .annDataS, 3, .payload 0⟩] ++
      ⟨13, .callvirt, 5, .token (TokenTable.method.token 0)⟩ ::
        [⟨18, .annDataS, 3, .payload 0⟩, ⟨21, .ret, 1, .none⟩] := by
    decide +kernel
  obtain ⟨joins, hprepare, hinstructions, _, hall⟩ :=
    verify_modifiers compareLast .comparing {} (.withRestarts 0) haccepted
  rw [hlisting] at hinstructions
  obtain ⟨before, rest, hvisits, hbefore, hrest⟩ := List.map_eq_append_iff.mp hinstructions
  obtain ⟨v, after, rfl, hv, _⟩ := List.map_eq_cons_iff.mp hrest
  obtain ⟨_, htarget, _, hmodified⟩ := hall before v after hvisits
  have hgroup : Instruction.modifiersBefore (before.map (·.instruction)) =
      [⟨2, .constrained, 6, .token (TokenTable.type.token 0)⟩, ⟨8, .tail, 2, .none⟩] := by
    rw [hbefore]
    decide +kernel
  rw [hgroup] at htarget hmodified
  have hoffset : v.offset = 13 := congrArg Instruction.offset hv
  have hfalls : joins.mask.isTarget 13 = false := hoffset ▸ htarget (by simp)
  have hspeaks : v.instruction.isSilent = false := by rw [hv]; rfl
  obtain ⟨_, ⟨waiting, _, directive, hcollects, _, _, _, hdirectives, hresult⟩, hreturns⟩ :=
    hmodified hspeaks
  obtain ⟨result, hcall, hexit⟩ := hresult (by simp)
  obtain ⟨remarks, w, later, hafter, _, hret⟩ := hreturns (by simp)
  refine ⟨haccepted, joins, before, v, after, hprepare, hvisits, hv, hfalls, waiting, directive,
    result, hcollects, ?_, hcall, hexit, remarks, w, later, hafter, hret⟩
  have harrival : (Session.context compareLast .comparing {} joins).mask.arrival 13 v.entry = [] :=
    if_neg (by simp [Session.context, hfalls])
  rw [hdirectives, hoffset, harrival]
  rfl

end ManagedCode
