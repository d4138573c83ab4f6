import ManagedCode.Proofs.Verify.Sessions

set_option autoImplicit false

/-! # Local variables that are not zero at the start

A method may leave its local variables as they are when it starts, and then its code must not rely
on what is in them. The pass asks for this at one place only, where a local variable is loaded. So
such a method is verified exactly if it would be verified with variables that start as zero, and
loads none of them (`verify_initLocals`).

The address of a variable is given out all the same, and what is in the variable can be read through
it: `peekLocal` is verified.
-/

namespace ManagedCode

/-- The opcode loads a local variable. -/
def Opcode.loadsLocal : Opcode → Bool
  | .ldloc0 | .ldloc1 | .ldloc2 | .ldloc3 | .ldlocS | .ldloc => true
  | _ => false

/-- The operation loads a local variable. -/
def Operation.loadsLocal : Operation → Bool
  | .loadLocal _ => true
  | _ => false

theorem Instruction.loadsLocal_of_operation? {i : Instruction} {operation : Operation}
    (h : i.operation? = some operation) : i.opcode.loadsLocal = operation.loadsLocal := by
  apply of_operation? h
  cases i.opcode <;> first | rfl | exact fun _ _ => rfl

/-- The body, with local variables that start as zero or not. -/
def MethodBody.clearing (body : MethodBody) (init : Bool) : MethodBody :=
  { body with initLocals := init }

/-! ## One operation -/

namespace Site

/-- The site in the body with the flag set to `init`. -/
def clearing (site : Site) (init : Bool) : Site := { site with body := site.body.clearing init }

/-- Only a load asks how the local variables start. -/
theorem perform_clearing (site : Site) (init : Bool) {operation : Operation}
    (h : operation.loadsLocal = false) (s : Stack) :
    (site.clearing init).perform operation s = site.perform operation s := by
  cases operation with
  | loadLocal index => cases h
  | _ => rfl

/-- A variable that may be loaded starts as zero, or raw pointers are accepted. -/
theorem initLocals_of_loadLocal {site : Site} {index : Nat} {s : Stack} {effect : Effect}
    (h : site.perform (.loadLocal index) s = .ok effect) :
    (site.body.initLocals || site.rawPointers) = true := by
  obtain ⟨_, _, h⟩ := bind_eq_ok h
  obtain ⟨_, hinit, _⟩ := bind_eq_ok h
  exact require_eq_ok hinit

end Site

/-! ## The pass -/

namespace Engine

/-- The context with the flag of the body set to `init`. -/
def clearing (cx : Context) (init : Bool) : Context := { cx with body := cx.body.clearing init }

variable (cx : Context) (init : Bool)

theorem arrive_clearing (slots : Slots) (targets : List Nat) (labels : LabelStore) :
    arrive (clearing cx init) slots targets labels = arrive cx slots targets labels := by
  apply arrive_congr
  rfl

theorem execute_clearing (pc : Nat) {operation : Operation} (h : operation.loadsLocal = false)
    (st : EngineState) :
    execute (clearing cx init) pc operation st = execute cx pc operation st := by
  have hperform : (site (clearing cx init) pc st).perform operation st.stack =
      (site cx pc st).perform operation st.stack :=
    (site cx pc st).perform_clearing init h st.stack
  unfold execute
  simp only [hperform, arrive_clearing]

theorem process_clearing (pc : Nat) {operation : Operation} (h : operation.loadsLocal = false)
    (st : EngineState) :
    process (clearing cx init) pc operation st = process cx pc operation st := by
  unfold process
  rw [execute_clearing cx init pc h]
  rfl

theorem visit_clearing {i : Instruction} (h : i.opcode.loadsLocal = false) (st : EngineState) :
    visit (clearing cx init) i st = visit cx i st := by
  -- How control arrives at an instruction does not depend on the body.
  have henter' : enter (clearing cx init) i.offset st = enter cx i.offset st := rfl
  cases henter : enter cx i.offset st with
  | error e =>
      unfold visit
      rw [henter', henter]
  | ok entered =>
      rw [henter] at henter'
      cases hoperation : i.operation? with
      | none =>
          unfold visit
          rw [henter', henter, hoperation]
          rfl
      | some operation =>
          rw [Instruction.loadsLocal_of_operation? hoperation] at h
          by_cases hremark : operation = .remark
          · unfold visit
            rw [henter', henter, hoperation, hremark]
            rfl
          · rw [visit_of_operation? henter' hoperation hremark,
              visit_of_operation? henter hoperation hremark, process_clearing cx init i.offset h]
            rfl

theorem visitAll_clearing {instructions : List Instruction}
    (h : ∀ i ∈ instructions, i.opcode.loadsLocal = false) (sent : Array Directive)
    (st : EngineState) :
    visitAll (clearing cx init) sent instructions st = visitAll cx sent instructions st := by
  induction instructions generalizing sent st with
  | nil => rfl
  | cons i rest ih =>
      obtain ⟨hi, hrest⟩ := List.forall_mem_cons.mp h
      unfold visitAll
      simp only [visit_clearing cx init hi, ih hrest]

theorem run_clearing {listing : Listing}
    (h : ∀ i ∈ listing.instructions, i.opcode.loadsLocal = false) (labels : LabelStore) :
    run (clearing cx init) listing labels = run cx listing labels := by
  unfold run
  rw [show start (clearing cx init) labels = start cx labels from rfl,
    visitAll_clearing cx init h]

end Engine

/-! ## Verification -/

theorem Session.run_clearing (body : MethodBody)
    (h : ∀ i ∈ (disassemble body.code).instructions, i.opcode.loadsLocal = false) (init : Bool)
    (world : Universe) (options : Options) :
    Session.run (body.clearing init) world options = Session.run body world options := by
  have hprepare' : prepare (body.clearing init) world options = prepare body world options := rfl
  cases hprepare : prepare body world options with
  | error e =>
      rw [hprepare] at hprepare'
      rw [run_of_prepare_error hprepare, run_of_prepare_error hprepare']
  | ok joins =>
      rw [hprepare] at hprepare'
      have hpass : Engine.run (context (body.clearing init) world options joins)
            (disassemble body.code) joins.labels =
          Engine.run (context body world options joins) (disassemble body.code) joins.labels :=
        Engine.run_clearing (context body world options joins) init h joins.labels
      rw [run_of_prepare hprepare, run_of_prepare hprepare', ← hpass]
      rfl

theorem verify_clearing (body : MethodBody)
    (h : ∀ i ∈ (disassemble body.code).instructions, i.opcode.loadsLocal = false) (init : Bool)
    (world : Universe) (options : Options) (backend : Recorder) :
    verify (body.clearing init) world options backend = verify body world options backend := by
  unfold verify
  rw [Session.run_clearing body h]
  rfl

/-- A method that is verified without raw pointers, and whose local variables need not start as
zero, loads none of them. -/
theorem loadsLocal_eq_false {body : MethodBody} {world : Universe} {options : Options}
    (hinit : body.initLocals = false) (hraw : options.rawPointers = false) {a : Acceptance}
    (h : (Session.run body world options).result = .ok a) {i : Instruction}
    (hi : i ∈ (disassemble body.code).instructions) : i.opcode.loadsLocal = false := by
  obtain ⟨account⟩ := Session.exists_account h
  obtain ⟨operation, hoperation, hperformed⟩ := account.exists_performed hi
  rw [Instruction.loadsLocal_of_operation? hoperation]
  cases operation with
  | loadLocal index =>
      obtain ⟨st, effect, heffect⟩ := hperformed (by simp) (by simp)
      have hallowed := Site.initLocals_of_loadLocal heffect
      change (body.initLocals || options.rawPointers) = true at hallowed
      rw [hinit, hraw] at hallowed
      cases hallowed
  | _ => rfl

/-- **A method whose local variables need not start as zero is verified exactly if it would be
verified with variables that do, and loads none of them.** Nothing else about them is checked, and
the backend records the same. -/
theorem verify_initLocals (body : MethodBody) (world : Universe) (options : Options)
    (backend recorder : Recorder) (v : Verified) :
    verify { body with initLocals := false } world { options with rawPointers := false } backend =
        (.ok v, recorder) ↔
      verify { body with initLocals := true } world { options with rawPointers := false } backend =
          (.ok v, recorder) ∧
        ∀ i ∈ (disassemble body.code).instructions, i.opcode.loadsLocal = false := by
  have hsame (h : ∀ i ∈ (disassemble body.code).instructions, i.opcode.loadsLocal = false) :=
    verify_clearing (body.clearing false) h true world { options with rawPointers := false } backend
  constructor
  · intro h
    obtain ⟨a, ha⟩ := verify_eq_ok (congrArg Prod.fst h)
    have hloads : ∀ i ∈ (disassemble body.code).instructions, i.opcode.loadsLocal = false :=
      fun i hi => loadsLocal_eq_false rfl rfl ha hi
    exact ⟨(hsame hloads).trans h, hloads⟩
  · rintro ⟨h, hloads⟩
    exact (hsame hloads).symm.trans h

/-- `ldloca.s 0; ldind.i4; pop; ret`: reads a local variable that nothing was written to. -/
def peekLocal : MethodBody where
  code := [0x12, 0x00, 0x4A, 0x26, 0x2A]
  maxStack := 1
  locals := [.primitive .int32]
  initLocals := false

/-- **A local variable may be read through its address before anything was written to it.** -/
theorem verify_peekLocal :
    (verify peekLocal .core {} (.withRestarts 0)).1 = .ok ⟨0, 0, 1⟩ ∧
      peekLocal.initLocals = false ∧
      (disassemble peekLocal.code).instructions =
        [⟨0, .ldlocaS, 2, .uint8 0⟩, ⟨2, .ldindI4, 1, .none⟩, ⟨3, .pop, 1, .none⟩,
          ⟨4, .ret, 1, .none⟩] := by
  refine ⟨?_, rfl, ?_⟩
  · decide +kernel
  · decide +kernel

end ManagedCode
