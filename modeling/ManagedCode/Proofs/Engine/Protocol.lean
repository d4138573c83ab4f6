import ManagedCode.Proofs.Effect.Reports
import ManagedCode.Proofs.Engine.Catalogue
import ManagedCode.Proofs.Engine.Visits

set_option autoImplicit false

/-! # What the backend is told in a pass

The backend hears of instructions in their order (`Engine.Told`): of a jump target first, with the
stack there; then, unless the instruction only modifies another one or carries a remark, of the
modifiers that wait for it, if there are any; and last of its one operation. Which modifiers wait is
a matter of the instructions before (`Waiting.behind`). Of an instruction that is rejected the
backend hears at most what comes before the operation (`Engine.Interrupted`).

`visit_told` and `visit_interrupted` say so for one visit, `visitAll_follows` for a pass
(`Engine.Follows`).
-/

namespace ManagedCode

/-! ## Instructions without an operation -/

/-- The instruction does nothing by itself: it modifies another one or carries a remark. -/
def Instruction.isSilent (i : Instruction) : Bool := i.opcode.isModifier || i.opcode.isRemark

/-- The operation stands for an instruction that does nothing by itself. -/
def Operation.isSilent : Operation → Bool
  | .modify _ | .remark => true
  | _ => false

/-- Which instructions do nothing by themselves can be seen from the opcode. -/
theorem Instruction.isSilent_of_operation? {i : Instruction} {operation : Operation}
    (h : i.operation? = some operation) : i.isSilent = operation.isSilent := by
  unfold isSilent
  apply of_operation? h
  cases i.opcode <;> first | rfl | exact fun _ _ => rfl

theorem Operation.isSilent_eq_false {operation : Operation}
    (hremark : operation ≠ .remark) (hmodify : ∀ modifier, operation ≠ .modify modifier) :
    operation.isSilent = false := by
  unfold isSilent
  split
  · rename_i modifier
    exact absurd rfl (hmodify modifier)
  · exact absurd rfl hremark
  · rfl

/-! ## Modifiers that wait -/

/-- The modifiers that wait for an instruction, and the type that one of them names. -/
structure Waiting where
  modifiers : Modifiers := .none
  constraint : Option Ty := none

namespace Waiting

/-- One more modifier waits. -/
def add (world : Universe) (waiting : Waiting) (modifier : Modifier) : Waiting where
  modifiers := waiting.modifiers.insert modifier
  constraint := Engine.constraintAfter world waiting.constraint modifier

/-- What waits behind an instruction: a modifier is added, a remark changes nothing, and any other
instruction takes all. -/
def after (world : Universe) (waiting : Waiting) (i : Instruction) : Waiting :=
  match i.operation? with
  | some (.modify modifier) => waiting.add world modifier
  | some .remark => waiting
  | _ => {}

/-- What waits behind all of the instructions. -/
def behind (world : Universe) (waiting : Waiting) (instructions : List Instruction) : Waiting :=
  instructions.foldl (after world) waiting

/-- What the backend is told about the modifiers. -/
def announcement (waiting : Waiting) : List Directive :=
  if waiting.modifiers.isEmpty then [] else [.modifiers waiting.modifiers waiting.constraint]

end Waiting

/-- The modifiers that the state holds are those that wait. -/
structure EngineState.Awaits (st : EngineState) (waiting : Waiting) : Prop where
  pending_eq : st.pending = waiting.modifiers
  constraint_eq : st.constraint = waiting.constraint

/-- What the backend is told where control arrives with a stack. -/
def JumpMask.arrival (mask : JumpMask) (offset : Nat) (slots : Slots) : List Directive :=
  if mask.isTarget offset then [.label offset, .refresh slots] else []

namespace Engine

variable {cx : Context} {pc : Nat} {st st' : EngineState} {waiting : Waiting}
  {operation : Operation} {directives : List Directive}

/-! ## The protocol -/

/-- Where the operation of the instruction at `pc` is checked. -/
def siteOf (cx : Context) (pc : Nat) (waiting : Waiting) : Site where
  world := cx.world
  body := cx.body
  rawPointers := cx.rawPointers
  codeSize := cx.mask.size
  offset := pc
  constraint := waiting.constraint
  tail := waiting.modifiers.tail

/-- What the backend is told in a visit. -/
structure Told (cx : Context) (waiting : Waiting) (v : Visit) : Prop where
  of_silent : v.instruction.isSilent = true → v.directives = cx.mask.arrival v.offset v.entry
  of_operation : v.instruction.isSilent = false →
    ∃ operation effect, v.instruction.operation? = some operation ∧
      (siteOf cx v.offset waiting).perform operation v.entered.stack = .ok effect ∧
      effect.directive.isOperation = true ∧
      (siteOf cx v.offset waiting).Tells operation effect.directive ∧
      v.directives =
        cx.mask.arrival v.offset v.entry ++ waiting.announcement ++ [effect.directive]

/-- What the backend is told about an instruction that is rejected in the state `st`: nothing, that
control arrives, or also the modifiers. -/
def Interrupted (cx : Context) (st : EngineState) (waiting : Waiting) (i : Instruction)
    (directives : List Directive) : Prop :=
  directives = [] ∨ ∃ entered, enter cx i.offset st = .ok entered ∧
    (directives = cx.mask.arrival i.offset entered.stack.slots ∨
      i.isSilent = false ∧
        directives = cx.mask.arrival i.offset entered.stack.slots ++ waiting.announcement)

/-- What the backend is told about instructions from the state `st` on, where `visits` are made and
`result` is the end of it. Each visit is told as it is due. Either all instructions are visited and
nothing else is told, or one of them is rejected and the others are not looked at. -/
def Follows {α : Type} (cx : Context) (st : EngineState) (waiting : Waiting)
    (instructions : List Instruction) (visits : List Visit) (told : List Directive)
    (result : Except Rejection α) : Prop :=
  ∃ before rest, Path cx st visits before ∧ told = visits.flatMap (·.directives) ++ rest ∧
    (∀ k v, visits[k]? = some v →
      Told cx (waiting.behind cx.world (instructions.take k)) v) ∧
    (visits.map (·.instruction) = instructions ∧ rest = [] ∨
      ∃ i later e, instructions = visits.map (·.instruction) ++ i :: later ∧ result = .error e ∧
        Interrupted cx before (waiting.behind cx.world (visits.map (·.instruction))) i rest)

/-! ## One visit -/

theorem enterDirectives_eq : enterDirectives cx pc st = cx.mask.arrival pc st.stack.slots := rfl

theorem announced_eq (hst : st.Awaits waiting) : announced st = waiting.announcement := by
  unfold announced Waiting.announcement
  rw [hst.pending_eq, hst.constraint_eq]

theorem site_eq (hst : st.Awaits waiting) : site cx pc st = siteOf cx pc waiting := by
  unfold site siteOf
  rw [hst.pending_eq, hst.constraint_eq]

/-- Modifiers wait while control arrives. -/
theorem enter_waiting (hst : st.Awaits waiting) (h : enter cx pc st = .ok st') :
    st'.Awaits waiting := by
  rcases enter_eq_ok h with ⟨_, hjoin⟩ | ⟨_, rfl, _⟩
  · obtain ⟨_, _, _, _, _, _, rfl⟩ := join_eq_ok hjoin
    exact ⟨hst.pending_eq, hst.constraint_eq⟩
  · exact hst

theorem addModifier_waiting {modifier : Modifier} (hst : st.Awaits waiting)
    (h : addModifier cx pc modifier st = .ok st') : st'.Awaits (waiting.add cx.world modifier) := by
  rw [addModifier_state h]
  unfold Waiting.add
  rw [← hst.pending_eq, ← hst.constraint_eq]
  exact ⟨rfl, rfl⟩

/-- An operation that is carried out takes all modifiers, and the backend is told of its effect. -/
theorem execute_told {directive : Directive}
    (h : execute cx pc operation st = .ok (st', directive)) :
    st'.Awaits {} ∧ ∃ effect, (site cx pc st).perform operation st.stack = .ok effect ∧
      (site cx pc st).Tells operation effect.directive ∧ directive = effect.directive := by
  obtain ⟨effect, _, heffect, _, hdirective, rfl⟩ := execute_state h
  have htells := (Site.perform_reports _ _ operation).tells effect heffect
  exact ⟨⟨rfl, rfl⟩, effect, heffect, htells, hdirective⟩

/-- **The backend is told about a visit as the protocol has it**, and modifiers are handed on. -/
theorem visit_told {v : Visit} (hst : st.Awaits waiting) (h : Visited cx st v) :
    Told cx waiting v ∧ v.left.Awaits (waiting.after cx.world v.instruction) := by
  obtain ⟨entered, operation, henter, hoperation, hwork⟩ := visit_eq_ok h.visit_eq
  have heq : entered = v.entered := Except.ok.inj (henter.symm.trans h.enter_eq)
  subst heq
  have hentered : v.entered.Awaits waiting := enter_waiting hst henter
  have hsilent := Instruction.isSilent_of_operation? hoperation
  unfold Waiting.after
  rw [hoperation]
  rcases hwork with ⟨rfl, hleft, hdirectives⟩ | ⟨hremark, work, hprocess, hdirectives⟩
  · -- A remark is silent and leaves all as it is.
    refine ⟨⟨fun _ => hdirectives, fun hspeaks => ?_⟩, ?_⟩
    · rw [hsilent] at hspeaks
      cases hspeaks
    · rw [hleft]
      exact hentered
  · obtain ⟨_, hcases⟩ := process_eq_ok hprocess
    rcases hcases with ⟨modifier, rfl, rfl, hadd⟩ | ⟨hmodify, _, directive, hexecute, rfl⟩
    · refine ⟨⟨fun _ => ?_, fun hspeaks => ?_⟩, addModifier_waiting hentered hadd⟩
      · rw [hdirectives, List.append_nil]
        rfl
      · rw [hsilent] at hspeaks
        cases hspeaks
    · have hspeaks := Operation.isSilent_eq_false hremark hmodify
      obtain ⟨hnone, effect, hperform, htells, rfl⟩ := execute_told hexecute
      refine ⟨⟨fun hquiet => ?_, fun _ => ?_⟩, ?_⟩
      · rw [hsilent, hspeaks] at hquiet
        cases hquiet
      · rw [site_eq hentered] at hperform htells
        refine ⟨operation, effect, hoperation, hperform, htells.isOperation, htells, ?_⟩
        · rw [hdirectives, announced_eq hentered, enterDirectives_eq, List.append_assoc]
          rfl
      · split
        · rename_i modifier heq
          cases heq
          exact absurd rfl (hmodify modifier)
        · rename_i heq
          cases heq
          exact absurd rfl hremark
        · exact hnone

/-- Work that is rejected tells the backend of the modifiers at most. -/
theorem process_interrupted {e : Rejection} (hremark : operation ≠ .remark)
    (h : process cx pc operation st = ⟨directives, .error e⟩) :
    directives = [] ∨ operation.isSilent = false ∧ directives = announced st := by
  unfold process at h
  cases htail : checkTailCall operation st with
  | error e' =>
      rw [htail] at h
      cases h
      exact .inl rfl
  | ok _ =>
      rw [htail] at h
      simp only at h
      split at h
      · obtain ⟨rfl, _⟩ := Outcome.mk.inj h
        exact .inl rfl
      · rename_i hmodify
        split at h
        · cases hexecute : execute cx pc operation st with
          | error e' =>
              rw [hexecute] at h
              obtain ⟨rfl, _⟩ := Outcome.mk.inj h
              exact .inr ⟨Operation.isSilent_eq_false hremark hmodify, rfl⟩
          | ok result =>
              rw [hexecute] at h
              cases h
        · obtain ⟨rfl, _⟩ := Outcome.mk.inj h
          exact .inl rfl

/-- **The operation of an instruction that is rejected is not told.** -/
theorem visit_interrupted {i : Instruction} {e : Rejection} (hst : st.Awaits waiting)
    (h : visit cx i st = ⟨directives, .error e⟩) : Interrupted cx st waiting i directives := by
  unfold visit at h
  cases henter : enter cx i.offset st with
  | error e' =>
      rw [henter] at h
      cases h
      exact .inl rfl
  | ok entered =>
      rw [henter] at h
      simp only at h
      refine .inr ⟨entered, henter, ?_⟩
      split at h
      · obtain ⟨rfl, _⟩ := Outcome.mk.inj h
        exact .inl rfl
      · cases h
      · rename_i operation hremark hoperation
        obtain ⟨rfl, hresult⟩ := Outcome.mk.inj h
        have hprocess : process cx i.offset operation entered =
            ⟨(process cx i.offset operation entered).directives, .error e⟩ := by
          rw [← hresult]
        rcases process_interrupted hremark hprocess with hnothing | ⟨hspeaks, hannounced⟩
        · rw [hnothing, List.append_nil]
          exact .inl rfl
        · rw [hannounced, announced_eq (enter_waiting hst henter)]
          exact .inr ⟨(Instruction.isSilent_of_operation? hoperation).trans hspeaks, rfl⟩

/-! ## A pass -/

/-- What follows a pass cannot repair it. -/
theorem Follows.imp {α β : Type} {instructions : List Instruction} {visits : List Visit}
    {told : List Directive} {result : Except Rejection α} {result' : Except Rejection β}
    (h : Follows cx st waiting instructions visits told result)
    (hresult : ∀ e, result = .error e → result' = .error e) :
    Follows cx st waiting instructions visits told result' := by
  obtain ⟨before, rest, hpath, htold, hall, hend⟩ := h
  refine ⟨before, rest, hpath, htold, hall, ?_⟩
  rcases hend with hcomplete | ⟨i, later, e, hsplit, herror, hcut⟩
  · exact .inl hcomplete
  · exact .inr ⟨i, later, e, hsplit, hresult e herror, hcut⟩

theorem Follows.cons {α : Type} {instructions : List Instruction} {visits : List Visit}
    {told : List Directive} {result : Except Rejection α} {v : Visit} (hst : st.Awaits waiting)
    (hv : Visited cx st v)
    (h : Follows cx v.left (waiting.after cx.world v.instruction) instructions visits told result) :
    Follows cx st waiting (v.instruction :: instructions) (v :: visits) (v.directives ++ told)
      result := by
  obtain ⟨before, rest, hpath, htold, hall, hend⟩ := h
  refine ⟨before, rest, ⟨hv, hpath⟩, ?_, ?_, ?_⟩
  · rw [htold, List.flatMap_cons, List.append_assoc]
  · intro k w hw
    cases k with
    | zero =>
        cases hw
        exact (visit_told hst hv).1
    | succ k => exact hall k w hw
  · rcases hend with ⟨hmap, hrest⟩ | ⟨i, later, e, hsplit, herror, hcut⟩
    · exact .inl ⟨congrArg (v.instruction :: ·) hmap, hrest⟩
    · exact .inr ⟨i, later, e, congrArg (v.instruction :: ·) hsplit, herror, hcut⟩

/-- **A pass tells the backend of each instruction in turn.** -/
theorem visitAll_follows (hst : st.Awaits waiting) (sent : Array Directive)
    (instructions : List Instruction) :
    let pass := visitAll cx sent instructions st
    ∃ told, pass.directives.toList = sent.toList ++ told ∧
      Follows cx st waiting instructions (visits cx instructions st) told pass.result := by
  induction instructions generalizing sent st waiting with
  | nil =>
      have hnone : ∀ (k : Nat) (v : Visit), ([] : List Visit)[k]? = some v →
          Told cx (waiting.behind cx.world (([] : List Instruction).take k)) v := by
        intro k v hv
        cases hv
      exact ⟨[], (List.append_nil _).symm, st, [], rfl, rfl, hnone, .inl ⟨rfl, rfl⟩⟩
  | cons i later ih =>
      unfold visitAll
      cases hvisit : visit cx i st with
      | mk directives result =>
          cases result with
          | error e =>
              rw [visits_of_error hvisit]
              refine ⟨directives, by simp, st, directives, rfl, rfl, ?_, ?_⟩
              · intro k v hv
                cases hv
              · exact .inr ⟨i, later, e, rfl, rfl, visit_interrupted hst hvisit⟩
          | ok left =>
              obtain ⟨entered, _, henter, _⟩ := visit_eq_ok hvisit
              have hvisited : Visited cx st ⟨i, entered, left, directives⟩ := ⟨henter, hvisit⟩
              have hleft := (visit_told hst hvisited).2
              obtain ⟨told, hdirectives, hfollows⟩ := ih hleft (sent ++ directives.toArray)
              rw [visits_of_ok henter hvisit]
              refine ⟨directives ++ told, ?_, .cons hst hvisited hfollows⟩
              simp [hdirectives]

/-- What is checked at the end of a pass cannot repair it. -/
theorem run_of_visitAll_error {listing : Listing} {labels : LabelStore} {e : Rejection}
    (h : (visitAll cx #[] listing.instructions (start cx labels)).result = .error e) :
    (run cx listing labels).result = .error e := by
  unfold run
  simp only [h]
  rfl

end Engine

end ManagedCode
