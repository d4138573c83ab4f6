import ManagedCode.Engine
import ManagedCode.Proofs.Checks

set_option autoImplicit false

/-! # What the pass does at one instruction

Each function of the pass is inverted once: from the outcome that it accepted, to all that it did.
`visit_eq_ok` takes an accepted visit apart into arrival and work, `process_eq_ok` the work into a
modifier that is noted or an operation that is carried out.
-/

namespace ManagedCode.Engine

variable {cx : Context} {pc : Nat} {st st' : EngineState} {operation : Operation}
  {directives : List Directive}

theorem rejecting_eq_ok {α : Type} {x : Except Fault α} {a : α}
    (h : rejecting pc x = .ok a) : x = .ok a := by
  cases x with
  | error fault => cases h
  | ok a' =>
      cases h
      rfl

theorem rejecting_agree {α β : Type} {S : α → β → Prop} {x : Except Fault α} {y : Except Fault β}
    (h : Agree S x y) (pc pc' : Nat) : Agree S (rejecting pc x) (rejecting pc' y) := by
  cases h with
  | ok h => exact .ok h
  | error e e' => exact .error _ _

/-! ## Arrival -/

/-- What the labels say to control that arrives at a jump target: the number of the label there,
and the store afterwards. -/
def consult (cx : Context) (pc : Nat) (st : EngineState) : Except Rejection Nat × LabelStore :=
  if st.afterTransfer then st.labels.reload pc
  else st.labels.observe cx.world pc st.stack.slots

/-- Control that arrives at a jump target goes on with the snapshot there. -/
theorem join_eq_ok (h : join cx pc st = .ok st') :
    st.pending.isEmpty = true ∧ ∃ id labels stack, consult cx pc st = (.ok id, labels) ∧
      st.stack.load (labels.snapshot id) = .ok stack ∧
      st' = { st with stack, labels := labels.markVisited id, afterTransfer := false } := by
  unfold join at h
  obtain ⟨_, hpending, h⟩ := bind_eq_ok h
  obtain ⟨id, hid, h⟩ := bind_eq_ok h
  obtain ⟨stack, hload, h⟩ := bind_eq_ok h
  cases h
  refine ⟨require_eq_ok hpending, id, (consult cx pc st).2, stack, ?_, rejecting_eq_ok hload, rfl⟩
  exact Prod.ext hid rfl

theorem join_of_consult {id : Nat} {labels : LabelStore} {stack : Stack}
    (hpending : st.pending.isEmpty = true) (hconsult : consult cx pc st = (.ok id, labels))
    (hload : st.stack.load (labels.snapshot id) = .ok stack) :
    join cx pc st =
      .ok { st with stack, labels := labels.markVisited id, afterTransfer := false } := by
  unfold consult at hconsult
  unfold join
  rw [require_of_true hpending, hconsult]
  show (rejecting pc (st.stack.load (labels.snapshot id)) >>= fun stack => _) = _
  rw [hload]
  rfl

/-- Control that arrives anywhere else goes on as it is, and with an empty stack if it cannot have
fallen through. -/
theorem enter_eq_ok (h : enter cx pc st = .ok st') :
    cx.mask.isTarget pc = true ∧ join cx pc st = .ok st' ∨
      cx.mask.isTarget pc = false ∧ st' = st ∧
        (st.afterTransfer = true → st.stack.slots = []) := by
  unfold enter at h
  split at h
  · rename_i htarget
    exact .inl ⟨htarget, h⟩
  · rename_i htarget
    obtain ⟨_, hempty, h⟩ := bind_eq_ok h
    cases h
    have hempty := require_eq_ok hempty
    refine .inr ⟨by simpa using htarget, rfl, fun hafter => ?_⟩
    simpa [hafter, Stack.isEmpty] using hempty

/-! ## Work -/

/-- What the backend is told about modifiers before the operation they modify. -/
def announced (st : EngineState) : List Directive :=
  if st.pending.isEmpty then [] else [.modifiers st.pending st.constraint]

/-- The stack goes to one target after the other. -/
theorem arrive_cons_eq_ok {slots : Slots} {target : Nat} {rest : List Nat}
    {labels labels' : LabelStore} (h : arrive cx slots (target :: rest) labels = .ok labels') :
    ∃ id next, labels.observe cx.world target slots = (.ok id, next) ∧
      arrive cx slots rest next = .ok labels' := by
  unfold arrive at h
  split at h
  · rename_i id next hobserve
    exact ⟨id, next, hobserve, h⟩
  · cases h

/-- Of the context, only the universe matters to the labels. -/
theorem arrive_congr {cx' : Context} (h : cx'.world = cx.world) (slots : Slots)
    (targets : List Nat) (labels : LabelStore) :
    arrive cx' slots targets labels = arrive cx slots targets labels := by
  induction targets generalizing labels with
  | nil => rfl
  | cons target rest ih =>
      unfold arrive
      simp only [ih, h]

theorem process_of_error {e : Rejection} (htail : checkTailCall operation st = .error e) :
    process cx pc operation st = ⟨[], .error e⟩ := by
  unfold process
  rw [htail]

theorem process_modify (modifier : Modifier)
    (htail : checkTailCall (.modify modifier) st = .ok ()) :
    process cx pc (.modify modifier) st = ⟨[], addModifier cx pc modifier st⟩ := by
  unfold process
  rw [htail]

/-- An operation that may be carried out decides the work. -/
theorem process_of_admits (htail : checkTailCall operation st = .ok ())
    (hmodify : ∀ modifier, operation ≠ .modify modifier)
    (hadmits : operation.admits st.pending = true) :
    process cx pc operation st =
      match execute cx pc operation st with
      | .error e => ⟨announced st, .error e⟩
      | .ok (st', directive) => ⟨announced st ++ [directive], .ok st'⟩ := by
  unfold process
  rw [htail]
  simp only [hadmits, if_true]
  rfl

/-- An operation that does not take the modifiers that wait is not carried out. -/
theorem process_of_not_admits (htail : checkTailCall operation st = .ok ())
    (hmodify : ∀ modifier, operation ≠ .modify modifier)
    (hadmits : ¬ operation.admits st.pending = true) :
    process cx pc operation st = ⟨[], .error (.type pc (some .modifier))⟩ := by
  unfold process
  rw [htail]
  simp only [hadmits]
  rfl

theorem process_execute (htail : checkTailCall operation st = .ok ())
    (hmodify : ∀ modifier, operation ≠ .modify modifier)
    (hadmits : operation.admits st.pending = true) {directive : Directive}
    (h : execute cx pc operation st = .ok (st', directive)) :
    process cx pc operation st = ⟨announced st ++ [directive], .ok st'⟩ := by
  rw [process_of_admits htail hmodify hadmits, h]

/-- An operation is carried out: it has an effect, and the stack it leaves behind agrees with the
labels it leads to. Nothing waits afterwards. -/
theorem execute_state {directive : Directive}
    (h : execute cx pc operation st = .ok (st', directive)) :
    ∃ effect labels, (site cx pc st).perform operation st.stack = .ok effect ∧
      arrive cx effect.stack.slots effect.targets st.labels = .ok labels ∧
      directive = effect.directive ∧
      st' = {
        stack := effect.stack
        labels
        tailCall := if st.pending.tail then some pc else none
        afterTransfer := operation.isUnconditional
        last := some pc } := by
  unfold execute at h
  obtain ⟨effect, heffect, h⟩ := bind_eq_ok h
  obtain ⟨labels, hlabels, h⟩ := bind_eq_ok h
  cases h
  exact ⟨effect, labels, rejecting_eq_ok heffect, hlabels, rfl, rfl⟩

theorem execute_eq_ok {directive : Directive}
    (h : execute cx pc operation st = .ok (st', directive)) :
    ∃ effect labels, (site cx pc st).perform operation st.stack = .ok effect ∧
      arrive cx effect.stack.slots effect.targets st.labels = .ok labels ∧
      st'.stack = effect.stack ∧ st'.labels = labels ∧
      st'.afterTransfer = operation.isUnconditional := by
  obtain ⟨effect, labels, heffect, hlabels, _, rfl⟩ := execute_state h
  exact ⟨effect, labels, heffect, hlabels, rfl, rfl, rfl⟩

theorem type?_of_typeAt {site : Site} {token : Token} {ty : Ty} (h : site.typeAt token = .ok ty) :
    site.world.type? token = some ty := by
  have hfilter := known_eq_ok h
  exact (Option.filter_eq_some_iff.mp hfilter).1

/-- The type behind the receiver once a modifier was added. -/
def constraintAfter (world : Universe) (constraint : Option Ty) : Modifier → Option Ty
  | .constrained token => world.type? token
  | _ => constraint

/-- The type behind the receiver, once the operand of a modifier has been looked at. -/
def checkModifier (cx : Context) (pc : Nat) (st : EngineState) :
    Modifier → Except Rejection (Option Ty)
  | .unaligned alignment => do
      require (isAlignment alignment) (.type pc (some .modifier))
      return st.constraint
  | .constrained token => do
      let ty ← rejecting pc ((site cx pc st).typeAt token)
      return some ty
  | _ => return st.constraint

/-- The state once a modifier was noted. -/
def noting (pc : Nat) (modifier : Modifier) (constraint : Option Ty) (st : EngineState) :
    EngineState :=
  { st with
    pending := st.pending.insert modifier
    constraint
    tailCall := none
    afterTransfer := false
    last := some pc }

theorem addModifier_eq (modifier : Modifier) :
    addModifier cx pc modifier st = (do
      let constraint ← checkModifier cx pc st modifier
      require (!st.pending.contains modifier) (.type pc (some .modifier))
      return noting pc modifier constraint st) := by
  cases modifier with
  | unaligned alignment =>
      simp only [addModifier, checkModifier]
      cases require (isAlignment alignment) (Rejection.type pc (some .modifier)) <;> rfl
  | constrained token =>
      simp only [addModifier, checkModifier]
      cases rejecting pc ((site cx pc st).typeAt token) <;> rfl
  | _ => rfl

theorem checkModifier_eq_ok {modifier : Modifier} {constraint : Option Ty}
    (h : checkModifier cx pc st modifier = .ok constraint) :
    constraint = constraintAfter cx.world st.constraint modifier := by
  cases modifier with
  | unaligned alignment =>
      obtain ⟨_, _, h⟩ := bind_eq_ok h
      cases h
      rfl
  | constrained token =>
      obtain ⟨ty, htype, h⟩ := bind_eq_ok h
      cases h
      exact (type?_of_typeAt (rejecting_eq_ok htype)).symm
  | _ =>
      cases h
      rfl

/-- A modifier is noted and does nothing else. -/
theorem addModifier_state {modifier : Modifier} (h : addModifier cx pc modifier st = .ok st') :
    st' = { st with
      pending := st.pending.insert modifier
      constraint := constraintAfter cx.world st.constraint modifier
      tailCall := none
      afterTransfer := false
      last := some pc } := by
  rw [addModifier_eq] at h
  obtain ⟨constraint, hconstraint, h⟩ := bind_eq_ok h
  obtain ⟨_, _, h⟩ := bind_eq_ok h
  cases h
  rw [noting, checkModifier_eq_ok hconstraint]

/-- A modifier leaves the stack and the labels as they are. -/
theorem addModifier_eq_ok {modifier : Modifier} (h : addModifier cx pc modifier st = .ok st') :
    st'.stack = st.stack ∧ st'.labels = st.labels ∧ st'.afterTransfer = false := by
  rw [addModifier_state h]
  exact ⟨rfl, rfl, rfl⟩

/-- The work at an instruction is a modifier that is noted, or an operation that is carried out. -/
theorem process_eq_ok (h : process cx pc operation st = ⟨directives, .ok st'⟩) :
    checkTailCall operation st = .ok () ∧
      ((∃ modifier, operation = .modify modifier ∧ directives = [] ∧
          addModifier cx pc modifier st = .ok st') ∨
        (∀ modifier, operation ≠ .modify modifier) ∧ operation.admits st.pending = true ∧
          ∃ directive, execute cx pc operation st = .ok (st', directive) ∧
            directives = announced st ++ [directive]) := by
  unfold process at h
  cases htail : checkTailCall operation st with
  | error e =>
      rw [htail] at h
      cases h
  | ok _ =>
      rw [htail] at h
      refine ⟨rfl, ?_⟩
      simp only at h
      split at h
      · rename_i modifier
        obtain ⟨rfl, hadd⟩ := Outcome.mk.inj h
        exact .inl ⟨modifier, rfl, rfl, hadd⟩
      · rename_i hmodify
        split at h
        · rename_i hadmits
          cases hexecute : execute cx pc operation st with
          | error e =>
              rw [hexecute] at h
              cases h
          | ok result =>
              rw [hexecute] at h
              cases h
              exact .inr ⟨hmodify, hadmits, result.2, rfl, rfl⟩
        · cases h

/-- An instruction is visited: control arrives, and then the instruction does its work, unless it
is a remark. -/
theorem visit_eq_ok {i : Instruction} (h : visit cx i st = ⟨directives, .ok st'⟩) :
    ∃ entered operation, enter cx i.offset st = .ok entered ∧ i.operation? = some operation ∧
      ((operation = .remark ∧ st' = entered ∧
          directives = enterDirectives cx i.offset entered) ∨
        operation ≠ .remark ∧ ∃ work, process cx i.offset operation entered = ⟨work, .ok st'⟩ ∧
          directives = enterDirectives cx i.offset entered ++ work) := by
  unfold visit at h
  cases henter : enter cx i.offset st with
  | error e =>
      rw [henter] at h
      cases h
  | ok entered =>
      rw [henter] at h
      simp only at h
      split at h
      · cases h
      · rename_i hremark
        cases h
        exact ⟨st', .remark, rfl, hremark, .inl ⟨rfl, rfl, rfl⟩⟩
      · rename_i operation hne hoperation
        obtain ⟨hdirectives, hresult⟩ := Outcome.mk.inj h
        refine ⟨entered, operation, rfl, hoperation, .inr ⟨hne, ?_⟩⟩
        refine ⟨(process cx i.offset operation entered).directives, ?_, hdirectives.symm⟩
        rw [← hresult]

/-- An instruction that is no remark comes to what its work comes to. -/
theorem visit_of_operation? {i : Instruction} {entered : EngineState}
    (henter : enter cx i.offset st = .ok entered) (hoperation : i.operation? = some operation)
    (hremark : operation ≠ .remark) :
    visit cx i st =
      let outcome := process cx i.offset operation entered
      ⟨enterDirectives cx i.offset entered ++ outcome.directives, outcome.result⟩ := by
  unfold visit
  rw [henter]
  simp only
  split
  · rename_i hnone
    rw [hnone] at hoperation
    cases hoperation
  · rename_i hsome
    rw [hsome] at hoperation
    cases hoperation
    exact absurd rfl hremark
  · rename_i operation' _ hsome
    rw [hsome] at hoperation
    cases hoperation
    rfl

theorem visit_of_process {i : Instruction} {entered : EngineState} {work : List Directive}
    (henter : enter cx i.offset st = .ok entered) (hoperation : i.operation? = some operation)
    (hremark : operation ≠ .remark) (h : process cx i.offset operation entered = ⟨work, .ok st'⟩) :
    visit cx i st = ⟨enterDirectives cx i.offset entered ++ work, .ok st'⟩ := by
  rw [visit_of_operation? henter hoperation hremark, h]

/-! ## Results as checks

Without the directives, each function is one check after the other. -/

theorem process_modify_result (modifier : Modifier) :
    (process cx pc (.modify modifier) st).result =
      checkTailCall (.modify modifier) st >>= fun _ => addModifier cx pc modifier st := by
  unfold process
  cases checkTailCall (.modify modifier) st <;> rfl

theorem process_result (hmodify : ∀ modifier, operation ≠ .modify modifier) :
    (process cx pc operation st).result = (do
      checkTailCall operation st
      require (operation.admits st.pending) (.type pc (some .modifier))
      let (st, _) ← execute cx pc operation st
      return st) := by
  unfold process require
  cases checkTailCall operation st with
  | error e => rfl
  | ok _ =>
      by_cases hadmits : operation.admits st.pending = true
      · simp only [hadmits, if_true]
        cases execute cx pc operation st <;> rfl
      · simp only [hadmits]
        rfl

theorem visit_result {i : Instruction} (h : i.operation? = some operation) :
    (visit cx i st).result = (do
      let st ← enter cx i.offset st
      if operation = .remark then return st else (process cx i.offset operation st).result) := by
  unfold visit
  cases enter cx i.offset st with
  | error e => rfl
  | ok entered =>
      rw [h]
      by_cases hremark : operation = .remark
      · subst hremark
        rfl
      · simp only
        exact (if_neg hremark).symm

end ManagedCode.Engine
