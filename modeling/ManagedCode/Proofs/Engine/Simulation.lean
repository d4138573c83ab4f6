import ManagedCode.Proofs.Effect.Slots
import ManagedCode.Proofs.Engine.Steps
import Mathlib.Data.List.Forall2

set_option autoImplicit false

/-! # Passes that go hand in hand

Two passes are compared step by step. A `Correspondence` says what corresponds in them: offsets,
operations, directives, stores of labels, and labels by their numbers. It is a simulation
(`Correspondence.Simulates`) if corresponding stores answer alike when the pass reloads, observes
and marks a label, and corresponding operations have corresponding effects.

Each function of the pass then leaves corresponding states behind or fails in both passes. So the
whole passes tell the backend what corresponds and end in corresponding states, or both fail
(`Engine.run_corresponds`). What they fail with is not compared.
-/

namespace ManagedCode

/-- The pass asks the same of both operations, but for their effects. -/
structure Operation.Alike (operation operation' : Operation) : Prop where
  isUnconditional_eq : operation.isUnconditional = operation'.isUnconditional
  admits_eq : operation.admits = operation'.admits
  eq_ret_iff : operation = .ret ↔ operation' = .ret
  eq_remark_iff : operation = .remark ↔ operation' = .remark
  eq_modify_iff : ∀ modifier, operation = .modify modifier ↔ operation' = .modify modifier

theorem Operation.Alike.refl (operation : Operation) : operation.Alike operation :=
  ⟨rfl, rfl, .rfl, .rfl, fun _ => .rfl⟩

namespace Engine

/-- What corresponds in two passes. -/
structure Correspondence where
  offset : Nat → Nat → Prop
  operation : Operation → Operation → Prop
  directive : Directive → Directive → Prop
  labels : LabelStore → LabelStore → Prop
  /-- The labels that have these numbers in two stores. -/
  label : LabelStore → LabelStore → Nat → Nat → Prop

namespace Correspondence

variable (c : Correspondence)

/-- Two answers to control that arrives: the number of a label, and the store afterwards. -/
structure Answers (answer answer' : Except Rejection Nat × LabelStore) : Prop where
  label : Agree (c.label answer.2 answer'.2) answer.1 answer'.1
  labels : c.labels answer.2 answer'.2

/-- Two instructions. They correspond also if neither stands for an operation. -/
structure Instructions (i i' : Instruction) : Prop where
  offset : c.offset i.offset i'.offset
  operation? : Option.Rel c.operation i.operation? i'.operation?

structure Effects (effect effect' : Effect) : Prop where
  stack_eq : effect.stack = effect'.stack
  targets : List.Forall₂ c.offset effect.targets effect'.targets
  directive : c.directive effect.directive effect'.directive

/-- Two states between instructions. Their stack is the same, and within `bound`. -/
structure States (bound : Nat) (st st' : EngineState) : Prop where
  stack_eq : st.stack = st'.stack
  stack : st.stack.Holds (fun _ => True) bound
  labels : c.labels st.labels st'.labels
  pending_eq : st.pending = st'.pending
  constraint_eq : st.constraint = st'.constraint
  tailCall : Option.Rel c.offset st.tailCall st'.tailCall
  afterTransfer_eq : st.afterTransfer = st'.afterTransfer
  last : Option.Rel c.offset st.last st'.last

structure Outcomes (bound : Nat) (outcome outcome' : Outcome) : Prop where
  directives : List.Forall₂ c.directive outcome.directives outcome'.directives
  result : Agree (c.States bound) outcome.result outcome'.result

structure Passes (bound : Nat) (pass pass' : Pass) : Prop where
  directives : List.Forall₂ c.directive pass.directives.toList pass'.directives.toList
  result : Agree (c.States bound) pass.result pass'.result

/-- What corresponds is kept by all that the pass leaves to labels and operations. -/
structure Simulates (cx cx' : Context) : Prop where
  world_eq : cx.world = cx'.world
  maxStack_eq : cx.body.maxStack = cx'.body.maxStack
  isTarget_eq : ∀ {o o'}, c.offset o o' → cx.mask.isTarget o = cx'.mask.isTarget o'
  -- Labels.
  reload : ∀ {s s' o o'}, c.labels s s' → c.offset o o' → c.Answers (s.reload o) (s'.reload o')
  observe : ∀ {s s' o o'}, c.labels s s' → c.offset o o' → ∀ incoming,
    c.Answers (s.observe cx.world o incoming) (s'.observe cx.world o' incoming)
  snapshot_eq : ∀ {s s' id id'}, c.labels s s' → c.label s s' id id' →
    s.snapshot id = s'.snapshot id'
  markVisited : ∀ {s s' id id'}, c.labels s s' → c.label s s' id id' →
    c.labels (s.markVisited id) (s'.markVisited id')
  -- Operations.
  alike : ∀ {operation operation'}, c.operation operation operation' → operation.Alike operation'
  perform : ∀ {pc pc' operation operation' bound st st'}, c.offset pc pc' →
    c.operation operation operation' → c.States bound st st' →
    Agree c.Effects ((site cx pc st).perform operation st.stack)
      ((site cx' pc' st').perform operation' st'.stack)
  -- Directives that come from no operation.
  tellsLabel : ∀ {o o'}, c.offset o o' → c.directive (.label o) (.label o')
  tellsRefresh : ∀ slots, c.directive (.refresh slots) (.refresh slots)
  tellsModifiers : ∀ set constraint,
    c.directive (.modifiers set constraint) (.modifiers set constraint)

end Correspondence

open Correspondence

variable {c : Correspondence} {cx cx' : Context} (h : c.Simulates cx cx') {pc pc' : Nat}
  (hpc : c.offset pc pc') {bound : Nat} {st st' : EngineState} (hst : c.States bound st st')

/-! ## Arrival -/

section

include h hpc hst

theorem consult_corresponds : c.Answers (consult cx pc st) (consult cx' pc' st') := by
  unfold consult
  rw [← hst.afterTransfer_eq, ← hst.stack_eq, ← h.world_eq]
  split
  · exact h.reload hst.labels hpc
  · exact h.observe hst.labels hpc _

theorem join_corresponds : Agree (c.States bound) (join cx pc st) (join cx' pc' st') := by
  obtain ⟨hresult, hlabels⟩ := consult_corresponds h hpc hst
  have hpending : st.pending.isEmpty = st'.pending.isEmpty := by rw [hst.pending_eq]
  refine .bind (.require hpending _ _) fun _ _ _ => .bind hresult fun id id' hid => ?_
  have hload : Agree (fun s s' => s = s' ∧ s.Holds (fun _ => True) bound)
      (st.stack.load ((consult cx pc st).2.snapshot id))
      (st'.stack.load ((consult cx' pc' st').2.snapshot id')) := by
    rw [← hst.stack_eq, ← h.snapshot_eq hlabels hid]
    exact (Agree.refl _).gives (hst.stack.load fun _ _ => trivial)
  refine .bind (rejecting_agree hload pc pc') fun stack stack' hstack => .ok ?_
  exact ⟨hstack.1, hstack.2, h.markVisited hlabels hid, hst.pending_eq, hst.constraint_eq,
    hst.tailCall, rfl, hst.last⟩

/-- **Control arrives alike.** -/
theorem enter_corresponds : Agree (c.States bound) (enter cx pc st) (enter cx' pc' st') := by
  unfold enter
  rw [← h.isTarget_eq hpc]
  split
  · exact join_corresponds h hpc hst
  · have hempty : (!(st.afterTransfer && !st.stack.isEmpty)) =
        !(st'.afterTransfer && !st'.stack.isEmpty) := by
      rw [hst.afterTransfer_eq, hst.stack_eq]
    exact .bind (.require hempty _ _) fun _ _ _ => .ok hst

theorem enterDirectives_corresponds :
    List.Forall₂ c.directive (enterDirectives cx pc st) (enterDirectives cx' pc' st') := by
  unfold enterDirectives
  rw [← h.isTarget_eq hpc, ← hst.stack_eq]
  split
  · exact .cons (h.tellsLabel hpc) (.cons (h.tellsRefresh _) .nil)
  · exact .nil

end

/-! ## Work -/

section

include h hst

theorem announced_corresponds : List.Forall₂ c.directive (announced st) (announced st') := by
  unfold announced
  rw [← hst.pending_eq, ← hst.constraint_eq]
  split
  · exact .nil
  · exact .cons (h.tellsModifiers _ _) .nil

theorem checkModifier_corresponds (pc pc' : Nat) (modifier : Modifier) :
    Agree Eq (checkModifier cx pc st modifier) (checkModifier cx' pc' st' modifier) := by
  cases modifier with
  | unaligned alignment =>
      exact .bind (.require rfl _ _) fun _ _ _ => .ok hst.constraint_eq
  | constrained token =>
      have htype : Agree Eq ((site cx pc st).typeAt token) ((site cx' pc' st').typeAt token) := by
        simp only [Site.typeAt, site, h.world_eq]
        exact .refl _
      exact .bind (rejecting_agree htype pc pc') fun _ _ hty => .ok (congrArg some hty)
  | _ => exact .ok hst.constraint_eq

include hpc in
theorem addModifier_corresponds (modifier : Modifier) :
    Agree (c.States bound) (addModifier cx pc modifier st) (addModifier cx' pc' modifier st') := by
  have hcheck := checkModifier_corresponds h hst pc pc' modifier
  have hcontains : (!st.pending.contains modifier) = !st'.pending.contains modifier := by
    rw [hst.pending_eq]
  have hpending : st.pending.insert modifier = st'.pending.insert modifier := by
    rw [hst.pending_eq]
  rw [addModifier_eq, addModifier_eq]
  refine .bind hcheck fun _ _ hconstraint => .bind (.require hcontains _ _) fun _ _ _ => .ok ?_
  exact ⟨hst.stack_eq, hst.stack, hst.labels, hpending, hconstraint, .none, rfl, .some hpc⟩

theorem checkTailCall_corresponds {operation operation' : Operation}
    (ho : c.operation operation operation') :
    Agree (fun _ _ => True) (checkTailCall operation st) (checkTailCall operation' st') := by
  have hreturns : decide (operation = .ret) = decide (operation' = .ret) := by
    simp only [(h.alike ho).eq_ret_iff]
  have htail := hst.tailCall
  unfold checkTailCall
  generalize st.tailCall = call at htail ⊢
  generalize st'.tailCall = call' at htail ⊢
  cases htail with
  | none => exact .ok trivial
  | some _ => exact .require hreturns _ _

end

section

include h

theorem arrive_corresponds (slots : Slots) {targets targets' : List Nat}
    (ht : List.Forall₂ c.offset targets targets') {labels labels' : LabelStore}
    (hl : c.labels labels labels') :
    Agree c.labels (arrive cx slots targets labels) (arrive cx' slots targets' labels') := by
  induction ht generalizing labels labels' with
  | nil => exact .ok hl
  | @cons target target' rest rest' htarget _ ih =>
      obtain ⟨hresult, hnext⟩ := h.observe hl htarget slots
      unfold arrive
      rw [← h.world_eq]
      rcases hobserve : labels.observe cx.world target slots with ⟨result, next⟩
      rcases hobserve' : labels'.observe cx.world target' slots with ⟨result', next'⟩
      rw [hobserve, hobserve'] at hresult hnext
      cases hresult with
      | ok _ => exact ih hnext
      | error e e' => exact .error e e'

include hpc hst

theorem execute_corresponds {operation operation' : Operation}
    (ho : c.operation operation operation') :
    Agree (fun a a' => c.States bound a.1 a'.1 ∧ c.directive a.2 a'.2)
      (execute cx pc operation st) (execute cx' pc' operation' st') := by
  have hholds := (site cx pc st).perform_holds (madeSlots_true _) hst.stack operation
    fun _ _ => trivial
  have hwork := (h.perform hpc ho hst).gives hholds
  unfold execute
  refine .bind (rejecting_agree hwork pc pc') fun effect effect' heffect => ?_
  obtain ⟨heffect, hholds⟩ := heffect
  -- The stack is the same on both sides, and goes where the labels correspond.
  rw [← heffect.stack_eq]
  refine .bind (arrive_corresponds h _ heffect.targets hst.labels) fun labels labels' hlabels => ?_
  refine .ok ⟨⟨rfl, hholds.stack, hlabels, rfl, rfl, ?_, ?_, .some hpc⟩, heffect.directive⟩
  · rw [hst.pending_eq]
    split
    · exact .some hpc
    · exact .none
  · exact (h.alike ho).isUnconditional_eq

/-- **The instruction does its work alike.** -/
theorem process_corresponds {operation operation' : Operation}
    (ho : c.operation operation operation') :
    c.Outcomes bound (process cx pc operation st) (process cx' pc' operation' st') := by
  have halike := h.alike ho
  have htail := checkTailCall_corresponds h hst ho
  generalize hcheck : checkTailCall operation st = check at htail
  generalize hcheck' : checkTailCall operation' st' = check' at htail
  cases htail with
  | error e e' =>
      rw [process_of_error hcheck, process_of_error hcheck']
      exact ⟨.nil, .error e e'⟩
  | ok _ =>
      by_cases hmodify : ∃ modifier, operation = .modify modifier
      · obtain ⟨modifier, rfl⟩ := hmodify
        obtain rfl := (halike.eq_modify_iff modifier).mp rfl
        rw [process_modify modifier hcheck, process_modify modifier hcheck']
        exact ⟨.nil, addModifier_corresponds h hpc hst modifier⟩
      · have hmodify : ∀ modifier, operation ≠ .modify modifier :=
          fun modifier heq => hmodify ⟨modifier, heq⟩
        have hmodify' : ∀ modifier, operation' ≠ .modify modifier :=
          fun modifier heq => hmodify modifier ((halike.eq_modify_iff modifier).mpr heq)
        have hsame : operation.admits st.pending = operation'.admits st'.pending := by
          rw [hst.pending_eq, halike.admits_eq]
        by_cases hadmits : operation.admits st.pending = true
        · have hannounced := announced_corresponds h hst
          have hexecute := execute_corresponds h hpc hst ho
          rw [process_of_admits hcheck hmodify hadmits,
            process_of_admits hcheck' hmodify' (hsame ▸ hadmits)]
          generalize execute cx pc operation st = outcome at hexecute ⊢
          generalize execute cx' pc' operation' st' = outcome' at hexecute ⊢
          cases hexecute with
          | ok hleft => exact ⟨List.rel_append hannounced (.cons hleft.2 .nil), .ok hleft.1⟩
          | error e e' => exact ⟨hannounced, .error e e'⟩
        · rw [process_of_not_admits hcheck hmodify hadmits,
            process_of_not_admits hcheck' hmodify' (hsame ▸ hadmits)]
          exact ⟨.nil, .error _ _⟩

end

/-! ## The pass -/

section

include h

theorem visit_corresponds {i i' : Instruction} (hi : c.Instructions i i')
    (hst : c.States bound st st') : c.Outcomes bound (visit cx i st) (visit cx' i' st') := by
  have henter := enter_corresponds h hi.offset hst
  generalize harrival : enter cx i.offset st = arrival at henter
  generalize harrival' : enter cx' i'.offset st' = arrival' at henter
  cases henter with
  | error e e' =>
      unfold visit
      rw [harrival, harrival']
      exact ⟨.nil, .error e e'⟩
  | ok hentered =>
      have hdirectives := enterDirectives_corresponds h hi.offset hentered
      have hstands := hi.operation?
      generalize hoperation : i.operation? = found at hstands
      generalize hoperation' : i'.operation? = found' at hstands
      cases hstands with
      | none =>
          unfold visit
          rw [harrival, harrival', hoperation, hoperation']
          exact ⟨hdirectives, .error _ _⟩
      | @some operation operation' ho =>
          have hiff := (h.alike ho).eq_remark_iff
          by_cases hremark : operation = .remark
          · cases hremark
            cases hiff.mp rfl
            unfold visit
            rw [harrival, harrival', hoperation, hoperation']
            exact ⟨hdirectives, .ok hentered⟩
          · obtain ⟨hwork, hresult⟩ := process_corresponds h hi.offset hentered ho
            rw [visit_of_operation? harrival hoperation hremark,
              visit_of_operation? harrival' hoperation' (mt hiff.mpr hremark)]
            exact ⟨List.rel_append hdirectives hwork, hresult⟩

theorem visitAll_corresponds {instructions instructions' : List Instruction}
    (hi : List.Forall₂ c.Instructions instructions instructions') (hst : c.States bound st st')
    {sent sent' : Array Directive} (hsent : List.Forall₂ c.directive sent.toList sent'.toList) :
    c.Passes bound (visitAll cx sent instructions st) (visitAll cx' sent' instructions' st') := by
  induction hi generalizing st st' sent sent' with
  | nil => exact ⟨hsent, .ok hst⟩
  | @cons i i' rest rest' hi _ ih =>
      obtain ⟨hdirectives, hresult⟩ := visit_corresponds h hi hst
      unfold visitAll
      rcases hvisit : visit cx i st with ⟨directives, result⟩
      rcases hvisit' : visit cx' i' st' with ⟨directives', result'⟩
      rw [hvisit, hvisit'] at hdirectives hresult
      have hsent : List.Forall₂ c.directive (sent ++ directives.toArray).toList
          (sent' ++ directives'.toArray).toList := by
        rw [Array.toList_append, Array.toList_append]
        exact List.rel_append hsent hdirectives
      cases hresult with
      | ok hnext => exact ih hnext hsent
      | error e e' => exact ⟨hsent, .error e e'⟩

end

include hst in
theorem checkEnd_corresponds : Agree (fun _ _ => True) (checkEnd st) (checkEnd st') := by
  have hends : (st.afterTransfer && st.pending.isEmpty) =
      (st'.afterTransfer && st'.pending.isEmpty) := by
    rw [hst.afterTransfer_eq, hst.pending_eq]
  have hlast := hst.last
  unfold checkEnd
  generalize st.last = last at hlast ⊢
  generalize st'.last = last' at hlast ⊢
  cases hlast with
  | none => exact .error _ _
  | some _ => exact .require hends _ _

section

include h

theorem start_corresponds {labels labels' : LabelStore} (hl : c.labels labels labels') :
    c.States cx.body.maxStack (start cx labels) (start cx' labels') where
  stack_eq := by simp only [start, h.maxStack_eq]
  stack := ⟨rfl, Nat.zero_le _, fun _ _ => trivial⟩
  labels := hl
  pending_eq := rfl
  constraint_eq := rfl
  tailCall := .none
  afterTransfer_eq := rfl
  last := .none

/-- **The passes tell the backend what corresponds and end alike**, if they go over corresponding
instructions and both listings are whole or both are not. -/
theorem run_corresponds {listing listing' : Listing}
    (hi : List.Forall₂ c.Instructions listing.instructions listing'.instructions)
    (hfault : listing.fault.isSome = listing'.fault.isSome) {labels labels' : LabelStore}
    (hl : c.labels labels labels') :
    c.Passes cx.body.maxStack (run cx listing labels) (run cx' listing' labels') := by
  have hnone : List.Forall₂ c.directive #[].toList #[].toList := .nil
  obtain ⟨hdirectives, hresult⟩ := visitAll_corresponds h hi (start_corresponds h hl) hnone
  refine ⟨hdirectives, .bind hresult fun st st' hst => ?_⟩
  cases hleft : listing.fault with
  | none =>
      cases hright : listing'.fault with
      | none => exact .bind (checkEnd_corresponds hst) fun _ _ _ => .ok hst
      | some e' =>
          rw [hleft, hright] at hfault
          cases hfault
  | some e =>
      cases hright : listing'.fault with
      | none =>
          rw [hleft, hright] at hfault
          cases hfault
      | some e' => exact .error _ _

end

end Engine

end ManagedCode
