import ManagedCode.Proofs.Effect.Reports
import ManagedCode.Proofs.Engine.Invariants

set_option autoImplicit false

/-! # What the pass can blame

When the pass starts, the code has been read and its jumps have been looked at. What is left to
blame is the use of the stack, types, and a missing end (`Rejection.OfPass`). What is blamed lies at
an instruction: at the one that is visited, at one that it leads to, or at a call before it that
must be returned from. `visit_fails` says so for one visit, `visitAll_fails` for a pass.

Both rest on what visits keep of the state (`Engine.Placed`): labels lie at marked targets only, and
the pass remembers offsets of instructions only.
-/

namespace ManagedCode

/-- What the pass can blame, where `At` holds of the offsets of instructions. The code itself and
the form of operands were looked at before, and whether labels were reached is looked at later. -/
def Rejection.OfPass (At : Nat → Prop) : Rejection → Prop
  | .stack offset _ => At offset
  | .type offset subject => subject ≠ some .operand ∧ At offset
  | .fallsOffEnd _ | .outOfMemory => True
  | .truncated _ | .invalidOpcode _ | .branchOutOfRange _ _ | .unresolvedLabel _ => False

variable {At : Nat → Prop}

/-! ## Labels -/

namespace LabelStore

theorem create_fails (s : LabelStore) (offset : Nat) (snapshot : Slots) (seeded : Bool) :
    Fails (s.create offset snapshot seeded).1 (Rejection.OfPass At) := by
  unfold create
  split
  · exact .ok
  · exact .error trivial

theorem reload_fails (s : LabelStore) (offset : Nat) :
    Fails (s.reload offset).1 (Rejection.OfPass At) := by
  unfold reload
  split
  · exact .ok
  · exact s.create_fails offset _ _

theorem observe_fails (s : LabelStore) (u : Universe) {offset : Nat} (h : At offset)
    (incoming : Slots) : Fails (s.observe u offset incoming).1 (Rejection.OfPass At) := by
  unfold observe
  split
  · exact s.create_fails offset _ _
  · split
    · simp only
      split
      · exact .ok
      · exact .error h
    · exact .error h

end LabelStore

namespace Engine

variable {cx : Context} {pc : Nat} {st st' : EngineState} {operation : Operation}
  {directives : List Directive}

/-! ## Arrival -/

theorem rejecting_fails {α : Type} {x : Except Fault α} {size : Nat} {targets : List Int}
    (hx : Blames size targets x) (h : At pc)
    (hinside : ∀ target ∈ targets, 0 ≤ target ∧ target < size) :
    Fails (rejecting pc x) (Rejection.OfPass At) := by
  cases x with
  | ok a => exact .ok
  | error fault =>
      have hproper := hx fault rfl
      refine .error ?_
      cases fault with
      | stack fault => exact h
      | type subject => exact ⟨hproper, h⟩
      | branch target => exact absurd (hinside target hproper.1) hproper.2

/-- A fault that is no matter of targets. -/
theorem rejecting_fails_nil {α : Type} {x : Except Fault α} (hx : Blames 0 [] x) (h : At pc) :
    Fails (rejecting pc x) (Rejection.OfPass At) :=
  rejecting_fails hx h (by simp)

theorem join_fails (h : At pc) : Fails (join cx pc st) (Rejection.OfPass At) := by
  have hconsult : Fails (consult cx pc st).1 (Rejection.OfPass At) := by
    unfold consult
    split
    · exact st.labels.reload_fails pc
    · exact st.labels.observe_fails cx.world h _
  refine .bind (.require ⟨by simp, h⟩) fun _ => .bind hconsult fun id => ?_
  exact .bind (rejecting_fails_nil (st.stack.load_blames _) h) fun _ => .ok

theorem enter_fails (h : At pc) : Fails (enter cx pc st) (Rejection.OfPass At) := by
  unfold enter
  split
  · exact join_fails h
  · exact .bind (.require h) fun _ => .ok

theorem arrive_fails {slots : Slots} {targets : List Nat} (h : ∀ target ∈ targets, At target)
    (labels : LabelStore) : Fails (arrive cx slots targets labels) (Rejection.OfPass At) := by
  induction targets generalizing labels with
  | nil => exact .ok
  | cons target rest ih =>
      obtain ⟨htarget, hrest⟩ := List.forall_mem_cons.mp h
      unfold arrive
      split
      · exact ih hrest _
      · rename_i e _ hobserve
        exact .error (labels.observe_fails cx.world htarget slots e (congrArg Prod.fst hobserve))

/-! ## States and instructions -/

/-- Labels can be told apart and lie at marked targets, the stack is within its bound, and the pass
remembers an instruction. -/
structure Placed (cx : Context) (At : Nat → Prop) (st : EngineState) : Prop where
  coherent : st.labels.Coherent
  within : st.labels.Within fun offset => cx.mask.isTarget offset = true
  stack : st.stack.Holds (fun _ => True) cx.body.maxStack
  tailCall : ∀ call, st.tailCall = some call → At call

/-- The targets are marked, and there are instructions. -/
def Leads (cx : Context) (At : Nat → Prop) (targets : List Int) : Prop :=
  ∀ target ∈ targets, ∃ offset : Nat, (offset : Int) = target ∧ offset < cx.mask.size ∧
    cx.mask.isTarget offset = true ∧ At offset

/-- The instruction was read, and its jumps have been looked at. -/
structure Scanned (cx : Context) (At : Nat → Prop) (i : Instruction) : Prop where
  decoded : i.Decoded
  isStart : At i.offset
  leads : Leads cx At i.targets

/-- An operation leads to its targets, within the bound of the stack. -/
theorem perform_placed (hst : Placed cx At st) (operation : Operation) :
    Gives ((site cx pc st).perform operation st.stack)
      (Effect.Holds (fun _ => True) cx.body.maxStack operation.targets) :=
  (site cx pc st).perform_holds (madeSlots_true _) hst.stack operation fun _ _ => trivial

theorem Leads.of_effect {effect : Effect} {bound : Nat} (h : Leads cx At operation.targets)
    (heffect : effect.Holds (fun _ => True) bound operation.targets) :
    ∀ target ∈ effect.targets, cx.mask.isTarget target = true ∧ At target := by
  intro target htarget
  have hmem : (target : Int) ∈ operation.targets := by
    rw [← heffect.targets_eq]
    exact List.mem_map_of_mem htarget
  obtain ⟨offset, heq, _, hmarked, hat⟩ := h target hmem
  have heq : offset = target := by omega
  exact heq ▸ ⟨hmarked, hat⟩

/-! ## Work -/

theorem execute_fails (hst : Placed cx At st) (h : At pc) (hleads : Leads cx At operation.targets) :
    Fails (execute cx pc operation st) (Rejection.OfPass At) := by
  have hinside : ∀ target ∈ operation.targets, 0 ≤ target ∧ target < cx.mask.size := by
    intro target htarget
    obtain ⟨offset, heq, hlt, _⟩ := hleads target htarget
    omega
  intro e he
  rcases bind_eq_error he with he | ⟨effect, heffect, he⟩
  · exact rejecting_fails (Site.perform_reports _ _ operation).blames h hinside e he
  · have heffect := perform_placed hst operation effect (rejecting_eq_ok heffect)
    have htargets : ∀ target ∈ effect.targets, At target :=
      fun target htarget => (hleads.of_effect heffect target htarget).2
    rcases bind_eq_error he with he | ⟨_, _, he⟩
    · exact arrive_fails htargets _ e he
    · cases he

theorem addModifier_fails (h : At pc) (modifier : Modifier) :
    Fails (addModifier cx pc modifier st) (Rejection.OfPass At) := by
  have hcheck : Fails (checkModifier cx pc st modifier) (Rejection.OfPass At) := by
    cases modifier with
    | unaligned alignment => exact .bind (.require ⟨by simp, h⟩) fun _ => .ok
    | constrained token =>
        exact .bind (rejecting_fails_nil ((site cx pc st).typeAt_blames token) h) fun _ => .ok
    | _ => exact .ok
  rw [addModifier_eq]
  exact .bind hcheck fun _ => .bind (.require ⟨by simp, h⟩) fun _ => .ok

theorem checkTailCall_fails (hst : Placed cx At st) (operation : Operation) :
    Fails (checkTailCall operation st) (Rejection.OfPass At) := by
  unfold checkTailCall
  split
  · rename_i call hcall
    exact .require ⟨by simp, hst.tailCall call hcall⟩
  · exact .ok

theorem process_fails (hst : Placed cx At st) (h : At pc)
    (hleads : Leads cx At operation.targets) :
    Fails (process cx pc operation st).result (Rejection.OfPass At) := by
  have htail := checkTailCall_fails hst operation
  by_cases hmodify : ∃ modifier, operation = .modify modifier
  · obtain ⟨modifier, rfl⟩ := hmodify
    rw [process_modify_result]
    exact .bind htail fun _ => addModifier_fails h modifier
  · rw [process_result fun modifier heq => hmodify ⟨modifier, heq⟩]
    refine .bind htail fun _ => .bind (.require ⟨by simp, h⟩) fun _ => ?_
    exact .bind (execute_fails hst h hleads) fun _ => .ok

/-! ## What visits keep -/

theorem enter_placed (hst : Placed cx At st) (h : enter cx pc st = .ok st') : Placed cx At st' := by
  have hcoherent := ((kept_coherent cx).enter hst.coherent h).1
  rcases enter_eq_ok h with ⟨htarget, hjoin⟩ | ⟨_, rfl, _⟩
  · obtain ⟨_, id, labels, stack, hconsult, hload, rfl⟩ := join_eq_ok hjoin
    have hwithin : labels.Within fun offset => cx.mask.isTarget offset = true := by
      have hlabels : (consult cx pc st).2 = labels := congrArg Prod.snd hconsult
      rw [← hlabels]
      unfold consult
      split
      · exact LabelStore.within_reload hst.within htarget
      · exact LabelStore.within_observe hst.within cx.world htarget _
    have hstack := hst.stack.load (fun _ _ => trivial) stack hload
    exact ⟨hcoherent, LabelStore.within_markVisited hwithin id, hstack, hst.tailCall⟩
  · exact hst

theorem arrive_within {P : Nat → Prop} {slots : Slots} {targets : List Nat}
    (h : ∀ target ∈ targets, P target) {labels labels' : LabelStore} (hlabels : labels.Within P)
    (harrive : arrive cx slots targets labels = .ok labels') : labels'.Within P := by
  induction targets generalizing labels with
  | nil =>
      cases harrive
      exact hlabels
  | cons target rest ih =>
      obtain ⟨htarget, hrest⟩ := List.forall_mem_cons.mp h
      have hnext := LabelStore.within_observe hlabels cx.world htarget slots
      obtain ⟨id, next, hobserve, harrive⟩ := arrive_cons_eq_ok harrive
      rw [hobserve] at hnext
      exact ih hrest hnext harrive

theorem process_placed (hst : Placed cx At st) (h : At pc)
    (hleads : Leads cx At operation.targets)
    (hprocess : process cx pc operation st = ⟨directives, .ok st'⟩) : Placed cx At st' := by
  have hcoherent := ((kept_coherent cx).process hst.coherent hprocess).1
  obtain ⟨_, ⟨modifier, _, _, hadd⟩ | ⟨_, _, directive, hexecute, _⟩⟩ := process_eq_ok hprocess
  · rw [addModifier_state hadd]
    refine ⟨hst.coherent, hst.within, hst.stack, fun call hcall => ?_⟩
    cases hcall
  · obtain ⟨effect, labels, heffect, harrive, _, rfl⟩ := execute_state hexecute
    have heffect := perform_placed hst operation effect heffect
    have hmarked : ∀ target ∈ effect.targets, cx.mask.isTarget target = true :=
      fun target htarget => (hleads.of_effect heffect target htarget).1
    have hwithin := arrive_within hmarked hst.within harrive
    refine ⟨hcoherent, hwithin, heffect.stack, fun call hcall => ?_⟩
    -- Only a call at this instruction can be remembered.
    simp only at hcall
    split at hcall
    · cases hcall
      exact h
    · cases hcall

/-- A visit that is accepted keeps labels and offsets where they belong. -/
theorem visited_placed {v : Visit} (hst : Placed cx At st) (hi : Scanned cx At v.instruction)
    (h : Visited cx st v) : Placed cx At v.left := by
  have hentered := enter_placed hst h.enter_eq
  obtain ⟨_, operation, hoperation, hwork⟩ := h.work
  rcases hwork with ⟨_, hleft⟩ | ⟨work, hprocess⟩
  · rw [hleft]
    exact hentered
  · have hleads : Leads cx At operation.targets := by
      rw [(hi.decoded.flow_of_operation? hoperation).2]
      exact hi.leads
    exact process_placed hentered hi.isStart hleads hprocess

/-- **What a visit blames lies at an instruction.** -/
theorem visit_fails {i : Instruction} (hst : Placed cx At st) (hi : Scanned cx At i) :
    Fails (visit cx i st).result (Rejection.OfPass At) := by
  have henter : Fails (enter cx i.offset st) (Rejection.OfPass At) := enter_fails hi.isStart
  obtain ⟨operation, hoperation⟩ := hi.decoded.exists_operation
  have hleads : Leads cx At operation.targets := by
    rw [(hi.decoded.flow_of_operation? hoperation).2]
    exact hi.leads
  rw [visit_result hoperation]
  intro e he
  rcases bind_eq_error he with he | ⟨entered, hentered, he⟩
  · exact henter e he
  · have hplaced := enter_placed hst hentered
    split at he
    · cases he
    · exact process_fails hplaced hi.isStart hleads e he

/-! ## A pass -/

theorem Path.placed {visits : List Visit} {final : EngineState} (hst : Placed cx At st)
    (hvisits : ∀ v ∈ visits, Scanned cx At v.instruction) (h : Path cx st visits final) :
    Placed cx At final := by
  induction visits generalizing st with
  | nil =>
      cases h
      exact hst
  | cons v rest ih =>
      obtain ⟨hv, hrest⟩ := h
      obtain ⟨hi, hothers⟩ := List.forall_mem_cons.mp hvisits
      exact ih (visited_placed hst hi hv) hothers hrest

/-- **What a pass blames lies at an instruction.** -/
theorem visitAll_fails {instructions : List Instruction} (hst : Placed cx At st)
    (hinstructions : ∀ i ∈ instructions, Scanned cx At i) (sent : Array Directive) :
    Fails (visitAll cx sent instructions st).result (Rejection.OfPass At) := by
  induction instructions generalizing st sent with
  | nil => exact .ok
  | cons i rest ih =>
      obtain ⟨hi, hrest⟩ := List.forall_mem_cons.mp hinstructions
      have hvisit := visit_fails hst hi
      unfold visitAll
      split
      · rename_i directives left heq
        obtain ⟨entered, _, henter, _⟩ := visit_eq_ok heq
        have hvisited : Visited cx st ⟨i, entered, left, directives⟩ := ⟨henter, heq⟩
        exact ih (visited_placed hst hi hvisited) hrest _
      · rename_i directives e heq
        exact .error (hvisit e (congrArg Outcome.result heq))

/-- What a whole pass over code that was read to its end can blame: also that the end is missing. -/
theorem run_fails {listing : Listing} {labels : LabelStore} (hfault : listing.fault = none)
    (hst : Placed cx At (start cx labels))
    (hinstructions : ∀ i ∈ listing.instructions, Scanned cx At i) :
    Fails (run cx listing labels).result (Rejection.OfPass At) := by
  refine .bind (visitAll_fails hst hinstructions #[]) fun final => ?_
  rw [hfault]
  refine .bind ?_ fun _ => .ok
  unfold checkEnd
  split
  · exact .error trivial
  · exact .require trivial

/-- At the end of a pass, every marked instruction has a label that was visited. -/
theorem Path.exists_visited {visits : List Visit} {final : EngineState}
    (hst : st.labels.Coherent) (h : Path cx st visits final) {v : Visit} (hv : v ∈ visits)
    (htarget : cx.mask.isTarget v.offset = true) :
    ∃ l ∈ final.labels.labels, l.offset = v.offset ∧ l.visited = true := by
  have hkept := kept_coherent cx
  obtain ⟨before, hvisited, hbefore, _⟩ := hkept.exists_before hst h v hv
  obtain ⟨_, l, hl, hoffset, hreached, _⟩ := enter_target hbefore hvisited.enter_eq htarget
  obtain ⟨l', hl', hkeeps⟩ := hkept.to_final hst h v hv l hl
  exact ⟨l', hl', hkeeps.offset_eq.trans hoffset, hkeeps.visited_of_visited hreached⟩

end Engine

end ManagedCode
