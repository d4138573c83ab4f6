import ManagedCode.Proofs.Engine.Invariants
import ManagedCode.Proofs.Labels.Gathering
import Mathlib.Data.List.DropRight

set_option autoImplicit false

/-! # What arrives at an instruction

Control comes to an instruction by jumps from the instructions before it (`Engine.jumpsTo`), and
last by falling through from the one right before it, if it can (`Engine.fallThrough?`). Both are
read off the visits. Along a pass the label at an offset that was not visited yet records the jumps
so far, and the live stack is the one that falls through (`Engine.Gathered`); so an instruction
where control can jump to starts with what all arrivals before it join to (`Gathered.entry`).
-/

namespace ManagedCode

/-- Which instructions carry remarks can be seen from the opcode. -/
theorem Instruction.isRemark_of_operation? {i : Instruction} {operation : Operation}
    (h : i.operation? = some operation) : i.opcode.isRemark = decide (operation = .remark) := by
  apply of_operation? h
  cases i.opcode <;> first | rfl | exact fun _ _ => rfl

/-- The instruction carries a remark. -/
def Visit.isRemark (v : Visit) : Bool := v.instruction.opcode.isRemark

/-- The stack with which control falls through to the next instruction, if it does. -/
def EngineState.falling? (st : EngineState) : Option Slots :=
  if st.afterTransfer then none else some st.stack.slots

namespace Engine

variable {cx : Context} {mask : JumpMask} {bound offset : Nat} {visits : List Visit} {v : Visit}
  {st st' : EngineState}

/-! ## Arrivals among the visits -/

/-- The stacks with which visits jump to an offset, in the order of the visits. -/
def jumpsTo (offset : Nat) (visits : List Visit) : List Slots :=
  (visits.filter fun v => (offset : Int) ∈ v.instruction.targets).map (·.exit)

theorem jumpsTo_append (offset : Nat) (visits : List Visit) (v : Visit) :
    jumpsTo offset (visits ++ [v]) =
      jumpsTo offset visits ++ if (offset : Int) ∈ v.instruction.targets then [v.exit] else [] := by
  unfold jumpsTo
  rw [List.filter_append, List.map_append]
  split
  · rename_i h
    simp [h]
  · rename_i h
    simp [h]

/-- The stack with which control falls through to what comes behind the visits. The last instruction
that is no remark decides whether control can: it must be no unconditional transfer, or else control
can still jump to one of the remarks behind it. Where there is no such instruction, the method has
just started. -/
def fallThrough? (mask : JumpMask) (visits : List Visit) : Option Slots :=
  match (visits.rdropWhile Visit.isRemark).getLast? with
  | none => some []
  | some v =>
      if v.instruction.opcode.isUnconditional = false ∨
          ∃ r ∈ visits.rtakeWhile Visit.isRemark, mask.isTarget r.offset = true then
        visits.getLast?.map (·.exit)
      else none

theorem fallThrough?_of_remarks (mask : JumpMask) (h : ∀ v ∈ visits, v.isRemark = true) :
    fallThrough? mask visits = some [] := by
  unfold fallThrough?
  rw [List.rdropWhile_eq_nil_iff.mpr h]
  rfl

/-- What an instruction that is no remark does to falling through. -/
theorem fallThrough?_append (mask : JumpMask) (visits : List Visit) (hv : v.isRemark = false) :
    fallThrough? mask (visits ++ [v]) =
      if v.instruction.opcode.isUnconditional then none else some v.exit := by
  unfold fallThrough?
  rw [List.rdropWhile_concat_neg _ _ _ (by simp [hv]),
    List.rtakeWhile_concat_neg _ _ _ (by simp [hv])]
  cases hfalls : v.instruction.opcode.isUnconditional <;> simp [hfalls]

/-- What a remark does to falling through, once there was an instruction. -/
theorem fallThrough?_append_remark (mask : JumpMask) {visits : List Visit}
    (hvisits : ∃ w ∈ visits, w.isRemark = false) (hv : v.isRemark = true) :
    fallThrough? mask (visits ++ [v]) =
      if mask.isTarget v.offset = true ∨ (fallThrough? mask visits).isSome = true then some v.exit
      else none := by
  have hne : visits ≠ [] := by
    rintro rfl
    simp at hvisits
  have hlast : visits.rdropWhile Visit.isRemark ≠ [] := by
    intro hnil
    obtain ⟨w, hw, hremark⟩ := hvisits
    rw [List.rdropWhile_eq_nil_iff.mp hnil w hw] at hremark
    cases hremark
  unfold fallThrough?
  rw [List.rdropWhile_concat_pos _ _ _ hv, List.rtakeWhile_concat_pos _ _ _ hv,
    List.getLast?_eq_some_getLast hlast, List.getLast?_eq_some_getLast hne]
  simp only [List.mem_append, List.mem_singleton, or_and_right, exists_or, exists_eq_left]
  by_cases htarget : mask.isTarget v.offset = true
  · simp [htarget]
  · simp only [htarget]
    split <;> simp_all

/-! ## Remarks and other instructions -/

theorem Visited.left_eq_of_remark (h : Visited cx st v) (hv : v.isRemark = true) :
    v.left = v.entered := by
  obtain ⟨entered, operation, henter, hoperation, hwork⟩ := visit_eq_ok h.visit_eq
  have hremark : operation = .remark :=
    of_decide_eq_true ((Instruction.isRemark_of_operation? hoperation).symm.trans hv)
  rcases hwork with ⟨_, hleft, _⟩ | ⟨hne, _⟩
  · rw [hleft]
    exact Except.ok.inj (henter.symm.trans h.enter_eq)
  · exact absurd hremark hne

theorem Visited.exists_process (h : Visited cx st v) (hv : v.isRemark = false) :
    ∃ operation work, v.instruction.operation? = some operation ∧
      process cx v.offset operation v.entered = ⟨work, .ok v.left⟩ := by
  obtain ⟨_, operation, hoperation, ⟨hremark, _⟩ | ⟨work, hprocess⟩⟩ := h.work
  · have hne := (Instruction.isRemark_of_operation? hoperation).symm.trans hv
    exact absurd hremark (of_decide_eq_false hne)
  · exact ⟨operation, work, hoperation, hprocess⟩

/-! ## Falling through -/

theorem falling?_eq_some_iff {slots : Slots} :
    st.falling? = some slots ↔ st.afterTransfer = false ∧ st.stack.slots = slots := by
  unfold EngineState.falling?
  cases st.afterTransfer <;> simp

/-- **The live stack is the one that falls through**, one visit later. -/
theorem Visited.falling?_eq (hst : Sound bound st) (h : Visited cx st v)
    (hi : v.instruction.Decoded) (hfalling : st.falling? = fallThrough? cx.mask visits) :
    v.left.falling? = fallThrough? cx.mask (visits ++ [v]) := by
  cases hv : v.isRemark with
  | false =>
      obtain ⟨operation, work, hoperation, hprocess⟩ := h.exists_process hv
      rw [fallThrough?_append cx.mask visits hv, ← (hi.flow_of_operation? hoperation).1,
        ← (process_fit (hst.enter h.enter_eq) hprocess).1]
      rfl
  | true =>
      have hleft := h.left_eq_of_remark hv
      by_cases hremarks : ∀ w ∈ visits, w.isRemark = true
      · -- The method has just started, with an empty stack.
        rw [fallThrough?_of_remarks _ hremarks, falling?_eq_some_iff] at hfalling
        obtain ⟨hfalls, hempty⟩ := hfalling
        obtain ⟨hfit, hfall⟩ := enter_fit hst h.enter_eq hfalls
        have hentry : v.entered.stack.slots = [] := by
          rw [hempty] at hfit
          exact List.forall₂_nil_left_iff.mp hfit
        have hall : ∀ w ∈ visits ++ [v], w.isRemark = true := by
          simpa [or_imp, forall_and, hv] using hremarks
        rw [fallThrough?_of_remarks _ hall, hleft]
        exact falling?_eq_some_iff.mpr ⟨hfall, hentry⟩
      · have hothers : ∃ w ∈ visits, w.isRemark = false := by simpa using hremarks
        rw [fallThrough?_append_remark cx.mask hothers hv, ← hfalling]
        rcases enter_eq_ok h.enter_eq with ⟨htarget, _⟩ | ⟨htarget, hsame, _⟩
        · have hfall := (enter_target hst.coherent h.enter_eq htarget).1
          rw [if_pos (.inl htarget), hleft]
          exact falling?_eq_some_iff.mpr ⟨hfall, by rw [← hleft]; rfl⟩
        · have hexit : v.exit = st.stack.slots := by rw [Visit.exit, hleft, hsame]
          rw [hleft, hsame, hexit]
          unfold EngineState.falling?
          cases st.afterTransfer <;> simp [htarget]

/-! ## Jumps -/

/-- Control that arrives at an instruction changes no label elsewhere. -/
theorem enter_label? (hst : st.labels.Coherent) {pc : Nat} (h : enter cx pc st = .ok st')
    (hne : offset ≠ pc) : st'.labels.label? offset = st.labels.label? offset := by
  rcases enter_eq_ok h with ⟨_, hjoin⟩ | ⟨_, rfl, _⟩
  · obtain ⟨_, id, labels, stack, hconsult, _, rfl⟩ := join_eq_ok hjoin
    have hcoherent : labels.Coherent :=
      labels_of_consult hconsult ▸ LabelStore.coherent_call hst cx.world (consulting pc st)
    have hlabel : ∃ l, l.id = id ∧ l.offset = pc ∧
        ∀ o, labels.label? o = if o = pc then some l else st.labels.label? o := by
      unfold consult at hconsult
      split at hconsult
      · obtain ⟨l, hid, hoffset, hlabel, _⟩ := hst.label?_reload hconsult
        exact ⟨l, hid, hoffset, hlabel⟩
      · obtain ⟨l, hid, hoffset, hlabel, _⟩ := hst.label?_observe hconsult
        exact ⟨l, hid, hoffset, hlabel⟩
    obtain ⟨l, rfl, rfl, hlabel⟩ := hlabel
    have hfound : labels.label? l.offset = some l := (hlabel _).trans (if_pos rfl)
    show (labels.markVisited l.id).label? offset = st.labels.label? offset
    rw [hcoherent.label?_markVisited hfound, if_neg hne, hlabel, if_neg hne]
  · rfl

/-- The label at an offset gathers the stack if the offset is one of the targets, and once only,
however often it is named. -/
theorem arrive_gathers {slots : Slots} (hslots : Slots.Typed slots) {targets : List Nat}
    {labels labels' : LabelStore} (hc : labels.Coherent) (ht : labels.Holds Slot.Typed)
    {arrived : List Slots} (hgathers : labels.Gathers cx.world offset arrived)
    (h : arrive cx slots targets labels = .ok labels') :
    labels'.Gathers cx.world offset (arrived ++ if offset ∈ targets then [slots] else []) := by
  induction targets generalizing labels with
  | nil =>
      cases h
      simpa using hgathers
  | cons target rest ih =>
      obtain ⟨id, next, hobserve, hrest⟩ := arrive_cons_eq_ok h
      have hc' := hc.of_observe hobserve
      by_cases htarget : offset = target
      · subst htarget
        obtain ⟨l, hl, _, hoffset, hfit⟩ := LabelStore.fit_of_observe hc ht hslots hobserve
        have hfound : next.label? offset = some l := hc'.label?_eq_some_iff.mpr ⟨hl, hoffset⟩
        rw [if_pos List.mem_cons_self]
        exact (hgathers.observe hc hobserve).congr
          (arrive_label? hc' hrest fun _ => ⟨l, hfound, hfit⟩)
      · obtain ⟨_, _, _, hlabel, _⟩ := hc.label?_observe hobserve
        have hsame : next.label? offset = labels.label? offset :=
          (hlabel offset).trans (if_neg htarget)
        have ht' := ht.of_observe (Slot.unifies_typed _) hc hslots hobserve
        have hlater := ih hc' ht' (hgathers.congr hsame) hrest
        simpa [htarget] using hlater

theorem process_gathers {pc : Nat} {operation : Operation} {directives : List Directive}
    (hst : Sound bound st) {arrived : List Slots}
    (hgathers : st.labels.Gathers cx.world offset arrived)
    (h : process cx pc operation st = ⟨directives, .ok st'⟩) :
    st'.labels.Gathers cx.world offset
      (arrived ++ if (offset : Int) ∈ operation.targets then [st'.stack.slots] else []) := by
  obtain ⟨_, htyped, targets, htargets, harrive⟩ := process_arrives hst h
  have hmem : (offset : Int) ∈ operation.targets ↔ offset ∈ targets := by
    rw [htargets]
    exact List.mem_map_of_injective fun _ _ => Int.ofNat_inj.mp
  simp only [hmem]
  exact arrive_gathers htyped hst.coherent hst.labels hgathers harrive

/-- **The label at an offset gathers what visits elsewhere bring there.** -/
theorem Visited.gathers (hst : Sound bound st) (h : Visited cx st v)
    (hi : v.instruction.Decoded) (hne : v.offset ≠ offset)
    (hgathers : st.labels.Gathers cx.world offset (jumpsTo offset visits)) :
    v.left.labels.Gathers cx.world offset (jumpsTo offset (visits ++ [v])) := by
  have hentered := hgathers.congr (enter_label? hst.coherent h.enter_eq hne.symm)
  rw [jumpsTo_append]
  obtain ⟨_, operation, hoperation, hwork⟩ := h.work
  rw [← (hi.flow_of_operation? hoperation).2]
  rcases hwork with ⟨rfl, hleft⟩ | ⟨work, hprocess⟩
  · rw [hleft]
    simpa [Operation.targets] using hentered
  · exact process_gathers (hst.enter h.enter_eq) hentered hprocess

/-! ## Along a pass -/

/-- What the visits so far mean for an offset that was not visited yet. -/
structure Gathered (cx : Context) (bound offset : Nat) (visits : List Visit) (st : EngineState) :
    Prop where
  sound : Sound bound st
  gathers : st.labels.Gathers cx.world offset (jumpsTo offset visits)
  falling : st.falling? = fallThrough? cx.mask visits

theorem Gathered.visited (hst : Gathered cx bound offset visits st) (h : Visited cx st v)
    (hi : v.instruction.Decoded) (hne : v.offset ≠ offset) :
    Gathered cx bound offset (visits ++ [v]) v.left where
  sound := ((kept_typed cx bound).visited hst.sound h).2.1
  gathers := h.gathers hst.sound hi hne hst.gathers
  falling := h.falling?_eq hst.sound hi hst.falling

theorem Gathered.path {later : List Visit} (hst : Gathered cx bound offset visits st)
    (h : Path cx st later st') (hi : ∀ v ∈ later, v.instruction.Decoded)
    (hne : ∀ v ∈ later, v.offset ≠ offset) :
    Gathered cx bound offset (visits ++ later) st' := by
  induction later generalizing visits st with
  | nil =>
      cases h
      rw [List.append_nil]
      exact hst
  | cons v rest ih =>
      obtain ⟨hv, hrest⟩ := h
      obtain ⟨hdecoded, hi⟩ := List.forall_mem_cons.mp hi
      obtain ⟨hother, hne⟩ := List.forall_mem_cons.mp hne
      rw [List.append_cons]
      exact ih (hst.visited hv hdecoded hother) hrest hi hne

/-- **A jump target starts with what arrives there before it is visited.** -/
theorem Gathered.entry (hst : Gathered cx bound offset visits st)
    (htarget : cx.mask.isTarget offset = true) (h : enter cx offset st = .ok st') :
    Slots.joined? cx.world (jumpsTo offset visits ++ (fallThrough? cx.mask visits).toList) =
      some st'.stack.slots := by
  have hcoherent := hst.sound.coherent
  rcases enter_eq_ok h with ⟨_, hjoin⟩ | ⟨hno, _⟩
  · obtain ⟨_, id, labels, stack, hconsult, hload, rfl⟩ := join_eq_ok hjoin
    have hlabels : labels.Coherent :=
      labels_of_consult hconsult ▸ LabelStore.coherent_call hcoherent cx.world _
    have hslots : ∀ l, l.id = id → labels.label? offset = some l → stack.slots = l.snapshot := by
      rintro l rfl hfound
      rw [Stack.slots_of_load hload,
        hlabels.snapshot_id (hlabels.label?_eq_some_iff.mp hfound).1]
    rw [← hst.falling]
    unfold EngineState.falling?
    unfold consult at hconsult
    split at hconsult
    · rename_i hafter
      obtain ⟨l, hid, _, hlabel, hl⟩ := hcoherent.label?_reload hconsult
      rw [if_pos hafter, hslots l hid ((hlabel offset).trans (if_pos rfl))]
      rcases hl with ⟨hnone, hsnapshot⟩ | hfound
      · rw [hst.gathers.eq_nil hnone, hsnapshot]
        rfl
      · simpa using hst.gathers.joined?_eq hfound
    · rename_i hafter
      have hgathers := hst.gathers.observe hcoherent hconsult
      obtain ⟨l, hid, _, hlabel, _⟩ := hcoherent.label?_observe hconsult
      have hfound := (hlabel offset).trans (if_pos rfl)
      rw [if_neg hafter, hslots l hid hfound]
      exact hgathers.joined?_eq hfound
  · rw [htarget] at hno
    cases hno

end Engine

end ManagedCode
