import ManagedCode.Proofs.Engine.Invariants

set_option autoImplicit false

/-! # The moments of a pass

`Engine.visits` records the instructions that are accepted. `Engine.moments` also records what
there is in between, and what is left when an instruction is rejected: the stack and the labels
before control arrives, once the label there was asked for, once control has arrived, once the
operation has had its effect, and each time that another target is told. An operation that fails
has only taken slots off a stack that is recorded already.

A property of slots that operations give to what they make, and that labels pass on when they
widen, holds at every moment (`Engine.moments_holds`).
-/

namespace ManagedCode

/-- The stack and the labels at some time in a pass. -/
structure Moment where
  slots : Slots
  labels : LabelStore

/-- `P` holds of the slots on the stack and of those in every snapshot. -/
def Moment.Holds (P : Slot → Prop) (m : Moment) : Prop :=
  (∀ slot ∈ m.slots, P slot) ∧ m.labels.Holds P

/-- The stack and the labels of a state. -/
def EngineState.moment (st : EngineState) : Moment := ⟨st.stack.slots, st.labels⟩

/-- Conversions make numbers. -/
theorem Instruction.isNumeric_of_convert {i : Instruction} {conversion : Conversion}
    (h : i.operation? = some (.convert conversion)) :
    conversion.target.kind.isNumeric = true := by
  obtain ⟨offset, opcode, size, operand⟩ := i
  cases opcode
  all_goals first
    | (cases h; done)
    | (cases h; rfl)
    | (cases operand <;> cases h)

namespace Engine

/-! ## Moments -/

section Moments

variable (cx : Context)

/-- The label is asked for where control arrives, with or without success. -/
def joining (pc : Nat) (st : EngineState) : List Moment :=
  if cx.mask.isTarget pc && st.pending.isEmpty then [⟨st.stack.slots, (consult cx pc st).2⟩]
  else []

/-- The targets are told one after the other, up to the first where the stack does not agree. -/
def telling (slots : Slots) : List Nat → LabelStore → List Moment
  | [], _ => []
  | target :: rest, labels =>
      match labels.observe cx.world target slots with
      | (.ok _, labels) => ⟨slots, labels⟩ :: telling slots rest labels
      | (.error _, labels) => [⟨slots, labels⟩]

/-- An operation is carried out, if it may be. -/
def executing (pc : Nat) (operation : Operation) (st : EngineState) : List Moment :=
  match checkTailCall operation st, (site cx pc st).perform operation st.stack with
  | .ok _, .ok effect =>
      if operation.admits st.pending then
        ⟨effect.stack.slots, st.labels⟩ ::
          telling cx effect.stack.slots effect.targets st.labels
      else []
  | _, _ => []

/-- Control has arrived at an instruction, which does its work. -/
def working (i : Instruction) (st : EngineState) : List Moment :=
  match enter cx i.offset st, i.operation? with
  | .error _, _ => []
  | .ok entered, none => [entered.moment]
  | .ok entered, some operation =>
      entered.moment :: executing cx i.offset operation entered

/-- The moments of a pass from a state on, to its end or to the instruction that is rejected. -/
def moments : List Instruction → EngineState → List Moment
  | [], st => [st.moment]
  | i :: rest, st =>
      st.moment :: joining cx i.offset st ++ working cx i st ++
        match (visit cx i st).result with
        | .ok left => moments rest left
        | .error _ => []

end Moments

variable {cx : Context} {st : EngineState}

theorem moment_mem_moments (instructions : List Instruction) :
    st.moment ∈ moments cx instructions st := by
  cases instructions with
  | nil => exact List.mem_singleton_self _
  | cons i rest => exact List.mem_append_left _ (List.mem_append_left _ List.mem_cons_self)

theorem entered_mem_working {i : Instruction} {entered : EngineState}
    (h : enter cx i.offset st = .ok entered) : entered.moment ∈ working cx i st := by
  unfold working
  rw [h]
  cases i.operation? with
  | none => exact List.mem_singleton_self _
  | some operation => exact List.mem_cons_self

/-- **Every visit starts and ends at a moment of the pass**, also if the pass is rejected later. -/
theorem mem_moments_of_visits {instructions : List Instruction} {v : Visit}
    (hv : v ∈ visits cx instructions st) :
    v.entered.moment ∈ moments cx instructions st ∧
      v.left.moment ∈ moments cx instructions st := by
  induction instructions generalizing st with
  | nil => cases hv
  | cons i rest ih =>
      cases hvisit : visit cx i st with
      | mk directives result =>
          cases result with
          | error e =>
              rw [visits_of_error hvisit] at hv
              cases hv
          | ok left =>
              obtain ⟨entered, _, henter, _⟩ := visit_eq_ok hvisit
              rw [visits_of_ok henter hvisit] at hv
              have hrest : ∀ m ∈ moments cx rest left, m ∈ moments cx (i :: rest) st := by
                intro m hm
                refine List.mem_append_right _ ?_
                rw [hvisit]
                exact hm
              rcases List.mem_cons.mp hv with rfl | hv
              · refine ⟨?_, hrest _ (moment_mem_moments rest)⟩
                exact List.mem_append_left _
                  (List.mem_append_right _ (entered_mem_working henter))
              · obtain ⟨hentered, hleft⟩ := ih hv
                exact ⟨hrest _ hentered, hrest _ hleft⟩

/-! ## What holds at every moment -/

section Holds

variable {P : Slot → Prop} {bound : Nat} (hP : Slot.Unifies cx.world P)
include hP

theorem Holds.joining (hst : Holds P bound st) (pc : Nat) : ∀ m ∈ joining cx pc st, m.Holds P := by
  unfold Engine.joining
  split
  · intro m hm
    rw [List.mem_singleton.mp hm, consult_eq_call]
    exact ⟨hst.stack.all,
      LabelStore.holds_call hP hst.coherent hst.labels (consulting_holds hst.stack.all)⟩
  · simp

theorem telling_holds {slots : Slots} (hslots : ∀ slot ∈ slots, P slot) {targets : List Nat}
    {labels : LabelStore} (hc : labels.Coherent) (hlabels : labels.Holds P) :
    ∀ m ∈ telling cx slots targets labels, m.Holds P := by
  induction targets generalizing labels with
  | nil => simp [telling]
  | cons target rest ih =>
      have hnext := LabelStore.holds_observe hlabels hP hc target hslots
      have hcnext := LabelStore.coherent_observe hc cx.world target slots
      unfold telling
      split
      · rename_i next hobserve
        rw [hobserve] at hnext hcnext
        exact List.forall_mem_cons.mpr ⟨⟨hslots, hnext⟩, ih hcnext hnext⟩
      · rename_i next hobserve
        rw [hobserve] at hnext
        exact List.forall_mem_cons.mpr ⟨⟨hslots, hnext⟩, by simp⟩

variable (hmade : MadeSlots cx.world P)
include hmade

theorem Holds.executing (hst : Holds P bound st) (pc : Nat) {operation : Operation}
    (hconvert : ∀ conversion, operation = .convert conversion →
      P (.numeric conversion.target.kind)) :
    ∀ m ∈ executing cx pc operation st, m.Holds P := by
  unfold Engine.executing
  split
  · rename_i effect _ heffect
    have hstack :=
      ((site cx pc st).perform_holds hmade hst.stack operation hconvert effect heffect).stack.all
    split
    · exact List.forall_mem_cons.mpr
        ⟨⟨hstack, hst.labels⟩, telling_holds hP hstack hst.coherent hst.labels⟩
    · simp
  · simp

theorem Holds.working (hst : Holds P bound st) (i : Instruction) :
    ∀ m ∈ working cx i st, m.Holds P := by
  unfold Engine.working
  split
  · simp
  · rename_i entered henter _
    have hentered := hst.enter hP henter
    exact List.forall_mem_cons.mpr ⟨⟨hentered.stack.all, hentered.labels⟩, by simp⟩
  · rename_i entered operation henter hoperation
    have hentered := hst.enter hP henter
    refine List.forall_mem_cons.mpr ⟨⟨hentered.stack.all, hentered.labels⟩, ?_⟩
    refine hentered.executing hP hmade i.offset ?_
    rintro conversion rfl
    exact hmade.numeric _ (Instruction.isNumeric_of_convert hoperation)

theorem Holds.visit (hst : Holds P bound st) {i : Instruction} {directives : List Directive}
    {left : EngineState} (h : visit cx i st = ⟨directives, .ok left⟩) : Holds P bound left := by
  obtain ⟨entered, operation, henter, hoperation, hwork⟩ := visit_eq_ok h
  have hentered := hst.enter hP henter
  rcases hwork with ⟨_, rfl, _⟩ | ⟨_, work, hprocess, _⟩
  · exact hentered
  · refine hentered.process hP hmade ?_ hprocess
    rintro conversion rfl
    exact hmade.numeric _ (Instruction.isNumeric_of_convert hoperation)

/-- **What holds of made slots and passes to labels holds at every moment**, whether the pass
accepts or not. -/
theorem moments_holds {instructions : List Instruction} (hst : Holds P bound st) :
    ∀ m ∈ moments cx instructions st, m.Holds P := by
  induction instructions generalizing st with
  | nil => exact List.forall_mem_cons.mpr ⟨⟨hst.stack.all, hst.labels⟩, by simp⟩
  | cons i rest ih =>
      unfold moments
      refine List.forall_mem_append.mpr ⟨List.forall_mem_append.mpr ⟨?_, ?_⟩, ?_⟩
      · exact List.forall_mem_cons.mpr ⟨⟨hst.stack.all, hst.labels⟩, hst.joining hP i.offset⟩
      · exact hst.working hP hmade i
      · cases hvisit : Engine.visit cx i st with
        | mk directives result =>
            cases result with
            | error e => simp
            | ok left => exact ih (hst.visit hP hmade hvisit)

end Holds

end Engine

end ManagedCode
