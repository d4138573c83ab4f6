import ManagedCode.Proofs.Engine.Visits
import ManagedCode.Proofs.Labels.History
import ManagedCode.Proofs.Labels.Lookup

set_option autoImplicit false

/-! # What the pass keeps

The pass changes labels by calls of the label store only, so what holds of every history of calls
holds of every pass. Two invariants come from this. In any universe labels stay coherent, slots stay
typed, and a frozen label keeps its snapshot (`kept_coherent`, `kept_typed`). In an orderly universe
snapshots only widen (`kept_sound`).

The second half says what a single visit means for the labels it touches: control goes on with the
snapshot of the label where it arrived (`enter_target`), and what it leaves behind fits the labels
it leads to (`fit_of_visited`).
-/

namespace ManagedCode

/-! ## Slots that operations make are typed -/

theorem Slot.typed_of_kind {slot : Slot} (h : slot.kind ≠ .object) : slot.Typed :=
  fun hkind => absurd hkind h

theorem Primitive.kind_ne_object (p : Primitive) : p.kind ≠ .object := by
  cases p <;> decide

theorem Universe.slot?_typed {u : Universe} {ty : Ty} {slot : Slot} (h : u.slot? ty = some slot) :
    slot.Typed := by
  cases ty with
  | primitive p =>
      cases p with
      | void => cases h
      | _ =>
          cases h
          exact Slot.typed_of_kind (by decide)
  | ref id | array element | null =>
      cases h
      exact Slot.typed_object rfl
  | value id =>
      simp only [Universe.slot?] at h
      split at h
      · rename_i p _
        cases h
        exact Slot.typed_of_kind p.kind_ne_object
      · cases h
        exact Slot.typed_of_kind (by simp [Slot.value])
  | byRef pointee | pointer pointee =>
      cases h
      exact Slot.typed_of_kind (by simp [Slot.managed, Slot.transient])

theorem madeSlots_typed (u : Universe) : MadeSlots u Slot.Typed where
  numeric kind h := by
    refine Slot.typed_of_kind ?_
    rintro rfl
    cases h
  ofType _ _ := Universe.slot?_typed
  object _ := Slot.typed_object
  managed _ := Slot.typed_of_kind (by simp [Slot.managed])
  transient _ := Slot.typed_of_kind (by simp [Slot.transient])
  typedRef := Slot.typed_of_kind (by decide)
  handle _ _ := Slot.typed_of_kind (by simp [Slot.value])

theorem LabelStore.holds_snapshot {P : Slot → Prop} {s : LabelStore} (hs : s.Holds P) (id : Nat) :
    ∀ slot ∈ s.snapshot id, P slot := by
  unfold snapshot
  cases hfind : s.labels.find? (·.id = id) with
  | none => simp
  | some l => exact hs l (Array.mem_of_find?_eq_some hfind)

namespace Engine

open LabelStore (Call Carries)

variable {cx : Context} {pc : Nat} {st st' : EngineState} {operation : Operation}
  {directives : List Directive}

/-! ## Labels change by calls -/

/-- How the label is asked for where control arrives. -/
def consulting (pc : Nat) (st : EngineState) : Call :=
  if st.afterTransfer then .reload pc else .observe pc st.stack.slots

theorem consult_eq_call (cx : Context) (pc : Nat) (st : EngineState) :
    consult cx pc st = st.labels.call cx.world (consulting pc st) := by
  unfold consult consulting
  split <;> rfl

theorem consulting_holds {P : Slot → Prop} (h : ∀ slot ∈ st.stack.slots, P slot) :
    (consulting pc st).Holds P := by
  unfold consulting
  split
  · trivial
  · exact h

theorem labels_of_consult {id : Nat} {labels : LabelStore}
    (h : consult cx pc st = (.ok id, labels)) :
    labels = (st.labels.call cx.world (consulting pc st)).2 := by
  rw [← consult_eq_call, h]

theorem enter_calls (h : enter cx pc st = .ok st') :
    ∃ calls : List Call, st'.labels = st.labels.after cx.world calls ∧
      ∀ P : Slot → Prop, (∀ slot ∈ st.stack.slots, P slot) → ∀ c ∈ calls, c.Holds P := by
  rcases enter_eq_ok h with ⟨_, hjoin⟩ | ⟨_, rfl, _⟩
  · obtain ⟨_, id, labels, stack, hconsult, _, rfl⟩ := join_eq_ok hjoin
    cases labels_of_consult hconsult
    refine ⟨[consulting pc st, .markVisited id], rfl, fun P hP => ?_⟩
    simpa [Call.Holds] using consulting_holds hP
  · exact ⟨[], rfl, by simp⟩

theorem arrive_calls {slots : Slots} {targets : List Nat} {labels labels' : LabelStore}
    (h : arrive cx slots targets labels = .ok labels') :
    labels' = labels.after cx.world (targets.map fun target => .observe target slots) := by
  induction targets generalizing labels with
  | nil =>
      cases h
      rfl
  | cons target rest ih =>
      obtain ⟨id, next, hobserve, h⟩ := arrive_cons_eq_ok h
      rw [ih h, ← show (labels.observe cx.world target slots).2 = next by rw [hobserve]]
      rfl

theorem process_calls (h : process cx pc operation st = ⟨directives, .ok st'⟩) :
    ∃ calls : List Call, st'.labels = st.labels.after cx.world calls ∧
      ∀ P : Slot → Prop, (∀ slot ∈ st'.stack.slots, P slot) → ∀ c ∈ calls, c.Holds P := by
  obtain ⟨_, ⟨modifier, _, _, hadd⟩ | ⟨_, _, directive, hexecute, _⟩⟩ := process_eq_ok h
  · exact ⟨[], (addModifier_eq_ok hadd).2.1, by simp⟩
  · obtain ⟨effect, labels, _, harrive, hstack, hlabels, _⟩ := execute_eq_ok hexecute
    refine ⟨effect.targets.map fun target => .observe target effect.stack.slots, ?_, ?_⟩
    · rw [hlabels, arrive_calls harrive]
    · intro P hP c hc
      obtain ⟨target, _, rfl⟩ := List.mem_map.mp hc
      rw [hstack] at hP
      exact hP

/-! ## The two invariants -/

/-- **In any universe labels stay coherent, and frozen snapshots stay as they are.** -/
theorem kept_coherent (cx : Context) :
    Kept cx (fun st => st.labels.Coherent) (Carries Label.Keeps) where
  refl s := LabelStore.carries_refl Label.Keeps.refl s
  trans hab hbc := hab.trans (fun _ _ _ => .trans) hbc
  enter hst h := by
    obtain ⟨calls, hlabels, _⟩ := enter_calls h
    rw [hlabels]
    exact ⟨LabelStore.coherent_after hst _ calls, LabelStore.keeps_after hst _ calls⟩
  process hst h := by
    obtain ⟨calls, hlabels, _⟩ := process_calls h
    rw [hlabels]
    exact ⟨LabelStore.coherent_after hst _ calls, LabelStore.keeps_after hst _ calls⟩

/-- The labels are coherent, the stack is within the bound, and `P` holds of the slots in both. -/
structure Holds (P : Slot → Prop) (bound : Nat) (st : EngineState) : Prop where
  coherent : st.labels.Coherent
  labels : st.labels.Holds P
  stack : st.stack.Holds P bound

section Holds

variable {P : Slot → Prop} {bound : Nat} (hP : Slot.Unifies cx.world P)
include hP

theorem Holds.after_calls (hst : Holds P bound st) {calls : List Call}
    (hlabels : st'.labels = st.labels.after cx.world calls) (hcalls : ∀ c ∈ calls, c.Holds P)
    (hstack : st'.stack.Holds P bound) : Holds P bound st' where
  coherent := hlabels ▸ LabelStore.coherent_after hst.coherent cx.world calls
  labels := hlabels ▸ LabelStore.holds_after hP hst.coherent hst.labels hcalls
  stack := hstack

theorem Holds.enter (hst : Holds P bound st) (h : enter cx pc st = .ok st') :
    Holds P bound st' := by
  obtain ⟨calls, hlabels, hcalls⟩ := enter_calls h
  refine hst.after_calls hP hlabels (hcalls P hst.stack.all) ?_
  rcases enter_eq_ok h with ⟨_, hjoin⟩ | ⟨_, rfl, _⟩
  · obtain ⟨_, id, labels, stack, hconsult, hload, rfl⟩ := join_eq_ok hjoin
    cases labels_of_consult hconsult
    have hcall : (consulting pc st).Holds P := consulting_holds hst.stack.all
    have hholds := LabelStore.holds_call hP hst.coherent hst.labels hcall
    exact hst.stack.load (LabelStore.holds_snapshot hholds id) stack hload
  · exact hst.stack

/-- An operation passes on what holds of the slots that it makes. -/
theorem Holds.process (hmade : MadeSlots cx.world P) (hst : Holds P bound st)
    (hconvert : ∀ conversion, operation = .convert conversion →
      P (.numeric conversion.target.kind))
    (h : process cx pc operation st = ⟨directives, .ok st'⟩) : Holds P bound st' := by
  have hstack : st'.stack.Holds P bound := by
    obtain ⟨_, ⟨modifier, _, _, hadd⟩ | ⟨_, _, directive, hexecute, _⟩⟩ := process_eq_ok h
    · rw [(addModifier_eq_ok hadd).1]
      exact hst.stack
    · obtain ⟨effect, labels, heffect, _, hstack, _, _⟩ := execute_eq_ok hexecute
      rw [hstack]
      exact ((site cx pc st).perform_holds hmade hst.stack operation hconvert effect heffect).stack
  obtain ⟨calls, hlabels, hcalls⟩ := process_calls h
  exact hst.after_calls hP hlabels (hcalls P hstack.all) hstack

end Holds

/-- The labels are coherent, and all slots are typed and within the bound. -/
def Sound (bound : Nat) (st : EngineState) : Prop := Holds Slot.Typed bound st

theorem Sound.enter {bound : Nat} (hst : Sound bound st) (h : enter cx pc st = .ok st') :
    Sound bound st' :=
  Holds.enter (Slot.unifies_typed _) hst h

theorem Sound.process {bound : Nat} (hst : Sound bound st)
    (h : process cx pc operation st = ⟨directives, .ok st'⟩) : Sound bound st' :=
  Holds.process (Slot.unifies_typed _) (madeSlots_typed _) hst
    (fun conversion _ => Slot.typed_of_kind conversion.target.kind_ne_object) h

/-- In any universe slots stay typed and within the bound. -/
theorem kept_typed (cx : Context) (bound : Nat) :
    Kept cx (Sound bound) (Carries Label.Keeps) where
  refl := (kept_coherent cx).refl
  trans := (kept_coherent cx).trans
  enter hst h := ⟨hst.enter h, ((kept_coherent cx).enter hst.coherent h).2⟩
  process hst h := ⟨hst.process h, ((kept_coherent cx).process hst.coherent h).2⟩

/-- **In an orderly universe slots stay typed and within the bound, and snapshots only widen.** -/
theorem kept_sound (cx : Context) (hu : cx.world.Orderly) (bound : Nat) :
    Kept cx (Sound bound) (Carries (Label.Evolves cx.world)) where
  refl s := LabelStore.carries_refl (Label.Evolves.refl cx.world) s
  trans hab hbc := hab.trans (fun _ _ _ => .trans hu) hbc
  enter hst h := by
    refine ⟨hst.enter h, ?_⟩
    obtain ⟨calls, hlabels, hcalls⟩ := enter_calls h
    rw [hlabels]
    exact LabelStore.evolves_after hu hst.coherent hst.labels (hcalls _ hst.stack.all)
  process hst h := by
    have hsound := hst.process h
    refine ⟨hsound, ?_⟩
    obtain ⟨calls, hlabels, hcalls⟩ := process_calls h
    rw [hlabels]
    exact LabelStore.evolves_after hu hst.coherent hst.labels (hcalls _ hsound.stack.all)

/-! ## Arrival at a label -/

theorem exists_of_consult (hst : st.labels.Coherent) {id : Nat} {labels : LabelStore}
    (h : consult cx pc st = (.ok id, labels)) : ∃ l ∈ labels.labels, l.id = id ∧ l.offset = pc := by
  unfold consult at h
  split at h
  · exact LabelStore.exists_of_reload hst h
  · exact LabelStore.exists_of_observe hst h

/-- **Control that arrives at a jump target goes on with the snapshot of the label there**, which
is frozen from then on. -/
theorem enter_target (hst : st.labels.Coherent) (h : enter cx pc st = .ok st')
    (htarget : cx.mask.isTarget pc = true) :
    st'.afterTransfer = false ∧ ∃ l ∈ st'.labels.labels,
      l.offset = pc ∧ l.visited = true ∧ l.snapshot = st'.stack.slots := by
  rcases enter_eq_ok h with ⟨_, hjoin⟩ | ⟨hno, _⟩
  · obtain ⟨_, id, labels, stack, hconsult, hload, rfl⟩ := join_eq_ok hjoin
    have hcoherent : labels.Coherent :=
      labels_of_consult hconsult ▸ LabelStore.coherent_call hst cx.world (consulting pc st)
    obtain ⟨l, hl, rfl, hoffset⟩ := exists_of_consult hst hconsult
    have hslots : stack.slots = l.snapshot := by
      rw [Stack.slots_of_load hload, hcoherent.snapshot_id hl]
    refine ⟨rfl, { l with visited := true }, ?_, hoffset, rfl, hslots.symm⟩
    exact LabelStore.mem_modify.mpr ⟨l, hl, if_pos rfl⟩
  · rw [htarget] at hno
    cases hno

/-- Control that falls through goes on with a stack that its own one fits. -/
theorem enter_fit {bound : Nat} (hst : Sound bound st) (h : enter cx pc st = .ok st')
    (hfall : st.afterTransfer = false) :
    Slots.Fit cx.world st.stack.slots st'.stack.slots ∧ st'.afterTransfer = false := by
  rcases enter_eq_ok h with ⟨_, hjoin⟩ | ⟨_, rfl, _⟩
  · obtain ⟨_, id, labels, stack, hconsult, hload, rfl⟩ := join_eq_ok hjoin
    have hobserve : st.labels.observe cx.world pc st.stack.slots = (.ok id, labels) := by
      simpa [consult, hfall] using hconsult
    have hcoherent : labels.Coherent := hst.coherent.of_observe hobserve
    obtain ⟨l, hl, rfl, _, hfit⟩ :=
      LabelStore.fit_of_observe hst.coherent hst.labels hst.stack.all hobserve
    refine ⟨?_, rfl⟩
    rw [Stack.slots_of_load hload, hcoherent.snapshot_id hl]
    exact hfit
  · exact ⟨.refl cx.world hst.stack.all, hfall⟩

/-! ## What an instruction leaves behind -/

/-- A stack that goes to some targets changes no label elsewhere, and none that it fits. -/
theorem arrive_label? {slots : Slots} {targets : List Nat} {labels labels' : LabelStore}
    (hc : labels.Coherent) (h : arrive cx slots targets labels = .ok labels') {offset : Nat}
    (hfit : offset ∈ targets →
      ∃ l, labels.label? offset = some l ∧ Slots.Fit cx.world slots l.snapshot) :
    labels'.label? offset = labels.label? offset := by
  induction targets generalizing labels with
  | nil =>
      cases h
      rfl
  | cons target rest ih =>
      obtain ⟨id, next, hobserve, h⟩ := arrive_cons_eq_ok h
      by_cases htarget : offset = target
      · subst htarget
        obtain ⟨l, hl, hfits⟩ := hfit List.mem_cons_self
        obtain ⟨hmem, rfl⟩ := hc.label?_eq_some_iff.mp hl
        rw [LabelStore.observe_of_fit hc hmem hfits] at hobserve
        cases hobserve
        exact ih hc h fun _ => ⟨l, hl, hfits⟩
      · obtain ⟨_, _, _, hlabel, _⟩ := hc.label?_observe hobserve
        have hsame : next.label? offset = labels.label? offset :=
          (hlabel offset).trans (if_neg htarget)
        rw [← hsame]
        refine ih (hc.of_observe hobserve) h fun hmem => ?_
        rw [hsame]
        exact hfit (List.mem_cons_of_mem target hmem)

/-- The stack fits the label at each of the targets, also once the others have been told. -/
theorem arrive_fit {slots : Slots} (hslots : Slots.Typed slots) {targets : List Nat}
    {labels labels' : LabelStore} (hc : labels.Coherent)
    (ht : labels.Holds Slot.Typed) (h : arrive cx slots targets labels = .ok labels') :
    ∀ target ∈ targets, ∃ l ∈ labels'.labels,
      l.offset = target ∧ Slots.Fit cx.world slots l.snapshot := by
  induction targets generalizing labels with
  | nil => simp
  | cons target rest ih =>
      obtain ⟨id, next, hobserve, h⟩ := arrive_cons_eq_ok h
      have hc' := hc.of_observe hobserve
      have ht' := ht.of_observe (Slot.unifies_typed _) hc hslots hobserve
      refine List.forall_mem_cons.mpr ⟨?_, ih hc' ht' h⟩
      obtain ⟨l, hl, _, hoffset, hfit⟩ := LabelStore.fit_of_observe hc ht hslots hobserve
      -- The target may be named again, but then the stack fits it already.
      have hfound : next.label? target = some l := hc'.label?_eq_some_iff.mpr ⟨hl, hoffset⟩
      have hlast : labels'.label? target = some l :=
        (arrive_label? hc' h fun _ => ⟨l, hfound, hfit⟩).trans hfound
      have hcoherent : labels'.Coherent :=
        arrive_calls h ▸ LabelStore.coherent_after hc' cx.world _
      exact ⟨l, (hcoherent.label?_eq_some_iff.mp hlast).1, hoffset, hfit⟩

/-- The work at an instruction tells its stack to the labels at its targets. -/
theorem process_arrives {bound : Nat} (hst : Sound bound st)
    (h : process cx pc operation st = ⟨directives, .ok st'⟩) :
    st'.afterTransfer = operation.isUnconditional ∧ Slots.Typed st'.stack.slots ∧
      ∃ targets : List Nat, operation.targets = targets.map (↑) ∧
        arrive cx st'.stack.slots targets st.labels = .ok st'.labels := by
  have htyped : Slots.Typed st'.stack.slots := (hst.process h).stack.all
  obtain ⟨_, ⟨modifier, rfl, _, hadd⟩ | ⟨_, _, directive, hexecute, _⟩⟩ := process_eq_ok h
  · obtain ⟨_, hlabels, hafter⟩ := addModifier_eq_ok hadd
    exact ⟨hafter, htyped, [], rfl, hlabels ▸ rfl⟩
  · obtain ⟨effect, labels, heffect, harrive, hstack, hlabels, hafter⟩ := execute_eq_ok hexecute
    have hperform := (site cx pc st).perform_holds (madeSlots_typed cx.world) hst.stack operation
      (fun conversion _ => Slot.typed_of_kind conversion.target.kind_ne_object) effect heffect
    refine ⟨hafter, htyped, effect.targets, hperform.targets_eq.symm, ?_⟩
    rw [hstack, hlabels]
    exact harrive

theorem process_fit {bound : Nat} (hst : Sound bound st)
    (h : process cx pc operation st = ⟨directives, .ok st'⟩) :
    st'.afterTransfer = operation.isUnconditional ∧
      ∀ target ∈ operation.targets, ∃ l ∈ st'.labels.labels,
        (l.offset : Int) = target ∧ Slots.Fit cx.world st'.stack.slots l.snapshot := by
  obtain ⟨hafter, htyped, targets, htargets, harrive⟩ := process_arrives hst h
  refine ⟨hafter, fun target htarget => ?_⟩
  rw [htargets] at htarget
  obtain ⟨offset, hoffset, rfl⟩ := List.mem_map.mp htarget
  obtain ⟨l, hl, hat, hfit⟩ := arrive_fit htyped hst.coherent hst.labels harrive offset hoffset
  exact ⟨l, hl, congrArg Int.ofNat hat, hfit⟩

/-- **What a visit leaves behind fits the labels it leads to**, and control falls through to the
next instruction unless this one is an unconditional transfer. -/
theorem fit_of_visited {bound : Nat} {v : Visit} (hv : Visited cx st v)
    (hentered : Sound bound v.entered) (hi : v.instruction.Decoded) :
    (v.entered.afterTransfer = false →
        v.left.afterTransfer = v.instruction.opcode.isUnconditional) ∧
      ∀ target ∈ v.instruction.targets, ∃ l ∈ v.left.labels.labels,
        (l.offset : Int) = target ∧ Slots.Fit cx.world v.exit l.snapshot := by
  obtain ⟨_, operation, hoperation, hwork⟩ := hv.work
  obtain ⟨hunconditional, htargets⟩ := hi.flow_of_operation? hoperation
  rw [← hunconditional, ← htargets]
  rcases hwork with ⟨rfl, hleft⟩ | ⟨work, hprocess⟩
  · rw [hleft]
    refine ⟨fun hfall => hfall, ?_⟩
    simp [Operation.targets]
  · obtain ⟨hafter, hfit⟩ := process_fit hentered hprocess
    exact ⟨fun _ => hafter, hfit⟩

end Engine

end ManagedCode
