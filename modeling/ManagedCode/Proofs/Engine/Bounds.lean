import ManagedCode.Proofs.Effect.Counts
import ManagedCode.Proofs.Engine.Steps
import ManagedCode.Proofs.Labels.Bounds

set_option autoImplicit false

/-! # A pass under other bounds

Two bounds are set to a pass: on the height of the stack, by the method, and on the number of
labels, by the options. `visitAll_bounded` says that they do nothing but end a pass: one that
accepts goes the same way under all bounds that have room for what it ends up with, the greatest
height of the stack and the number of labels.

Both figures only ever grow (`EngineState.Grown`), so bounds with room for the last state have room
for every state on the way. That carries the step lemmas over to the run.
-/

namespace ManagedCode

/-! ## States and bounds -/

namespace Stack

/-- The greatest height is the same or more, and no more than there was room for. -/
structure Grown (s t : Stack) : Prop where
  bound_eq : t.bound = s.bound
  highWater_mono : s.highWater ≤ t.highWater
  highWater_le : t.highWater ≤ max s.highWater s.bound

variable {s t r : Stack}

theorem Grown.refl (s : Stack) : s.Grown s := ⟨rfl, Nat.le_refl _, Nat.le_max_left _ _⟩

theorem Grown.trans (hst : s.Grown t) (htr : t.Grown r) : s.Grown r := by
  have hle := htr.highWater_le
  have hmono := Nat.le_trans hst.highWater_mono htr.highWater_mono
  rw [hst.bound_eq] at hle
  exact ⟨htr.bound_eq.trans hst.bound_eq, hmono,
    Nat.le_trans hle (Nat.max_le.mpr ⟨hst.highWater_le, Nat.le_max_right _ _⟩)⟩

theorem Exchanged.grown {taken made : Nat} (h : Exchanged taken made s t) : s.Grown t := by
  have hle := h.highWater_le
  rw [h.bound_eq] at hle
  exact ⟨h.bound_eq, h.highWater_mono, hle⟩

/-- Slots are loaded under every bound that has room for them. -/
theorem load_bounded {slots : Slots} (h : s.load slots = .ok t) :
    s.Grown t ∧ ∀ bound, t.highWater ≤ bound →
      (s.withBound bound).load slots = .ok (t.withBound bound) := by
  unfold load at h
  split at h
  · rename_i hroom
    cases h
    refine ⟨⟨rfl, Nat.le_max_left _ _, ?_⟩, fun bound hle => ?_⟩
    · exact Nat.max_le.mpr ⟨Nat.le_max_left _ _, Nat.le_trans hroom (Nat.le_max_right _ _)⟩
    · have hroom' : slots.length ≤ bound := Nat.le_trans (Nat.le_max_right _ _) hle
      exact if_pos hroom'
  · cases h

end Stack

/-- The same method with another bound on its stack. -/
def MethodBody.withHeight (body : MethodBody) (height : Nat) : MethodBody :=
  { body with maxStack := height }

/-- The same context for a method with another bound on its stack. -/
def Context.withHeight (cx : Context) (height : Nat) : Context :=
  { cx with body := cx.body.withHeight height }

namespace EngineState

/-- The same state under other bounds. -/
def withBounds (st : EngineState) (height labels : Nat) : EngineState :=
  { st with stack := st.stack.withBound height, labels := st.labels.withBound labels }

/-- The bounds have room for the greatest height so far and for the labels. -/
structure Fits (st : EngineState) (height labels : Nat) : Prop where
  highWater_le : st.stack.highWater ≤ height
  size_le : st.labels.size ≤ labels

/-- What the bounds are about has grown or stayed. -/
structure Grown (st st' : EngineState) : Prop where
  stack : st.stack.Grown st'.stack
  labels : st.labels.Grown st'.labels

variable {st st' st'' : EngineState}

theorem Grown.refl (st : EngineState) : st.Grown st := ⟨.refl _, .refl _⟩

theorem Grown.trans (h : st.Grown st') (h' : st'.Grown st'') : st.Grown st'' :=
  ⟨h.stack.trans h'.stack, h.labels.trans h'.labels⟩

theorem Grown.fits (h : st.Grown st') {height labels : Nat} (hfits : st'.Fits height labels) :
    st.Fits height labels :=
  ⟨Nat.le_trans h.stack.highWater_mono hfits.highWater_le,
    Nat.le_trans h.labels.size_mono hfits.size_le⟩

end EngineState

/-! ## One instruction -/

/-- No operation asks for the bound that the method sets. -/
theorem Site.perform_withHeight (site : Site) (height : Nat) (operation : Operation) :
    ({ site with body := site.body.withHeight height } : Site).perform operation =
      site.perform operation := by
  cases operation <;> rfl

namespace Engine

variable {cx : Context} {pc : Nat} {st st' : EngineState} {operation : Operation}
  {directives : List Directive}

theorem consult_bounded {id : Nat} {store : LabelStore} (h : consult cx pc st = (.ok id, store)) :
    st.labels.Grown store ∧ ∀ height labels, store.size ≤ labels →
      consult (cx.withHeight height) pc (st.withBounds height labels) =
        (.ok id, store.withBound labels) := by
  unfold consult at h ⊢
  split at h
  · rename_i hafter
    obtain ⟨hgrown, hsame⟩ := LabelStore.reload_bounded pc id store h
    refine ⟨hgrown, fun height labels hle => ?_⟩
    exact (if_pos hafter).trans (hsame labels hle)
  · rename_i hafter
    obtain ⟨hgrown, hsame⟩ := LabelStore.observe_bounded cx.world pc st.stack.slots id store h
    refine ⟨hgrown, fun height labels hle => ?_⟩
    exact (if_neg hafter).trans (hsame labels hle)

theorem join_bounded (h : join cx pc st = .ok st') :
    st.Grown st' ∧ ∀ height labels, st'.Fits height labels →
      join (cx.withHeight height) pc (st.withBounds height labels) =
        .ok (st'.withBounds height labels) := by
  obtain ⟨hpending, id, store, stack, hconsult, hload, rfl⟩ := join_eq_ok h
  obtain ⟨hstack, hload'⟩ := Stack.load_bounded hload
  obtain ⟨hlabels, hconsult'⟩ := consult_bounded hconsult
  refine ⟨⟨hstack, hlabels.trans (LabelStore.grown_modify _ _ _)⟩, fun height labels hfits => ?_⟩
  -- Marking the label as visited leaves the number of labels as it is.
  have hsize : store.size ≤ labels := by
    rw [← store.size_modify]
    exact hfits.size_le
  have hload'' : (st.withBounds height labels).stack.load ((store.withBound labels).snapshot id) =
      .ok (stack.withBound height) := hload' height hfits.highWater_le
  have hpending' : (st.withBounds height labels).pending.isEmpty = true := hpending
  exact join_of_consult hpending' (hconsult' height labels hsize) hload''

theorem enter_bounded (h : enter cx pc st = .ok st') :
    st.Grown st' ∧ ∀ height labels, st'.Fits height labels →
      enter (cx.withHeight height) pc (st.withBounds height labels) =
        .ok (st'.withBounds height labels) := by
  rcases enter_eq_ok h with ⟨htarget, hjoin⟩ | ⟨htarget, rfl, _⟩
  · obtain ⟨hgrown, hsame⟩ := join_bounded hjoin
    refine ⟨hgrown, fun height labels hfits => ?_⟩
    have htarget' : (cx.withHeight height).mask.isTarget pc = true := htarget
    unfold enter
    rw [if_pos htarget']
    exact hsame height labels hfits
  · refine ⟨.refl _, fun height labels _ => ?_⟩
    have hnot : ¬ cx.mask.isTarget pc = true := by
      rw [htarget]
      exact Bool.false_ne_true
    have hnot' : ¬ (cx.withHeight height).mask.isTarget pc = true := hnot
    unfold enter at h ⊢
    rw [if_neg hnot] at h
    rw [if_neg hnot']
    obtain ⟨_, hempty, _⟩ := bind_eq_ok h
    exact bind_of_ok hempty rfl

theorem arrive_bounded {slots : Slots} {targets : List Nat} {store store' : LabelStore}
    (h : arrive cx slots targets store = .ok store') :
    store.Grown store' ∧ ∀ height labels, store'.size ≤ labels →
      arrive (cx.withHeight height) slots targets (store.withBound labels) =
        .ok (store'.withBound labels) := by
  induction targets generalizing store with
  | nil =>
      cases h
      exact ⟨.refl _, fun _ _ _ => rfl⟩
  | cons target rest ih =>
      unfold arrive at h ⊢
      cases hobserve : store.observe cx.world target slots with
      | mk result next =>
          rw [hobserve] at h
          cases result with
          | error e => cases h
          | ok id =>
              obtain ⟨hgrown, hsame⟩ :=
                LabelStore.observe_bounded cx.world target slots id next hobserve
              obtain ⟨hgrown', hsame'⟩ := ih h
              refine ⟨hgrown.trans hgrown', fun height labels hle => ?_⟩
              have hnext : (store.withBound labels).observe (cx.withHeight height).world target
                  slots = (.ok id, next.withBound labels) :=
                hsame labels (Nat.le_trans hgrown'.size_mono hle)
              rw [hnext]
              exact hsame' height labels hle

theorem execute_bounded {directive : Directive}
    (h : execute cx pc operation st = .ok (st', directive)) :
    st.Grown st' ∧ ∀ height labels, st'.Fits height labels →
      execute (cx.withHeight height) pc operation (st.withBounds height labels) =
        .ok (st'.withBounds height labels, directive) := by
  unfold execute at h
  obtain ⟨effect, heffect, h⟩ := bind_eq_ok h
  obtain ⟨store, harrive, h⟩ := bind_eq_ok h
  cases h
  obtain ⟨hstack, hperform⟩ := Site.perform_exchanges operation effect (rejecting_eq_ok heffect)
  obtain ⟨hlabels, harrive'⟩ := arrive_bounded harrive
  refine ⟨⟨hstack.grown, hlabels⟩, fun height labels hfits => ?_⟩
  -- The site of the other pass differs in nothing that an operation asks for.
  have hperform' : (site (cx.withHeight height) pc (st.withBounds height labels)).perform operation
      (st.stack.withBound height) = .ok (effect.withBound height) := by
    rw [← hperform height hfits.highWater_le]
    exact congrFun (Site.perform_withHeight (site cx pc st) height operation) _
  have harrive'' : arrive (cx.withHeight height) (effect.withBound height).stack.slots
      (effect.withBound height).targets (st.withBounds height labels).labels =
        .ok (store.withBound labels) := harrive' height labels hfits.size_le
  unfold execute
  rw [show (st.withBounds height labels).stack = st.stack.withBound height from rfl, hperform']
  show arrive _ _ _ _ >>= _ = _
  rw [harrive'']
  rfl

theorem addModifier_bounded {modifier : Modifier} (h : addModifier cx pc modifier st = .ok st') :
    st.Grown st' ∧ ∀ height labels,
      addModifier (cx.withHeight height) pc modifier (st.withBounds height labels) =
        .ok (st'.withBounds height labels) := by
  cases modifier with
  | unaligned _ | constrained _ =>
      obtain ⟨_, hchecked, h⟩ := bind_eq_ok h
      obtain ⟨_, hconstraint, h⟩ := bind_eq_ok h
      obtain ⟨_, hnew, h⟩ := bind_eq_ok h
      cases h
      refine ⟨⟨.refl _, .refl _⟩, fun height labels => ?_⟩
      exact bind_of_ok hchecked (bind_of_ok hconstraint (bind_of_ok hnew rfl))
  | _ =>
      obtain ⟨_, hconstraint, h⟩ := bind_eq_ok h
      obtain ⟨_, hnew, h⟩ := bind_eq_ok h
      cases h
      refine ⟨⟨.refl _, .refl _⟩, fun height labels => ?_⟩
      exact bind_of_ok hconstraint (bind_of_ok hnew rfl)

theorem process_bounded (h : process cx pc operation st = ⟨directives, .ok st'⟩) :
    st.Grown st' ∧ ∀ height labels, st'.Fits height labels →
      process (cx.withHeight height) pc operation (st.withBounds height labels) =
        ⟨directives, .ok (st'.withBounds height labels)⟩ := by
  obtain ⟨htail, hwork⟩ := process_eq_ok h
  rcases hwork with ⟨modifier, rfl, rfl, hadd⟩ | ⟨hmodify, hadmits, directive, hexecute, rfl⟩
  · obtain ⟨hgrown, hsame⟩ := addModifier_bounded hadd
    refine ⟨hgrown, fun height labels _ => ?_⟩
    have htail' : checkTailCall (.modify modifier) (st.withBounds height labels) = .ok () := htail
    rw [process_modify modifier htail', hsame height labels]
  · obtain ⟨hgrown, hsame⟩ := execute_bounded hexecute
    refine ⟨hgrown, fun height labels hfits => ?_⟩
    have htail' : checkTailCall operation (st.withBounds height labels) = .ok () := htail
    exact process_execute htail' hmodify hadmits (hsame height labels hfits)

/-- **One instruction.** Under bounds that have room for the state it leaves behind, an instruction
is accepted in the same way and sends the same directives. -/
theorem visit_bounded {i : Instruction} (h : visit cx i st = ⟨directives, .ok st'⟩) :
    st.Grown st' ∧ ∀ height labels, st'.Fits height labels →
      visit (cx.withHeight height) i (st.withBounds height labels) =
        ⟨directives, .ok (st'.withBounds height labels)⟩ := by
  obtain ⟨entered, operation, henter, hoperation, hwork⟩ := visit_eq_ok h
  obtain ⟨hentered, henter'⟩ := enter_bounded henter
  rcases hwork with ⟨rfl, rfl, rfl⟩ | ⟨hremark, work, hprocess, rfl⟩
  · refine ⟨hentered, fun height labels hfits => ?_⟩
    unfold visit
    rw [henter' height labels hfits, hoperation]
    rfl
  · obtain ⟨hgrown, hprocess'⟩ := process_bounded hprocess
    refine ⟨hentered.trans hgrown, fun height labels hfits => ?_⟩
    have hvisit := visit_of_process (henter' height labels (hgrown.fits hfits)) hoperation hremark
      (hprocess' height labels hfits)
    exact hvisit

/-! ## The whole pass -/

/-- **The whole pass** goes the same way under all bounds that have room for its last state. -/
theorem visitAll_bounded {sent sent' : Array Directive} {instructions : List Instruction}
    (h : visitAll cx sent instructions st = ⟨sent', .ok st'⟩) :
    st.Grown st' ∧ ∀ height labels, st'.Fits height labels →
      visitAll (cx.withHeight height) sent instructions (st.withBounds height labels) =
        ⟨sent', .ok (st'.withBounds height labels)⟩ := by
  induction instructions generalizing sent st with
  | nil =>
      cases h
      exact ⟨.refl _, fun _ _ _ => rfl⟩
  | cons i rest ih =>
      unfold visitAll at h ⊢
      cases hvisit : visit cx i st with
      | mk directives result =>
          rw [hvisit] at h
          cases result with
          | error e => cases h
          | ok next =>
              obtain ⟨hgrown, hsame⟩ := visit_bounded hvisit
              obtain ⟨hgrown', hsame'⟩ := ih h
              refine ⟨hgrown.trans hgrown', fun height labels hfits => ?_⟩
              -- The figures only grow: where the last state fits, this one does.
              rw [hsame height labels (hgrown'.fits hfits)]
              exact hsame' height labels hfits

end Engine

end ManagedCode
