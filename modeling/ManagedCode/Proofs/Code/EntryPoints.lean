import ManagedCode.Proofs.Code.EntrySteps
import ManagedCode.Proofs.Labels.History

set_option autoImplicit false

/-! # What exception regions prepare

`Joins.Met j s` says that the demand `s` of a region is met in `j`. When all steps could be carried
out, all demands are met (`Joins.Records.met`). For a region this means that each of its blocks has
an entry point with the stack that belongs there (`Region.entries_of_met`).
-/

namespace ManagedCode

/-- What `Entry` says holds of the blocks of a region with the stacks that they start with: nothing
at the start of the try block and of a cleanup handler, the exception that was caught at the start
of a handler, and any exception at the start of a filter and of the handler behind it. -/
def Region.Entries (r : Region) (u : Universe) (Entry : Nat → Slots → Prop) : Prop :=
  Entry r.tryBlock.start [] ∧
    match r.kind with
    | .catchType token => ∃ ty, u.type? token = some ty ∧ Entry r.handler.start [.object ty]
    | .filter start =>
        Entry start [.object (.ref WellKnown.exception.id)] ∧
          Entry r.handler.start [.object (.ref WellKnown.exception.id)]
    | .finally | .fault => Entry r.handler.start []

theorem Region.Entries.imp {r : Region} {u : Universe} {E F : Nat → Slots → Prop}
    (hEF : ∀ offset slots, E offset slots → F offset slots) (h : r.Entries u E) :
    r.Entries u F := by
  obtain ⟨htry, hhandler⟩ := h
  refine ⟨hEF _ _ htry, ?_⟩
  cases hkind : r.kind with
  | catchType token =>
      simp only [hkind] at hhandler
      obtain ⟨ty, hty, hentry⟩ := hhandler
      exact ⟨ty, hty, hEF _ _ hentry⟩
  | filter start =>
      simp only [hkind] at hhandler
      exact ⟨hEF _ _ hhandler.1, hEF _ _ hhandler.2⟩
  | _ =>
      simp only [hkind] at hhandler
      exact hEF _ _ hhandler

namespace Joins

/-! ## Demands -/

/-- A label of an exception region. -/
def HasSeed (j : Joins) (offset : Nat) (snapshot : Slots) : Prop :=
  ∃ l ∈ j.labels.labels, l.offset = offset ∧ l.snapshot = snapshot ∧ l.seeded = true

/-- What a step asks for is there. -/
def Met (j : Joins) : EntryStep → Prop
  | .mark offset => offset < j.mask.targets.bound → j.mask.isTarget offset = true
  | .seed offset snapshot => j.HasSeed offset snapshot
  | .refuse _ => False

/-- Labels can be told apart, and all were made by exception regions. -/
structure Prepared (j : Joins) : Prop where
  coherent : j.labels.Coherent
  seeded : ∀ l ∈ j.labels.labels, l.seeded = true

theorem Records.prepared {mask : JumpMask} {bound : Nat} {steps : List EntryStep} {j : Joins}
    (hj : j.Records mask bound steps) : j.Prepared := ⟨hj.coherent, hj.seeded⟩

theorem Records.extends {mask : JumpMask} {bound : Nat} {steps : List EntryStep} {j : Joins}
    (hj : j.Records mask bound steps) : mask.Extends j.mask where
  size_eq := hj.size_eq
  bound_eq := hj.targets_bound
  isTarget offset h := (hj.isTarget_iff offset).mpr (.inl h)

/-- **When all steps are carried out, all demands are met.** -/
theorem Records.met {mask : JumpMask} {bound : Nat} {steps : List EntryStep} {j : Joins}
    (hj : j.Records mask bound steps) (hsteps : EntryStep.Feasible bound steps) :
    ∀ s ∈ steps, j.Met s := by
  intro s hs
  cases s with
  | mark offset =>
      intro hlt
      exact (hj.isTarget_iff offset).mpr (.inr ⟨hs, hj.targets_bound ▸ hlt⟩)
  | seed offset snapshot =>
      obtain ⟨l, hl, hoffset, hsnapshot⟩ := (hj.label_iff offset snapshot).mp hs
      exact ⟨l, hl, hoffset, hsnapshot, hj.seeded l hl⟩
  | refuse reason => exact hsteps.accepted reason hs

/-! ## Slots that steps bring in -/

theorem step_holds {P : Slot → Prop} {j : Joins} (hj : j.labels.Holds P) {s : EntryStep}
    (hs : ∀ offset snapshot, s = .seed offset snapshot → ∀ slot ∈ snapshot, P slot) :
    (j.step s).2.labels.Holds P := by
  cases s with
  | mark offset | refuse reason => exact hj
  | seed offset snapshot => exact LabelStore.holds_seed hj offset (hs offset snapshot rfl)

theorem perform_holds {P : Slot → Prop} {j : Joins} (hj : j.labels.Holds P)
    {steps : List EntryStep}
    (hsteps : ∀ s ∈ steps, ∀ offset snapshot, s = .seed offset snapshot →
      ∀ slot ∈ snapshot, P slot) :
    (j.perform steps).2.labels.Holds P := by
  induction steps generalizing j with
  | nil => exact hj
  | cons s rest ih =>
      obtain ⟨hs, hrest⟩ := List.forall_mem_cons.mp hsteps
      have hstep := step_holds hj hs
      unfold perform
      split
      · rename_i next heq
        rw [heq] at hstep
        exact ih hstep hrest
      · rename_i next heq
        rw [heq] at hstep
        exact hstep

end Joins

/-! ## Regions -/

theorem Span.check_eq_ok_iff {s : Span} {mask : JumpMask} :
    s.check mask = .ok () ↔ s.length ≠ 0 ∧ s.stop ≤ mask.size ∧
      mask.isBoundary s.start = true ∧ mask.isBoundary s.stop = true := by
  simp only [check, require_bind_eq_ok_iff, require_eq_ok_iff, decide_eq_true_eq]

/-- A block that was checked starts at an instruction. -/
theorem Span.check_eq_ok {s : Span} {mask : JumpMask} {u : Unit} (h : s.check mask = .ok u) :
    s.start < mask.size ∧ mask.isStart s.start = true := by
  obtain ⟨hlength, hstop, hstart, _⟩ := check_eq_ok_iff.mp h
  have hstop : s.start + s.length ≤ mask.size := hstop
  have hlt : s.start < mask.size := by omega
  unfold JumpMask.isBoundary at hstart
  rw [Bool.or_eq_true, decide_eq_true_iff] at hstart
  exact ⟨hlt, hstart.resolve_left (Nat.ne_of_lt hlt)⟩

theorem Span.boundaries_of_check {s : Span} {mask : JumpMask} {u : Unit}
    (h : s.check mask = .ok u) :
    mask.isBoundary s.start = true ∧ mask.isBoundary s.stop = true :=
  (check_eq_ok_iff.mp h).2.2

namespace Region

section Seeds

variable {P : Slot → Prop} (hP : ∀ ty : Ty, ty.isReference = true → P (.object ty))
include hP

/-- A handler starts with objects at most: what can be caught is an object. -/
theorem handlerSteps_holds (r : Region) (u : Universe) (mask : JumpMask) {offset : Nat}
    {snapshot : Slots} (hs : .seed offset snapshot ∈ r.handlerSteps u mask) :
    ∀ slot ∈ snapshot, P slot := by
  have hobject : ∀ ty : Ty, ty.isReference = true → ∀ slot ∈ [Slot.object ty], P slot := by
    intro ty h slot hslot
    rw [List.mem_singleton.mp hslot]
    exact hP ty h
  unfold handlerSteps at hs
  cases hkind : r.kind with
  | catchType token =>
      simp only [hkind] at hs
      split at hs
      · rename_i ty hty
        have href := (Option.filter_eq_some_iff.mp hty).2
        rw [Bool.and_eq_true] at href
        cases List.mem_singleton.mp hs
        exact hobject ty href.1
      · cases List.mem_singleton.mp hs
  | filter start =>
      simp only [hkind] at hs
      split at hs
      · cases List.mem_singleton.mp hs
      · split at hs
        · cases List.mem_singleton.mp hs
        · simp only [List.mem_cons, EntryStep.seed.injEq, reduceCtorEq, false_or,
            List.not_mem_nil, or_false] at hs
          rcases hs with ⟨_, rfl⟩ | ⟨_, rfl⟩
          · exact hobject _ rfl
          · exact hobject _ rfl
  | _ =>
      simp only [hkind] at hs
      cases List.mem_singleton.mp hs
      simp

theorem steps_holds (r : Region) (u : Universe) (mask : JumpMask) {offset : Nat}
    {snapshot : Slots} (hs : .seed offset snapshot ∈ r.steps u mask) :
    ∀ slot ∈ snapshot, P slot := by
  unfold steps at hs
  split at hs
  · cases List.mem_singleton.mp hs
  · cases List.mem_singleton.mp hs
  · rcases List.mem_append.mp hs with hs | hs
    · simp only [List.mem_cons, EntryStep.seed.injEq, reduceCtorEq, false_or,
        List.not_mem_nil, or_false] at hs
      rw [hs.2]
      simp
    · exact handlerSteps_holds hP r u mask hs

end Seeds

/-- An offset where control arrives with a stack that an exception region prescribes. -/
structure EntryPoint (mask : JumpMask) (j : Joins) (offset : Nat) (slots : Slots) : Prop where
  isStart : mask.isStart offset = true
  isTarget : j.mask.isTarget offset = true
  hasSeed : j.HasSeed offset slots

/-- A region whose demands are met has blocks of instructions, which are marked. -/
theorem blocks_of_met {r : Region} {u : Universe} {mask : JumpMask} {j : Joins}
    (hbound : j.mask.targets.bound = mask.size) (h : ∀ s ∈ r.steps u mask, j.Met s) :
    EntryPoint mask j r.tryBlock.start [] ∧ r.handler.start < mask.size ∧
      mask.isStart r.handler.start = true ∧ j.mask.isTarget r.handler.start = true ∧
      ∀ s ∈ r.handlerSteps u mask, j.Met s := by
  unfold steps at h
  split at h
  · exact absurd (h _ List.mem_cons_self) fun h => h
  · exact absurd (h _ List.mem_cons_self) fun h => h
  · rename_i htry hhandler
    obtain ⟨htryLt, htryStart⟩ := Span.check_eq_ok htry
    obtain ⟨hlt, hstart⟩ := Span.check_eq_ok hhandler
    have hmarkTry : j.Met (.mark r.tryBlock.start) := h _ (by simp)
    have hmark : j.Met (.mark r.handler.start) := h _ (by simp)
    have hseed : j.Met (.seed r.tryBlock.start []) := h _ (by simp)
    refine ⟨⟨htryStart, hmarkTry (hbound ▸ htryLt), hseed⟩, hlt, hstart,
      hmark (hbound ▸ hlt), fun s hs => h s (List.mem_append_right _ hs)⟩

/-- **A region whose demands are met has its entry points.** -/
theorem entries_of_met {r : Region} {u : Universe} {mask : JumpMask} {j : Joins}
    (hbound : j.mask.targets.bound = mask.size) (h : ∀ s ∈ r.steps u mask, j.Met s) :
    r.Entries u (EntryPoint mask j) := by
  obtain ⟨htry, hlt, hstart, htarget, hmet⟩ := blocks_of_met hbound h
  refine ⟨htry, ?_⟩
  unfold handlerSteps at hmet
  cases hkind : r.kind with
  | catchType token =>
      simp only [hkind] at hmet
      split at hmet
      · rename_i ty hty
        exact ⟨ty, (Option.filter_eq_some_iff.mp hty).1, hstart, htarget,
          hmet _ List.mem_cons_self⟩
      · exact absurd (hmet _ List.mem_cons_self) fun h => h
  | filter start =>
      simp only [hkind] at hmet
      split at hmet
      · exact absurd (hmet _ List.mem_cons_self) fun h => h
      · rename_i hbefore
        split at hmet
        · exact absurd (hmet _ List.mem_cons_self) fun h => h
        · -- The filter lies before its handler, and so in the code.
          simp only [Bool.or_eq_true, decide_eq_true_iff, not_or, Bool.not_eq_true',
            Bool.not_eq_false] at hbefore
          have hmark : j.Met (.mark start) := hmet _ (by simp)
          have hfilterLt : start < j.mask.targets.bound := by omega
          have hfilter : j.Met (.seed start [.object (.ref WellKnown.exception.id)]) :=
            hmet _ (by simp)
          have hentry : j.Met (.seed r.handler.start [.object (.ref WellKnown.exception.id)]) :=
            hmet _ (by simp)
          exact ⟨⟨hbefore.2, hmark hfilterLt, hfilter⟩, hstart, htarget, hentry⟩
  | _ =>
      simp only [hkind] at hmet
      exact ⟨hstart, htarget, hmet _ List.mem_cons_self⟩

/-! ### What a region asks for -/

/-- Where a handler or its filter starts, control may arrive. -/
theorem mark_of_handlerSteps {r : Region} {u : Universe} {mask : JumpMask} {offset : Nat}
    {snapshot : Slots} (h : .seed offset snapshot ∈ r.handlerSteps u mask) :
    offset = r.handler.start ∨
      r.kind = .filter offset ∧ offset < r.handler.start ∧
        .mark offset ∈ r.handlerSteps u mask := by
  unfold handlerSteps at h ⊢
  cases hkind : r.kind with
  | catchType token =>
      simp only [hkind] at h
      split at h
      · cases List.mem_singleton.mp h
        exact .inl rfl
      · cases List.mem_singleton.mp h
  | filter start =>
      simp only [hkind] at h ⊢
      split at h
      · cases List.mem_singleton.mp h
      · rename_i hbefore
        split at h
        · cases List.mem_singleton.mp h
        · rename_i haccessible
          simp only [Bool.or_eq_true, decide_eq_true_iff, not_or] at hbefore
          simp only [List.mem_cons, EntryStep.seed.injEq, reduceCtorEq, false_or,
            List.not_mem_nil, or_false] at h
          rcases h with ⟨rfl, _⟩ | ⟨rfl, _⟩
          · refine .inr ⟨rfl, by omega, ?_⟩
            simp [hbefore, haccessible]
          · exact .inl rfl
  | _ =>
      simp only [hkind] at h
      cases List.mem_singleton.mp h
      exact .inl rfl

/-- Where a region has a label, it has a mark inside the code. -/
theorem mark_of_seed {r : Region} {u : Universe} {mask : JumpMask} {offset : Nat}
    {snapshot : Slots} (h : .seed offset snapshot ∈ r.steps u mask) :
    offset < mask.size ∧ .mark offset ∈ r.steps u mask := by
  unfold steps at h ⊢
  split at h
  · cases List.mem_singleton.mp h
  · cases List.mem_singleton.mp h
  · rename_i htry hhandler
    have htryLt := (Span.check_eq_ok htry).1
    have hhandlerLt := (Span.check_eq_ok hhandler).1
    rcases List.mem_append.mp h with h | h
    · simp only [List.mem_cons, EntryStep.seed.injEq, reduceCtorEq, false_or,
        List.not_mem_nil, or_false] at h
      rw [h.1]
      exact ⟨htryLt, by simp⟩
    · rcases mark_of_handlerSteps h with rfl | ⟨_, hlt, hmark⟩
      · exact ⟨hhandlerLt, by simp⟩
      · exact ⟨Nat.lt_trans hlt hhandlerLt, List.mem_append_right _ hmark⟩

theorem isStart_of_handlerSteps {r : Region} {u : Universe} {mask : JumpMask} {offset : Nat}
    (h : .mark offset ∈ r.handlerSteps u mask) : mask.isStart offset = true := by
  unfold handlerSteps at h
  cases hkind : r.kind with
  | catchType token =>
      simp only [hkind] at h
      split at h <;> cases List.mem_singleton.mp h
  | filter start =>
      simp only [hkind] at h
      split at h
      · cases List.mem_singleton.mp h
      · rename_i hbefore
        split at h
        · cases List.mem_singleton.mp h
        · simp only [Bool.or_eq_true, Bool.not_eq_true', not_or, Bool.not_eq_false] at hbefore
          simp only [List.mem_cons, EntryStep.mark.injEq, reduceCtorEq, List.not_mem_nil,
            or_false] at h
          rw [h]
          exact hbefore.2
  | _ =>
      simp only [hkind] at h
      cases List.mem_singleton.mp h

/-- What a region marks lies between instructions. -/
theorem isBoundary_of_mark {r : Region} {u : Universe} {mask : JumpMask} {offset : Nat}
    (h : .mark offset ∈ r.steps u mask) : mask.isBoundary offset = true := by
  unfold steps at h
  split at h
  · cases List.mem_singleton.mp h
  · cases List.mem_singleton.mp h
  · rename_i htry hhandler
    obtain ⟨htryStart, htryStop⟩ := Span.boundaries_of_check htry
    obtain ⟨hstart, hstop⟩ := Span.boundaries_of_check hhandler
    rcases List.mem_append.mp h with h | h
    · simp only [List.mem_cons, EntryStep.mark.injEq, reduceCtorEq, List.not_mem_nil,
        or_false] at h
      rcases h with rfl | rfl | rfl | rfl <;> assumption
    · unfold JumpMask.isBoundary
      rw [isStart_of_handlerSteps h, Bool.or_true]

end Region

/-- What regions bring in are objects. -/
theorem Joins.addRegions_holds {P : Slot → Prop}
    (hP : ∀ ty : Ty, ty.isReference = true → P (.object ty)) {mask : JumpMask} {maxLabels : Nat}
    {u : Universe} {regions : List Region} {j : Joins} {result : Unit}
    (h : addRegions ⟨mask, { bound := maxLabels }⟩ u regions = (.ok result, j)) :
    j.labels.Holds P := by
  have hholds : (perform ⟨mask, { bound := maxLabels }⟩
      (regions.flatMap fun r => r.steps u mask)).2.labels.Holds P := by
    refine perform_holds (fun l hl => by simp at hl) ?_
    rintro s hs offset snapshot rfl
    obtain ⟨r, _, hs⟩ := List.mem_flatMap.mp hs
    exact Region.steps_holds hP r u mask hs
  rwa [show (perform _ _).2 = j from congrArg Prod.snd h] at hholds

/-- **What the regions of a method prepare.** The marks and labels of all their entry points are
there, and no labels but theirs. -/
theorem Joins.addRegions_eq_ok {mask : JumpMask} {maxLabels : Nat} {u : Universe}
    {regions : List Region} {j : Joins} {result : Unit}
    (hmask : mask.targets.bound = mask.size)
    (h : addRegions ⟨mask, { bound := maxLabels }⟩ u regions = (.ok result, j)) :
    j.Prepared ∧ j.labels.Holds Slot.Typed ∧ mask.Extends j.mask ∧
      ∀ r ∈ regions, r.Entries u (Region.EntryPoint mask j) := by
  obtain ⟨hrecords, hfeasible⟩ := perform_eq_ok h
  have htyped : j.labels.Holds Slot.Typed := addRegions_holds (fun _ => Slot.typed_object) h
  refine ⟨hrecords.prepared, htyped, hrecords.extends, fun r hr => Region.entries_of_met ?_ ?_⟩
  · exact hrecords.targets_bound.trans hmask
  · exact fun s hs => hrecords.met hfeasible s (List.mem_flatMap.mpr ⟨r, hr, hs⟩)

/-- **Regions mark instructions only, and have labels at marks only.** -/
theorem Joins.addRegions_adds {mask : JumpMask} {maxLabels : Nat} {u : Universe}
    {regions : List Region} {j : Joins} {result : Unit}
    (hmask : mask.targets.bound = mask.size)
    (h : addRegions ⟨mask, { bound := maxLabels }⟩ u regions = (.ok result, j)) :
    (∀ offset, j.mask.isTarget offset = true →
        mask.isTarget offset = true ∨ mask.isStart offset = true) ∧
      j.labels.Within fun offset => j.mask.isTarget offset = true := by
  obtain ⟨hrecords, hfeasible⟩ := perform_eq_ok h
  have hbound : j.mask.targets.bound = mask.size := hrecords.targets_bound.trans hmask
  refine ⟨fun offset htarget => ?_, fun l hl => ?_⟩
  · rcases (hrecords.isTarget_iff offset).mp htarget with hold | ⟨hmark, hlt⟩
    · exact .inl hold
    · obtain ⟨r, _, hmark⟩ := List.mem_flatMap.mp hmark
      have hboundary := Region.isBoundary_of_mark hmark
      unfold JumpMask.isBoundary at hboundary
      rw [Bool.or_eq_true, decide_eq_true_iff] at hboundary
      rcases hboundary with hend | hstart
      · -- The end of the code is not marked.
        have hend : offset = mask.size := hend
        omega
      · exact .inr hstart
  · have hseed := (hrecords.label_iff l.offset l.snapshot).mpr ⟨l, hl, rfl, rfl⟩
    obtain ⟨r, hr, hseed⟩ := List.mem_flatMap.mp hseed
    obtain ⟨hlt, hmark⟩ := Region.mark_of_seed hseed
    exact hrecords.met hfeasible _ (List.mem_flatMap.mpr ⟨r, hr, hmark⟩) (hbound ▸ hlt)

/-! ## Regions that are refused -/

/-- What can be wrong with an exception region: a border, a type, or the stack at an entry point;
or there is no room for its labels. -/
def Rejection.OfRegion : Rejection → Prop
  | .branchOutOfRange _ _ | .type _ _ | .stack _ _ | .outOfMemory => True
  | _ => False

theorem Span.check_fails (s : Span) (mask : JumpMask) : Fails (s.check mask) Rejection.OfRegion :=
  .bind (.require trivial) fun _ => .bind (.require trivial) fun _ =>
    .bind (.require trivial) fun _ => .require trivial

theorem LabelStore.seed_fails (s : LabelStore) (offset : Nat) (snapshot : Slots) :
    Fails (s.seed offset snapshot).1 Rejection.OfRegion := by
  unfold seed
  split
  · unfold create
    split
    · exact .ok
    · exact .error trivial
  · split
    · exact .ok
    · exact .error trivial

theorem Region.refuse_of_handlerSteps {r : Region} {u : Universe} {mask : JumpMask}
    {reason : Rejection} (h : .refuse reason ∈ r.handlerSteps u mask) : reason.OfRegion := by
  unfold handlerSteps at h
  cases hkind : r.kind with
  | catchType token =>
      simp only [hkind] at h
      split at h
      · cases List.mem_singleton.mp h
      · cases List.mem_singleton.mp h
        trivial
  | filter start =>
      simp only [hkind] at h
      split at h
      · cases List.mem_singleton.mp h
        trivial
      · split at h
        · cases List.mem_singleton.mp h
          trivial
        · simp at h
  | _ =>
      simp only [hkind] at h
      cases List.mem_singleton.mp h

theorem Region.refuse_of_steps {r : Region} {u : Universe} {mask : JumpMask}
    {reason : Rejection} (h : .refuse reason ∈ r.steps u mask) : reason.OfRegion := by
  unfold steps at h
  split at h
  · rename_i htry
    cases List.mem_singleton.mp h
    exact Span.check_fails _ mask _ htry
  · rename_i hhandler
    cases List.mem_singleton.mp h
    exact Span.check_fails _ mask _ hhandler
  · rcases List.mem_append.mp h with h | h
    · simp at h
    · exact refuse_of_handlerSteps h

theorem Joins.perform_fails (j : Joins) {steps : List EntryStep}
    (h : ∀ reason, .refuse reason ∈ steps → reason.OfRegion) :
    Fails (j.perform steps).1 Rejection.OfRegion := by
  induction steps generalizing j with
  | nil => exact .ok
  | cons s rest ih =>
      have hstep : Fails (j.step s).1 Rejection.OfRegion := by
        cases s with
        | mark offset => exact .ok
        | seed offset snapshot => exact .map _ (j.labels.seed_fails offset snapshot)
        | refuse reason => exact .error (h reason List.mem_cons_self)
      unfold perform
      split
      · exact ih _ fun reason hreason => h reason (List.mem_cons_of_mem s hreason)
      · rename_i e _ heq
        exact .error (hstep e (congrArg Prod.fst heq))

/-- Regions are refused for what is wrong with a region. -/
theorem Joins.addRegions_fails (j : Joins) (u : Universe) (regions : List Region) :
    Fails (j.addRegions u regions).1 Rejection.OfRegion := by
  refine j.perform_fails fun reason hreason => ?_
  obtain ⟨r, _, hreason⟩ := List.mem_flatMap.mp hreason
  exact Region.refuse_of_steps hreason

end ManagedCode
