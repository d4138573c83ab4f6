import ManagedCode.Proofs.Engine.RegionOrder
import ManagedCode.Proofs.Verify.Regions

set_option autoImplicit false

/-! # The order of exception regions

Regions are looked at one after the other, and each of them adds marks and labels for the next one to
meet. What they ask for can be granted in one order exactly if it can be granted in any other, and
then with the same marks and labels, but for the numbers of these (`Joins.Records.renumbered`). The
pass does not look at the numbers, so a method is verified or not whatever the order of its regions.
-/

namespace ManagedCode

/-! ## Marks and labels -/

section

variable {mask : JumpMask} {bound : Nat} {steps steps' : List EntryStep} {j j' : Joins}

/-- The same steps in another order leave the same labels behind, under other numbers. -/
theorem Joins.Records.renumbered (hj : j.Records mask bound steps)
    (hj' : j'.Records mask bound steps') (hperm : steps.Perm steps') :
    j.labels.Renumbered j'.labels := by
  have hsize : j.labels.size = j'.labels.size := by
    have hoffsets : EntryStep.seedOffsets steps = EntryStep.seedOffsets steps' := by
      ext offset
      simp only [EntryStep.mem_seedOffsets, hperm.mem_iff]
    rw [← hj.card_seedOffsets, ← hj'.card_seedOffsets, hoffsets]
  have hlabel : ∀ offset snapshot,
      (∃ l ∈ j.labels.labels, l.offset = offset ∧ l.snapshot = snapshot) ↔
        ∃ l' ∈ j'.labels.labels, l'.offset = offset ∧ l'.snapshot = snapshot := by
    intro offset snapshot
    rw [← hj.label_iff, ← hj'.label_iff, hperm.mem_iff]
  refine ⟨hj.coherent, hj'.coherent, hj.bound_eq.trans hj'.bound_eq.symm, hsize, fun offset => ?_⟩
  cases hfind : j.labels.label? offset with
  | none =>
      have hnone : j'.labels.label? offset = none := by
        refine LabelStore.label?_eq_none_iff.mpr fun l' hl' hoffset => ?_
        obtain ⟨l, hl, hoffset, _⟩ := (hlabel offset l'.snapshot).mpr ⟨l', hl', hoffset, rfl⟩
        exact LabelStore.label?_eq_none_iff.mp hfind l hl hoffset
      rw [hnone]
      exact .none
  | some l =>
      obtain ⟨hl, hoffset⟩ := hj.coherent.label?_eq_some_iff.mp hfind
      obtain ⟨l', hl', hoffset', hsnapshot⟩ :=
        (hlabel offset l.snapshot).mp ⟨l, hl, hoffset, rfl⟩
      rw [hj'.coherent.label?_eq_some_iff.mpr ⟨hl', hoffset'⟩]
      refine .some ⟨hoffset.trans hoffset'.symm, hsnapshot.symm, ?_, ?_⟩
      · rw [hj.unvisited l hl, hj'.unvisited l' hl']
      · rw [hj.seeded l hl, hj'.seeded l' hl']

theorem Joins.Records.isTarget_eq (hj : j.Records mask bound steps)
    (hj' : j'.Records mask bound steps') (hperm : steps.Perm steps') (offset : Nat) :
    j.mask.isTarget offset = j'.mask.isTarget offset := by
  rw [Bool.eq_iff_iff, hj.isTarget_iff, hj'.isTarget_iff, hperm.mem_iff]

end

/-! ## Sessions -/

namespace Session

/-- Marks and labels are the same, but for the numbers of labels. -/
structure SameJoins (j j' : Joins) : Prop where
  size_eq : j.mask.size = j'.mask.size
  isTarget_eq : ∀ offset, j.mask.isTarget offset = j'.mask.isTarget offset
  labels : j.labels.Renumbered j'.labels

variable {body : MethodBody} {regions : List Region} (h : body.regions.Perm regions)
  (world : Universe) (options : Options)
include h

theorem prepare_reordered :
    Agree SameJoins (prepare body world options) (prepare { body with regions } world options) := by
  refine .after (JumpMask.scan body.code) fun mask => ?_
  -- All regions are looked at with the marks from the scan, so their steps are the same.
  have hperm := h.flatMap_right fun r => r.steps world mask
  have hstart := Joins.records_empty mask options.maxLabels
  have hnil := EntryStep.feasible_nil options.maxLabels
  simp only [Joins.addRegions]
  rcases Joins.perform_feasible hstart hnil (body.regions.flatMap fun r => r.steps world mask) with
    ⟨⟨j, hperform, hj⟩, hfeasible⟩ | ⟨⟨e, j, hperform⟩, hnot⟩
  · rcases Joins.perform_feasible hstart hnil (regions.flatMap fun r => r.steps world mask) with
      ⟨⟨j', hperform', hj'⟩, _⟩ | ⟨_, hnot⟩
    · rw [hperform, hperform']
      refine .ok ⟨hj.size_eq.trans hj'.size_eq.symm, ?_, hj.renumbered hj' hperm⟩
      exact hj.isTarget_eq hj' hperm
    · exact absurd (hfeasible.perm hperm) hnot
  · rcases Joins.perform_feasible hstart hnil (regions.flatMap fun r => r.steps world mask) with
      ⟨_, hfeasible⟩ | ⟨⟨e', j', hperform'⟩, _⟩
    · exact absurd (hfeasible.perm hperm.symm) hnot
    · rw [hperform, hperform']
      exact .error e e'

/-- A session tells the backend the same and ends in the same way. -/
theorem run_reordered :
    (run body world options).directives = (run { body with regions } world options).directives ∧
      Agree Eq (run body world options).result
        (run { body with regions } world options).result := by
  have hprepare := prepare_reordered h world options
  cases hjoins : prepare body world options with
  | error e =>
      cases hjoins' : prepare { body with regions } world options with
      | error e' =>
          rw [run_of_prepare_error hjoins, run_of_prepare_error hjoins']
          exact ⟨rfl, .error e e'⟩
      | ok j' =>
          rw [hjoins, hjoins'] at hprepare
          cases hprepare
  | ok j =>
      cases hjoins' : prepare { body with regions } world options with
      | error e' =>
          rw [hjoins, hjoins'] at hprepare
          cases hprepare
      | ok j' =>
          rw [hjoins, hjoins'] at hprepare
          obtain ⟨hsame⟩ := hprepare
          have hcx : (context body world options j).Reordered
              (context { body with regions } world options j') :=
            ⟨rfl, rfl, rfl, h, hsame.size_eq, hsame.isTarget_eq⟩
          obtain ⟨hdirectives, hresult⟩ :=
            Engine.run_reordered hcx (disassemble body.code) hsame.labels
          rw [run_of_prepare hjoins, run_of_prepare hjoins']
          refine ⟨hdirectives, .bind hresult fun st st' hst => ?_⟩
          have hlabels : st.labels.Renumbered st'.labels := hst.labels
          exact conclude_agree hst.stack_eq hlabels.size_eq hlabels.firstUnresolved?

end Session

/-! ## Verification -/

/-- Two sessions that tell the same and end in the same way serve a backend alike. -/
theorem attempt_congr {session session' : Session}
    (hdirectives : session.directives = session'.directives)
    (hresult : Agree Eq session.result session'.result) (maxRestarts restarts : Nat)
    (backend : Recorder) {v : Verified} {recorder : Recorder} :
    attempt session maxRestarts restarts backend = (.ok v, recorder) ↔
      attempt session' maxRestarts restarts backend = (.ok v, recorder) := by
  obtain ⟨directives, result⟩ := session
  obtain ⟨directives', result'⟩ := session'
  cases hdirectives
  cases hresult with
  | ok heq => rw [heq]
  | error e e' =>
      -- A session that fails leads to no verification.
      constructor
      · intro h
        obtain ⟨a, ha⟩ := attempt_eq_ok (congrArg Prod.fst h)
        cases ha
      · intro h
        obtain ⟨a, ha⟩ := attempt_eq_ok (congrArg Prod.fst h)
        cases ha

/-- **The order of exception regions does not matter.** Whatever the order in which the regions of a
method are given, it is verified or not, with the same report, and the backend records the same. -/
theorem verify_reordered (body : MethodBody) (world : Universe) (options : Options)
    (backend : Recorder) {regions : List Region} (h : body.regions.Perm regions) (v : Verified)
    (recorder : Recorder) :
    verify body world options backend = (.ok v, recorder) ↔
      verify { body with regions } world options backend = (.ok v, recorder) := by
  obtain ⟨hdirectives, hresult⟩ := Session.run_reordered h world options
  have hlimits : ({ body with regions } : MethodBody).checkLimits = body.checkLimits := rfl
  unfold verify
  rw [hlimits]
  cases body.checkLimits with
  | error e => exact Iff.rfl
  | ok _ => exact attempt_congr hdirectives hresult _ _ backend

/-- With its cleanup handler first and its filter last, the guarded method is verified as before. -/
theorem verify_guarded_reordered :
    let regions : List Region :=
      [⟨.finally, ⟨0, 13⟩, ⟨13, 1⟩⟩, ⟨.catchType (TokenTable.type.token 0), ⟨0, 3⟩, ⟨10, 3⟩⟩,
        ⟨.filter 3, ⟨0, 3⟩, ⟨7, 3⟩⟩]
    guarded.regions.Perm regions ∧
      (verify guarded .dogZoo {} (.withRestarts 1)).1 = .ok ⟨1, 6, 1⟩ ∧
      verify { guarded with regions } .dogZoo {} (.withRestarts 1) =
        verify guarded .dogZoo {} (.withRestarts 1) := by
  intro regions
  have hperm : guarded.regions.Perm regions := by decide +kernel
  have haccepted : (verify guarded .dogZoo {} (.withRestarts 1)).1 = .ok ⟨1, 6, 1⟩ := by
    decide +kernel
  have hpair : verify guarded .dogZoo {} (.withRestarts 1) =
      (.ok ⟨1, 6, 1⟩, (verify guarded .dogZoo {} (.withRestarts 1)).2) :=
    Prod.ext haccepted rfl
  have hreordered := (verify_reordered guarded .dogZoo {} (.withRestarts 1) hperm _ _).mp hpair
  exact ⟨hperm, haccepted, hreordered.trans hpair.symm⟩

end ManagedCode
