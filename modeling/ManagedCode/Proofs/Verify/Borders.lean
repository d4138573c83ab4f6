import ManagedCode.Proofs.Verify.Joins

set_option autoImplicit false

/-! # The borders of exception regions

The mask marks the borders of exception regions and nothing else (`Session.isSpecial_iff`). Where a
block starts, the region prescribes a stack, and nothing that arrives there changes it. Where a
block only ends, no stack is prescribed: the border is a jump target like any other, so control that
falls through takes its stack out of the block (`verify_borders`).
-/

namespace ManagedCode

namespace Region

/-- Where blocks of a region start or end. -/
def borders (r : Region) : List Nat := r.tryBlock.stop :: r.handler.stop :: r.entryOffsets

theorem mem_borders_iff {r : Region} {offset : Nat} :
    offset ∈ r.borders ↔
      offset = r.tryBlock.stop ∨ offset = r.handler.stop ∨ offset ∈ r.entryOffsets := by
  simp only [borders, List.mem_cons]

/-- Of its own, a handler asks only for a mark where its filter starts. -/
theorem mark_mem_handlerSteps_iff {r : Region} {u : Universe} {mask : JumpMask} {offset : Nat}
    (h : ∀ reason, .refuse reason ∉ r.handlerSteps u mask) :
    .mark offset ∈ r.handlerSteps u mask ↔ r.kind = .filter offset := by
  unfold handlerSteps at h ⊢
  cases hkind : r.kind with
  | catchType token =>
      simp only [hkind] at h ⊢
      split <;> simp
  | filter start =>
      simp only [hkind] at h ⊢
      split at h
      · exact absurd List.mem_cons_self (h _)
      · rename_i hbefore
        split at h
        · exact absurd List.mem_cons_self (h _)
        · rename_i haccessible
          rw [if_neg hbefore, if_neg haccessible]
          simp [eq_comm]
  | _ => simp

/-- A region that is not refused asks for marks at its borders. -/
theorem mark_mem_steps_iff {r : Region} {u : Universe} {mask : JumpMask} {offset : Nat}
    (h : ∀ reason, .refuse reason ∉ r.steps u mask) :
    .mark offset ∈ r.steps u mask ↔ offset ∈ r.borders := by
  unfold steps at h ⊢
  split at h
  · exact absurd List.mem_cons_self (h _)
  · exact absurd List.mem_cons_self (h _)
  · have hhandler : .mark offset ∈ r.handlerSteps u mask ↔ r.kind = .filter offset :=
      mark_mem_handlerSteps_iff fun reason hreason => h reason (List.mem_append_right _ hreason)
    simp only [List.mem_append, hhandler, mem_borders_iff, mem_entryOffsets_iff, List.mem_cons,
      EntryStep.mark.injEq, reduceCtorEq, List.not_mem_nil, or_false]
    tauto

end Region

namespace Session

variable {body : MethodBody} {world : Universe} {options : Options} {joins : Joins}

/-- After a scan, no borders are marked but those that are asked for. -/
theorem isSpecial_iff_mark {code : Code} {mask : JumpMask} {bound : Nat} {steps : List EntryStep}
    (hscan : JumpMask.scan code = .ok mask) (h : joins.Records mask bound steps) (offset : Nat) :
    joins.mask.isSpecial offset = true ↔ .mark offset ∈ steps ∧ offset < code.length := by
  have hnone : mask.isSpecial offset = false := (JumpMask.scan_eq_ok hscan).2.isSpecial_eq offset
  have hbound : mask.special.bound = code.length := by
    obtain ⟨_, _, hgains⟩ := JumpMask.ofListing_gains hscan
    rw [hgains.special_eq]
    rfl
  rw [h.isSpecial_iff, hnone, hbound]
  simp

/-- **Exactly the borders of exception regions are marked as such**, except at the end of the
code. -/
theorem isSpecial_iff (h : prepare body world options = .ok joins) (offset : Nat) :
    joins.mask.isSpecial offset = true ↔
      offset < body.code.length ∧ ∃ r ∈ body.regions, offset ∈ r.borders := by
  obtain ⟨mask, hscan, hjoins⟩ := prepare_eq_ok h
  obtain ⟨hrecords, hfeasible⟩ := Joins.perform_eq_ok hjoins
  have hmark : ∀ r ∈ body.regions,
      (.mark offset ∈ r.steps world mask ↔ offset ∈ r.borders) := fun r hr =>
    Region.mark_mem_steps_iff fun reason hreason =>
      hfeasible.accepted reason (List.mem_flatMap.mpr ⟨r, hr, hreason⟩)
  rw [isSpecial_iff_mark hscan hrecords, List.mem_flatMap]
  constructor
  · rintro ⟨⟨r, hr, hmem⟩, hlt⟩
    exact ⟨hlt, r, hr, (hmark r hr).mp hmem⟩
  · rintro ⟨hlt, r, hr, hborder⟩
    exact ⟨⟨r, hr, (hmark r hr).mpr hborder⟩, hlt⟩

/-- Control can arrive at a border. -/
theorem isTarget_of_isSpecial (h : prepare body world options = .ok joins) {offset : Nat}
    (hspecial : joins.mask.isSpecial offset = true) : joins.mask.isTarget offset = true := by
  obtain ⟨mask, hscan, hjoins⟩ := prepare_eq_ok h
  obtain ⟨hrecords, _⟩ := Joins.perform_eq_ok hjoins
  obtain ⟨_, hsize, hdescribes⟩ := JumpMask.ofListing_eq_ok hscan
  obtain ⟨hmark, hlt⟩ := (isSpecial_iff_mark hscan hrecords offset).mp hspecial
  refine (hrecords.isTarget_iff offset).mpr (.inr ⟨hmark, ?_⟩)
  rw [hdescribes.bound_eq, hsize]
  exact hlt

namespace Account

variable (account : Account body world options)

/-- Where no region prescribes a stack, a target starts with what arrives there from lower
offsets. -/
theorem startsWith_joined (hprepare : prepare body world options = .ok account.joins) {offset : Nat}
    (htarget : account.joins.mask.isTarget offset = true)
    (hlabel : account.joins.labels.label? offset = none) :
    let before := (visits body world options).filter (·.offset < offset)
    ∃ slots, StartsWith (visits body world options) offset slots ∧
      Slots.joined? world (Engine.jumpsTo offset before ++
        (Engine.fallThrough? account.joins.mask before).toList) = some slots := by
  intro before
  have hjoined : ∀ v ∈ visits body world options, v.offset = offset →
      Slots.joined? world (Engine.jumpsTo offset before ++
        (Engine.fallThrough? account.joins.mask before).toList) = some v.entry := by
    rintro v hv rfl
    exact account.joined?_entry hv htarget hlabel
  obtain ⟨i, hi, hoffset⟩ := startsAt_of_isTarget hprepare htarget
  rw [← account.instructions_eq] at hi
  obtain ⟨x, hx, rfl⟩ := List.mem_map.mp hi
  refine ⟨x.entry, ⟨⟨x, hx, hoffset⟩, fun v hv hat => ?_⟩, hjoined x hx hoffset⟩
  have hentry : v.entry = x.entry :=
    Option.some.inj ((hjoined v hv hat).symm.trans (hjoined x hx hoffset))
  subst hat
  refine ⟨hentry, ?_⟩
  rw [← hentry]
  exact account.told_of_isTarget hv htarget

end Account

end Session

/-- **A block starts with the stack of its region, but may end with any.** In a method that is
verified, exactly the borders of its exception regions are marked as such. Where a block starts, the
stack is the one that was recorded there before the pass. Where blocks only end, none was recorded,
and the stack is joined from what arrives: by jumps from lower offsets, and last from the instruction
before the border. If no jump arrives, it is the stack that this instruction leaves, or empty if
control does not fall through. -/
theorem verify_borders (body : MethodBody) (world : Universe) (options : Options)
    (backend : Recorder) {v : Verified} (h : (verify body world options backend).1 = .ok v) :
    ∃ joins, Session.prepare body world options = .ok joins ∧
      ∀ offset, (joins.mask.isSpecial offset = true ↔
          offset < body.code.length ∧ ∃ r ∈ body.regions, offset ∈ r.borders) ∧
        (joins.mask.isSpecial offset = true →
          let visits := Session.visits body world options
          let before := visits.filter (·.offset < offset)
          let jumps := Engine.jumpsTo offset before
          let falls := Engine.fallThrough? joins.mask before
          ∃ slots, StartsWith visits offset slots ∧
            ((∃ r ∈ body.regions, offset ∈ r.entryOffsets) → joins.HasSeed offset slots) ∧
            ((∀ r ∈ body.regions, offset ∉ r.entryOffsets) →
              joins.labels.label? offset = none ∧
                Slots.joined? world (jumps ++ falls.toList) = some slots ∧
                (jumps = [] → slots = falls.getD []))) := by
  obtain ⟨a, ha⟩ := verify_eq_ok h
  obtain ⟨account, hprepare⟩ := Session.exists_account_of_prepare ha
  refine ⟨account.joins, hprepare, fun offset => ⟨Session.isSpecial_iff hprepare offset, ?_⟩⟩
  intro hspecial visits before jumps falls
  by_cases hstarts : ∃ r ∈ body.regions, offset ∈ r.entryOffsets
  · obtain ⟨r, hr, hoffset⟩ := hstarts
    obtain ⟨slots, hentry⟩ := (account.entries r hr).of_mem hoffset
    refine ⟨slots, account.startsWith hentry, fun _ => hentry.hasSeed, fun hends => ?_⟩
    exact absurd hoffset (hends r hr)
  · have hends : ∀ r ∈ body.regions, offset ∉ r.entryOffsets := fun r hr hoffset =>
      hstarts ⟨r, hr, hoffset⟩
    have hlabel : account.joins.labels.label? offset = none :=
      Session.label?_of_prepare hprepare hends
    obtain ⟨slots, hwith, hjoined⟩ := account.startsWith_joined hprepare
      (Session.isTarget_of_isSpecial hprepare hspecial) hlabel
    refine ⟨slots, hwith, fun hthere => absurd hthere hstarts, fun _ => ⟨hlabel, hjoined, ?_⟩⟩
    intro hjumps
    have hfalls : Slots.joined? world (jumps ++ falls.toList) = some (falls.getD []) := by
      rw [hjumps, List.nil_append, Slots.joined?_toList]
    exact Option.some.inj (hjoined.symm.trans hfalls)

/-- The handler for dogs starts with the stack that was recorded for it. Behind the last handler,
three jumps arrive with nothing and control does not fall through. -/
theorem verify_guarded_borders :
    (verify guarded .dogZoo {} (.withRestarts 0)).1 = .ok ⟨0, 6, 1⟩ ∧
      let visits := Session.visits guarded .dogZoo {}
      (∃ joins, Session.prepare guarded .dogZoo {} = .ok joins ∧
          ∃ slots, joins.HasSeed 10 slots ∧ StartsWith visits 10 slots) ∧
        StartsWith visits 14 [] := by
  have haccepted : (verify guarded .dogZoo {} (.withRestarts 0)).1 = .ok ⟨0, 6, 1⟩ := by
    decide +kernel
  refine ⟨haccepted, ?_⟩
  intro visits
  obtain ⟨joins, hprepare, hborders⟩ :=
    verify_borders guarded .dogZoo {} (.withRestarts 0) haccepted
  constructor
  · obtain ⟨hspecial, hstarts⟩ := hborders 10
    obtain ⟨slots, hwith, hseed, _⟩ := hstarts (hspecial.mpr (by decide))
    exact ⟨joins, hprepare, slots, hseed (by decide), hwith⟩
  · obtain ⟨hspecial, hstarts⟩ := hborders 14
    obtain ⟨slots, hwith, _, hends⟩ := hstarts (hspecial.mpr (by decide))
    obtain ⟨_, hjoined, _⟩ := hends (by decide)
    have hjumps : Engine.jumpsTo 14 (visits.filter (·.offset < 14)) = [[], [], []] := by
      decide +kernel
    have hfalls : (Session.prepare guarded .dogZoo {}).map (fun j =>
        Engine.fallThrough? j.mask (visits.filter (·.offset < 14))) = .ok none := by
      decide +kernel
    rw [hprepare] at hfalls
    have hnone : Engine.fallThrough? joins.mask (visits.filter (·.offset < 14)) = none :=
      Except.ok.inj hfalls
    rw [hjumps, hnone] at hjoined
    cases hjoined
    exact hwith

/-- `ldc.i4.0; leave.s 4; endfinally; ret`, where the try block is the first instruction alone. -/
def carriedPast : MethodBody where
  code := [0x16, 0xDE, 0x01, 0xDC, 0x2A]
  maxStack := 1
  regions := [⟨.finally, ⟨0, 1⟩, ⟨3, 1⟩⟩]

/-- **Control may carry a stack out of a try block.** The end of the block is marked as a border,
and no stack was recorded there before the pass. -/
theorem verify_carriedPast :
    (verify carriedPast .core {} (.withRestarts 0)).1 = .ok ⟨0, 4, 1⟩ ∧
      (Session.prepare carriedPast .core {}).map (fun joins =>
        (joins.mask.isSpecial 1, (joins.labels.label? 1).isSome)) = .ok (true, false) ∧
      ∃ x ∈ Session.visits carriedPast .core {}, x.offset = 1 ∧ x.entry = [.int32] := by
  refine ⟨?_, ?_, ?_⟩
  · decide +kernel
  · decide +kernel
  · have hentries : (Session.visits carriedPast .core {}).map (fun x => (x.offset, x.entry)) =
        [(0, []), (1, [.int32]), (3, []), (4, [])] := by
      decide +kernel
    have hmem : (1, [.int32]) ∈
        (Session.visits carriedPast .core {}).map (fun x => (x.offset, x.entry)) := by
      rw [hentries]
      simp
    obtain ⟨x, hx, heq⟩ := List.mem_map.mp hmem
    exact ⟨x, hx, congrArg Prod.fst heq, congrArg Prod.snd heq⟩

end ManagedCode
