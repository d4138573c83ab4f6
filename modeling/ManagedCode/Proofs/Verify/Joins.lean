import ManagedCode.Proofs.Engine.Arrivals
import ManagedCode.Proofs.Verify.Flow
import ManagedCode.Proofs.Verify.Resolution

set_option autoImplicit false

/-! # The stack at a jump target

A pass goes over the code once, so the stack with which a jump target is verified can only depend on
what came before: the jumps from lower offsets and, last, control that falls through. They are joined
in this order (`Session.Account.joined?_entry`). Where there is none of them, the target is the head
of a loop that is entered from behind, and its stack is taken to be empty. What comes later does not
change the stack any more and has to fit it (`Session.Account.label?_later`,
`Session.Account.fit_of_backward`).
-/

namespace ManagedCode

/-! ## Labels of exception regions -/

/-- A region has labels only where one of its blocks starts. -/
theorem Region.mem_entryOffsets_of_seed {r : Region} {u : Universe} {mask : JumpMask} {offset : Nat}
    {snapshot : Slots} (h : .seed offset snapshot ∈ r.steps u mask) : offset ∈ r.entryOffsets := by
  rw [mem_entryOffsets_iff]
  unfold steps at h
  split at h
  · simp at h
  · simp at h
  · rcases List.mem_append.mp h with h | h
    · simp only [List.mem_cons, EntryStep.seed.injEq, reduceCtorEq, false_or, List.not_mem_nil,
        or_false] at h
      exact .inl h.1
    · rcases mark_of_handlerSteps h with hentry | ⟨hfilter, _⟩
      · exact .inr (.inl hentry)
      · exact .inr (.inr hfilter)

namespace Session

variable {body : MethodBody} {world : Universe} {options : Options}

/-- Before the pass there are labels only where blocks of exception regions start. -/
theorem label?_of_prepare {joins : Joins} (h : prepare body world options = .ok joins)
    {offset : Nat} (hregions : ∀ r ∈ body.regions, offset ∉ r.entryOffsets) :
    joins.labels.label? offset = none := by
  obtain ⟨mask, _, hjoins⟩ := prepare_eq_ok h
  obtain ⟨hrecords, _⟩ := Joins.perform_eq_ok hjoins
  refine LabelStore.label?_eq_none_iff.mpr fun l hl hoffset => ?_
  have hseed := (hrecords.label_iff offset l.snapshot).mpr ⟨l, hl, hoffset, rfl⟩
  obtain ⟨r, hr, hseed⟩ := List.mem_flatMap.mp hseed
  exact hregions r hr (Region.mem_entryOffsets_of_seed hseed)

namespace Account

variable (account : Account body world options)

/-! ## What comes before -/

theorem gathered_start {offset : Nat} (h : account.joins.labels.label? offset = none) :
    Engine.Gathered account.context body.maxStack offset [] account.start where
  sound := account.sound_start
  gathers := by
    show account.joins.labels.Gathers world offset []
    unfold LabelStore.Gathers
    rw [h]
  falling := rfl

/-- **A jump target starts with what arrives there from lower offsets.** -/
theorem joined?_entry {x : Visit} (hx : x ∈ visits body world options)
    (htarget : account.joins.mask.isTarget x.offset = true)
    (hlabel : account.joins.labels.label? x.offset = none) :
    let before := (visits body world options).filter (·.offset < x.offset)
    Slots.joined? world (Engine.jumpsTo x.offset before ++
      (Engine.fallThrough? account.joins.mask before).toList) = some x.entry := by
  intro before
  obtain ⟨after, hsplit⟩ := Engine.exists_after account.consecutive hx
  have hpath : Engine.Path account.context account.start (before ++ x :: after) account.final :=
    hsplit ▸ account.path
  obtain ⟨between, hbefore, hvisited, _⟩ := hpath.split
  have hmem : ∀ v ∈ before, v ∈ visits body world options ∧ v.offset < x.offset := by
    intro v hv
    simpa using List.mem_filter.mp hv
  have hgathered := (account.gathered_start hlabel).path hbefore
    (fun v hv => account.decoded (hmem v hv).1) (fun v hv => Nat.ne_of_lt (hmem v hv).2)
  exact hgathered.entry htarget hvisited.enter_eq

end Account

end Session

/-- **The stack at a jump target is joined from what comes before it.** In a method that is verified,
a marked target that is no entry point of an exception region is verified with the left fold of the
stacks that arrive there: by jumps from lower offsets, in their order, and last from the instruction
before it, if control can fall through. If nothing arrives, the stack is empty. From then on nothing
changes the stack that is recorded: jumps from the target itself and from behind it have to fit, and
so must come with an empty stack if nothing arrived before. -/
theorem verify_joins (body : MethodBody) (world : Universe) (options : Options)
    (backend : Recorder) {v : Verified} (h : (verify body world options backend).1 = .ok v) :
    ∃ joins, Session.prepare body world options = .ok joins ∧
      ∀ target, joins.mask.isTarget target = true →
        (∀ r ∈ body.regions, target ∉ r.entryOffsets) →
        let visits := Session.visits body world options
        let before := visits.filter (·.offset < target)
        let arrivals :=
          Engine.jumpsTo target before ++ (Engine.fallThrough? joins.mask before).toList
        ∃ x ∈ visits, x.offset = target ∧ Slots.joined? world arrivals = some x.entry ∧
          (arrivals = [] → x.entry = []) ∧
          ∀ y ∈ visits, target ≤ y.offset →
            (y.left.labels.label? target).map (·.snapshot) = some x.entry ∧
              ((target : Int) ∈ y.instruction.targets →
                Slots.Fit world y.exit x.entry ∧ (arrivals = [] → y.exit = [])) := by
  obtain ⟨a, ha⟩ := verify_eq_ok h
  obtain ⟨account, hprepare⟩ := Session.exists_account_of_prepare ha
  refine ⟨account.joins, hprepare, fun target htarget hregions => ?_⟩
  intro visits before arrivals
  obtain ⟨i, hi, hoffset⟩ := Session.startsAt_of_isTarget hprepare htarget
  rw [← account.instructions_eq] at hi
  obtain ⟨x, hx, rfl⟩ := List.mem_map.mp hi
  have hoffset : x.offset = target := hoffset
  subst hoffset
  have hjoined : Slots.joined? world arrivals = some x.entry :=
    account.joined?_entry hx htarget (Session.label?_of_prepare hprepare hregions)
  have hempty : arrivals = [] → x.entry = [] := by
    intro hnone
    rw [hnone] at hjoined
    exact (Option.some.inj hjoined).symm
  refine ⟨x, hx, rfl, hjoined, hempty, fun y hy hle => ⟨?_, fun hjump => ?_⟩⟩
  · obtain ⟨_, l, hl, hslots⟩ := account.label?_later hy hx htarget hle
    rw [hl, ← hslots]
    rfl
  · have hfit := account.fit_of_backward hy hx htarget hle hjump
    refine ⟨hfit, fun hnone => ?_⟩
    rw [hempty hnone] at hfit
    exact List.forall₂_nil_right_iff.mp hfit

/-- Looks at a dog or at a cat, and then returns from a place that comes before the jump there:
`ldarg.1; ldarg.0; brtrue.s 6; pop; ldarg.2; pop; br.s 11; nop; ret; br.s 9`. -/
def returnFromBefore : MethodBody where
  code := [0x03, 0x02, 0x2D, 0x02, 0x26, 0x04, 0x26, 0x2B, 0x02, 0x00, 0x2A, 0x2B, 0xFC]
  maxStack := 2
  signature := { params := [.primitive .int32, .ref ⟨23⟩, .ref ⟨24⟩] }

/-- Where a dog jumps to and a cat falls through, their common class is found. Where control jumps back
to and nothing arrives before, nothing is found. -/
theorem verify_returnFromBefore_joins :
    (verify returnFromBefore .zoo {} (.withRestarts 0)).1 = .ok ⟨0, 3, 2⟩ ∧
      let visits := Session.visits returnFromBefore .zoo {}
      (∃ x ∈ visits, x.offset = 6 ∧ x.entry = [.object (.ref ⟨22⟩)]) ∧
        (∃ x ∈ visits, x.offset = 9 ∧ x.entry = [] ∧
          ∀ y ∈ visits, 9 ≤ y.offset → 9 ∈ y.instruction.targets → y.exit = []) := by
  have haccepted : (verify returnFromBefore .zoo {} (.withRestarts 0)).1 = .ok ⟨0, 3, 2⟩ := by
    decide +kernel
  refine ⟨haccepted, ?_⟩
  intro visits
  obtain ⟨joins, hprepare, hjoins⟩ :=
    verify_joins returnFromBefore .zoo {} (.withRestarts 0) haccepted
  -- What is asked of the marks, at the two targets.
  have hbranch : (Session.prepare returnFromBefore .zoo {}).map (fun j => (j.mask.isTarget 6,
      Engine.fallThrough? j.mask (visits.filter (·.offset < 6)))) =
        .ok (true, some [.object (.ref ⟨24⟩)]) := by
    decide +kernel
  have hback : (Session.prepare returnFromBefore .zoo {}).map (fun j => (j.mask.isTarget 9,
      Engine.fallThrough? j.mask (visits.filter (·.offset < 9)))) = .ok (true, none) := by
    decide +kernel
  rw [hprepare] at hbranch hback
  obtain ⟨htarget, hfalls⟩ := Prod.mk.inj (Except.ok.inj hbranch)
  obtain ⟨htarget', hfalls'⟩ := Prod.mk.inj (Except.ok.inj hback)
  constructor
  · have hjumps : Engine.jumpsTo 6 (visits.filter (·.offset < 6)) = [[.object (.ref ⟨23⟩)]] := by
      decide +kernel
    obtain ⟨x, hx, hoffset, hjoined, _⟩ := hjoins 6 htarget (by simp [returnFromBefore])
    rw [hjumps, hfalls] at hjoined
    refine ⟨x, hx, hoffset, Option.some.inj (hjoined.symm.trans ?_)⟩
    decide +kernel
  · have hjumps : Engine.jumpsTo 9 (visits.filter (·.offset < 9)) = [] := by decide +kernel
    obtain ⟨x, hx, hoffset, _, hempty, hlater⟩ := hjoins 9 htarget' (by simp [returnFromBefore])
    rw [hjumps, hfalls'] at hempty hlater
    exact ⟨x, hx, hoffset, hempty rfl, fun y hy hle hjump => ((hlater y hy hle).2 hjump).2 rfl⟩

end ManagedCode
