import ManagedCode.Proofs.Verify.Borders

set_option autoImplicit false

/-! # The rules for exception regions

A list of exception regions can be prepared for scanned code exactly if it obeys some rules. Of each
region on its own: both blocks are framed by instructions, what is caught is an object type that can
be seen, a filter starts before its handler (`Region.Sound`). Of all regions together: no two of
them require different stacks at one offset, and there is room for a label at each offset at which a
stack is required (`Region.Compatible`). None of the rules mentions the order in which regions are
looked at, although marks and labels are made region by region.

`Joins.addRegions_decides` says this, and what is there when the regions are prepared
(`Region.Prepares`).
-/

namespace ManagedCode

/-! ## Rules -/

/-- A block is not empty and lies in the code, it starts at an instruction, and it ends where an
instruction starts or the code ends. -/
structure Span.Framed (s : Span) (code : Code) : Prop where
  length_ne : s.length ≠ 0
  stop_le : s.start + s.length ≤ code.length
  startsAt : (disassemble code).StartsAt s.start
  stopsAt : (disassemble code).StartsAt ((s.start + s.length : Nat) : Int) ∨
    s.start + s.length = code.length

instance (listing : Listing) (target : Int) : Decidable (listing.StartsAt target) :=
  inferInstanceAs (Decidable (∃ i ∈ listing.instructions, (i.offset : Int) = target))

instance (s : Span) (code : Code) : Decidable (s.Framed code) :=
  decidable_of_iff (s.length ≠ 0 ∧ s.start + s.length ≤ code.length ∧
      (disassemble code).StartsAt s.start ∧
      ((disassemble code).StartsAt ((s.start + s.length : Nat) : Int) ∨
        s.start + s.length = code.length))
    ⟨fun ⟨hlength, hstop, hstart, hend⟩ => ⟨hlength, hstop, hstart, hend⟩,
      fun ⟨hlength, hstop, hstart, hend⟩ => ⟨hlength, hstop, hstart, hend⟩⟩

/-- What is caught is an object type that can be seen; a filter is an instruction before the
handler, which starts at `entry`, and exceptions can be seen. -/
def Handler.Sound (u : Universe) (code : Code) (entry : Nat) : Handler → Prop
  | .catchType token => ∃ ty ∈ u.type? token, ty.isReference = true ∧ u.isAccessible ty = true
  | .filter start =>
      (disassemble code).StartsAt start ∧ start < entry ∧
        u.isAccessible (.ref WellKnown.exception.id) = true
  | .finally | .fault => True

instance (u : Universe) (code : Code) (entry : Nat) :
    (kind : Handler) → Decidable (kind.Sound u code entry)
  | .catchType token => inferInstanceAs (Decidable (∃ ty ∈ u.type? token, _))
  | .filter _ => inferInstanceAs (Decidable (_ ∧ _ ∧ _))
  | .finally | .fault => inferInstanceAs (Decidable True)

namespace Region

/-- The rules for a region on its own. -/
structure Sound (r : Region) (u : Universe) (code : Code) : Prop where
  tryBlock : r.tryBlock.Framed code
  handler : r.handler.Framed code
  entry : r.kind.Sound u code r.handler.start

instance (r : Region) (u : Universe) (code : Code) : Decidable (r.Sound u code) :=
  decidable_of_iff (r.tryBlock.Framed code ∧ r.handler.Framed code ∧
      r.kind.Sound u code r.handler.start)
    ⟨fun ⟨htry, hhandler, hentry⟩ => ⟨htry, hhandler, hentry⟩,
      fun ⟨htry, hhandler, hentry⟩ => ⟨htry, hhandler, hentry⟩⟩

/-- The stacks that the handler of a region requires, each with its offset: the exception that is
caught, any exception for a filter and for the handler behind it, nothing for a cleanup handler. -/
def handlerStacks (r : Region) (u : Universe) : List (Nat × Slots) :=
  match r.kind with
  | .catchType token => (u.type? token).toList.map fun ty => (r.handler.start, [.object ty])
  | .filter start =>
      [(start, [.object (.ref WellKnown.exception.id)]),
        (r.handler.start, [.object (.ref WellKnown.exception.id)])]
  | .finally | .fault => [(r.handler.start, [])]

/-- The stacks that a region requires; its try block starts with nothing. -/
def entryStacks (r : Region) (u : Universe) : List (Nat × Slots) :=
  (r.tryBlock.start, []) :: r.handlerStacks u

/-- The stacks that regions require. -/
def requiredStacks (regions : List Region) (u : Universe) : List (Nat × Slots) :=
  regions.flatMap fun r => r.entryStacks u

/-- Regions can be prepared together, with room for `maxLabels` labels. -/
structure Compatible (regions : List Region) (u : Universe) (code : Code) (maxLabels : Nat) :
    Prop where
  sound : ∀ r ∈ regions, r.Sound u code
  agree : ∀ a ∈ requiredStacks regions u, ∀ b ∈ requiredStacks regions u, a.1 = b.1 → a.2 = b.2
  room : ((requiredStacks regions u).map Prod.fst).toFinset.card ≤ maxLabels

instance (regions : List Region) (u : Universe) (code : Code) (maxLabels : Nat) :
    Decidable (Compatible regions u code maxLabels) :=
  decidable_of_iff ((∀ r ∈ regions, r.Sound u code) ∧
      (∀ a ∈ requiredStacks regions u, ∀ b ∈ requiredStacks regions u, a.1 = b.1 → a.2 = b.2) ∧
      ((requiredStacks regions u).map Prod.fst).toFinset.card ≤ maxLabels)
    ⟨fun ⟨hsound, hagree, hroom⟩ => ⟨hsound, hagree, hroom⟩,
      fun ⟨hsound, hagree, hroom⟩ => ⟨hsound, hagree, hroom⟩⟩

/-- What is there when regions are prepared, where `mask` is what the scan found. -/
structure Prepares (regions : List Region) (u : Universe) (code : Code) (mask : JumpMask)
    (j : Joins) : Prop where
  /-- The labels are the stacks that are required. -/
  label_iff : ∀ offset slots, (∃ l ∈ j.labels.labels, l.offset = offset ∧ l.snapshot = slots) ↔
    (offset, slots) ∈ requiredStacks regions u
  /-- No offset has two labels. -/
  nodup : (j.labels.labels.toList.map (·.offset)).Nodup
  seeded : ∀ l ∈ j.labels.labels, l.seeded = true
  unvisited : ∀ l ∈ j.labels.labels, l.visited = false
  /-- Borders are marked, except at the end of the code. -/
  isSpecial_iff : ∀ offset, j.mask.isSpecial offset = true ↔
    offset < code.length ∧ ∃ r ∈ regions, offset ∈ r.borders
  /-- The borders are targets, beside those that the scan found. -/
  isTarget_iff : ∀ offset, j.mask.isTarget offset = true ↔
    mask.isTarget offset = true ∨ j.mask.isSpecial offset = true
  startsAt : ∀ offset : Nat, j.mask.isTarget offset = true → (disassemble code).StartsAt offset
  isStart_eq : ∀ offset, j.mask.isStart offset = mask.isStart offset

end Region

/-! ## One region -/

section

variable {code : Code} {mask : JumpMask} (hscan : JumpMask.scan code = .ok mask)
include hscan

theorem JumpMask.isStart_iff_startsAt (offset : Nat) :
    mask.isStart offset = true ↔ (disassemble code).StartsAt offset := by
  rw [(scan_eq_ok hscan).2.isStart_iff]
  simp only [Listing.StartsAt, Int.natCast_inj]

theorem JumpMask.size_of_scan : mask.size = code.length := (ofListing_eq_ok hscan).2.1

theorem JumpMask.isBoundary_iff (offset : Nat) :
    mask.isBoundary offset = true ↔
      (disassemble code).StartsAt offset ∨ offset = code.length := by
  unfold isBoundary
  rw [Bool.or_eq_true, decide_eq_true_iff, isStart_iff_startsAt hscan, size_of_scan hscan, or_comm]

/-- A block passes the check exactly if it is framed by instructions. -/
theorem Span.check_iff_framed (s : Span) : s.check mask = .ok () ↔ s.Framed code := by
  rw [Span.check_eq_ok_iff, JumpMask.isBoundary_iff hscan, JumpMask.isBoundary_iff hscan,
    JumpMask.size_of_scan hscan]
  constructor
  · rintro ⟨hlength, hstop, hstart, hend⟩
    refine ⟨hlength, hstop, hstart.resolve_right ?_, hend⟩
    -- A block with something in it does not start at the end of the code.
    have hstop : s.start + s.length ≤ code.length := hstop
    omega
  · rintro ⟨hlength, hstop, hstart, hend⟩
    exact ⟨hlength, hstop, .inl hstart, hend⟩

namespace Region

variable {u : Universe}

/-- A handler is not refused exactly if it can be entered. -/
theorem kindSound_iff (r : Region) :
    (∀ reason, .refuse reason ∉ r.handlerSteps u mask) ↔
      r.kind.Sound u code r.handler.start := by
  unfold handlerSteps Handler.Sound
  cases r.kind with
  | catchType token =>
      simp only
      cases hfilter : (u.type? token).filter fun ty => ty.isReference && u.isAccessible ty with
      | none =>
          simp only [Option.filter_eq_none_iff, Bool.and_eq_true] at hfilter
          simp only [List.mem_singleton, EntryStep.refuse.injEq, forall_eq, false_iff]
          rintro ⟨ty, hty, hrules⟩
          exact hfilter ty hty hrules
      | some ty =>
          obtain ⟨hty, hrules⟩ := Option.filter_eq_some_iff.mp hfilter
          rw [Bool.and_eq_true] at hrules
          simpa using ⟨ty, hty, hrules⟩
  | filter start =>
      simp only [← JumpMask.isStart_iff_startsAt hscan]
      by_cases hbefore : (decide (r.handler.start ≤ start) || !mask.isStart start) = true
      · rw [if_pos hbefore]
        simp only [List.mem_singleton, EntryStep.refuse.injEq, forall_eq, false_iff]
        rintro ⟨hstart, hlt, _⟩
        rw [hstart, Bool.not_true, Bool.or_false, decide_eq_true_iff] at hbefore
        omega
      · rw [if_neg hbefore]
        simp only [Bool.or_eq_true, decide_eq_true_iff, Bool.not_eq_true', not_or, Nat.not_le,
          Bool.not_eq_false] at hbefore
        cases hexception : u.isAccessible (.ref WellKnown.exception.id) with
        | false => simp
        | true => simpa using ⟨hbefore.2, hbefore.1⟩
  | _ => simp

/-- **A region is not refused exactly if it obeys the rules for one region.** -/
theorem sound_iff (r : Region) :
    (∀ reason, .refuse reason ∉ r.steps u mask) ↔ r.Sound u code := by
  have hparts : r.Sound u code ↔ r.tryBlock.check mask = .ok () ∧
      r.handler.check mask = .ok () ∧ ∀ reason, .refuse reason ∉ r.handlerSteps u mask := by
    rw [Span.check_iff_framed hscan, Span.check_iff_framed hscan, kindSound_iff hscan]
    exact ⟨fun h => ⟨h.tryBlock, h.handler, h.entry⟩, fun h => ⟨h.1, h.2.1, h.2.2⟩⟩
  rw [hparts]
  unfold steps
  cases r.tryBlock.check mask with
  | error e => simp
  | ok _ =>
      cases r.handler.check mask with
      | error e => simp
      | ok _ => simp

omit hscan in
theorem seed_mem_handlerSteps_iff {r : Region} {offset : Nat} {slots : Slots}
    (h : ∀ reason, .refuse reason ∉ r.handlerSteps u mask) :
    .seed offset slots ∈ r.handlerSteps u mask ↔ (offset, slots) ∈ r.handlerStacks u := by
  unfold handlerSteps at h ⊢
  unfold handlerStacks
  cases hkind : r.kind with
  | catchType token =>
      simp only [hkind] at h ⊢
      split at h
      · rename_i ty hty
        rw [(Option.filter_eq_some_iff.mp hty).1]
        simp
      · exact absurd List.mem_cons_self (h _)
  | filter start =>
      simp only [hkind] at h ⊢
      split at h
      · exact absurd List.mem_cons_self (h _)
      · rename_i hbefore
        split at h
        · exact absurd List.mem_cons_self (h _)
        · rename_i haccessible
          rw [if_neg hbefore, if_neg haccessible]
          simp
  | _ => simp

omit hscan in
/-- A region that is not refused asks for labels with the stacks that it requires. -/
theorem seed_mem_steps_iff {r : Region} {offset : Nat} {slots : Slots}
    (h : ∀ reason, .refuse reason ∉ r.steps u mask) :
    .seed offset slots ∈ r.steps u mask ↔ (offset, slots) ∈ r.entryStacks u := by
  unfold steps at h ⊢
  split at h
  · exact absurd List.mem_cons_self (h _)
  · exact absurd List.mem_cons_self (h _)
  · have hhandler : .seed offset slots ∈ r.handlerSteps u mask ↔
        (offset, slots) ∈ r.handlerStacks u :=
      seed_mem_handlerSteps_iff fun reason hreason => h reason (List.mem_append_right _ hreason)
    simp [entryStacks, hhandler]

/-! ## All regions -/

omit hscan in
/-- The stacks that regions require are those for which they ask. -/
theorem seed_mem_allSteps_iff {regions : List Region}
    (h : ∀ r ∈ regions, ∀ reason, .refuse reason ∉ r.steps u mask) {offset : Nat} {slots : Slots} :
    .seed offset slots ∈ regions.flatMap (fun r => r.steps u mask) ↔
      (offset, slots) ∈ requiredStacks regions u := by
  unfold requiredStacks
  simp only [List.mem_flatMap]
  refine exists_congr fun r => and_congr_right fun hr => ?_
  exact seed_mem_steps_iff (h r hr)

/-- **The steps of all regions can be carried out exactly if the regions obey the rules.** -/
theorem feasible_iff_compatible (regions : List Region) (maxLabels : Nat) :
    EntryStep.Feasible maxLabels (regions.flatMap fun r => r.steps u mask) ↔
      Compatible regions u code maxLabels := by
  have haccepted : (∀ reason, .refuse reason ∉ regions.flatMap fun r => r.steps u mask) ↔
      ∀ r ∈ regions, ∀ reason, .refuse reason ∉ r.steps u mask := by
    simp only [List.mem_flatMap, not_exists, not_and]
    exact ⟨fun h r hr reason => h reason r hr, fun h reason r hr => h r hr reason⟩
  -- The offsets are counted alike, as a set.
  have hoffsets : (∀ r ∈ regions, ∀ reason, .refuse reason ∉ r.steps u mask) →
      EntryStep.seedOffsets (regions.flatMap fun r => r.steps u mask) =
        ((requiredStacks regions u).map Prod.fst).toFinset := by
    intro h
    ext offset
    rw [EntryStep.mem_seedOffsets, List.mem_toFinset, List.mem_map]
    simp only [seed_mem_allSteps_iff h, Prod.exists, exists_and_right, exists_eq_right]
  constructor
  · rintro ⟨hfeasible, hagree, hroom⟩
    have h := haccepted.mp hfeasible
    simp only [seed_mem_allSteps_iff h] at hagree
    refine ⟨fun r hr => (sound_iff hscan r).mp (h r hr), ?_, hoffsets h ▸ hroom⟩
    rintro ⟨offset, slots⟩ ha ⟨_, slots'⟩ hb rfl
    exact hagree offset slots slots' ha hb
  · rintro ⟨hsound, hagree, hroom⟩
    have h : ∀ r ∈ regions, ∀ reason, .refuse reason ∉ r.steps u mask :=
      fun r hr => (sound_iff hscan r).mpr (hsound r hr)
    refine ⟨haccepted.mpr h, fun offset slots slots' ha hb => ?_, hoffsets h ▸ hroom⟩
    rw [seed_mem_allSteps_iff h] at ha hb
    exact hagree _ ha _ hb rfl

/-- **What is there when regions are prepared.** -/
theorem prepares_of_addRegions {regions : List Region} {maxLabels : Nat} {j : Joins}
    (h : Joins.addRegions ⟨mask, { bound := maxLabels }⟩ u regions = (.ok (), j)) :
    Prepares regions u code mask j := by
  obtain ⟨hrecords, hfeasible⟩ := Joins.perform_eq_ok h
  obtain ⟨_, hsize, hdescribes⟩ := JumpMask.ofListing_eq_ok hscan
  have haccepted : ∀ r ∈ regions, ∀ reason, .refuse reason ∉ r.steps u mask :=
    fun r hr reason hreason => hfeasible.accepted reason (List.mem_flatMap.mpr ⟨r, hr, hreason⟩)
  have hmark : ∀ offset, .mark offset ∈ regions.flatMap (fun r => r.steps u mask) ↔
      ∃ r ∈ regions, offset ∈ r.borders := by
    intro offset
    rw [List.mem_flatMap]
    refine exists_congr fun r => and_congr_right fun hr => ?_
    exact mark_mem_steps_iff (haccepted r hr)
  have hspecial : ∀ offset, j.mask.isSpecial offset = true ↔
      offset < code.length ∧ ∃ r ∈ regions, offset ∈ r.borders := by
    intro offset
    rw [Session.isSpecial_iff_mark hscan hrecords, hmark, and_comm]
  refine ⟨fun offset slots => ?_, hrecords.coherent.nodup_offsets, hrecords.seeded,
    hrecords.unvisited, hspecial, fun offset => ?_, fun offset htarget => ?_, fun offset => ?_⟩
  · rw [← hrecords.label_iff, seed_mem_allSteps_iff haccepted]
  · rw [hrecords.isTarget_iff, hmark, hspecial, hdescribes.bound_eq, hsize, and_comm]
  · rw [← JumpMask.isStart_iff_startsAt hscan]
    have hadds := (Joins.addRegions_adds hdescribes.bound_eq h).1 offset htarget
    exact hadds.elim (hdescribes.isStart_of_isTarget offset) id
  · unfold JumpMask.isStart
    rw [hrecords.starts_eq]

end Region

end

/-- **The rules for exception regions.** Regions are prepared for scanned code exactly if they obey
the rules. Then the labels are the stacks that the regions require, their borders are marked and are
targets beside those that the scan found, and every target is an instruction. -/
theorem Joins.addRegions_decides {code : Code} {mask : JumpMask}
    (hscan : JumpMask.scan code = .ok mask) (u : Universe) (regions : List Region)
    (maxLabels : Nat) :
    ((∃ j, addRegions ⟨mask, { bound := maxLabels }⟩ u regions = (.ok (), j)) ↔
        Region.Compatible regions u code maxLabels) ∧
      ∀ j, addRegions ⟨mask, { bound := maxLabels }⟩ u regions = (.ok (), j) →
        Region.Prepares regions u code mask j := by
  refine ⟨?_, fun j h => Region.prepares_of_addRegions hscan h⟩
  rw [← Region.feasible_iff_compatible hscan]
  constructor
  · rintro ⟨j, h⟩
    exact (perform_eq_ok h).2
  · intro hfeasible
    rcases perform_feasible (records_empty mask maxLabels) (EntryStep.feasible_nil maxLabels)
        (regions.flatMap fun r => r.steps u mask) with ⟨⟨j, hperform, _⟩, _⟩ | ⟨_, hnot⟩
    · exact ⟨j, hperform⟩
    · exact absurd hfeasible hnot

/-- The three regions of the guarded method require stacks at five offsets, where their try blocks
start the same one. They are prepared with room for five labels, but not for four, and not together
with a cleanup handler where the handler for dogs starts. -/
theorem Joins.addRegions_guarded :
    ∃ mask, JumpMask.scan guarded.code = .ok mask ∧
      (∃ j, addRegions ⟨mask, { bound := 5 }⟩ .dogZoo guarded.regions = (.ok (), j) ∧
        Region.Prepares guarded.regions .dogZoo guarded.code mask j) ∧
      (¬ ∃ j, addRegions ⟨mask, { bound := 4 }⟩ .dogZoo guarded.regions = (.ok (), j)) ∧
      ¬ ∃ j, addRegions ⟨mask, { bound := 5 }⟩ .dogZoo
        (⟨.fault, ⟨0, 3⟩, ⟨10, 3⟩⟩ :: guarded.regions) = (.ok (), j) := by
  obtain ⟨mask, hscan⟩ : ∃ mask, JumpMask.scan guarded.code = .ok mask :=
    exists_of_toBool (by decide +kernel)
  refine ⟨mask, hscan, ?_, fun h => ?_, fun h => ?_⟩
  · obtain ⟨haccepts, hprepares⟩ := addRegions_decides hscan .dogZoo guarded.regions 5
    obtain ⟨j, hj⟩ := haccepts.mpr (by decide +kernel)
    exact ⟨j, hj, hprepares j hj⟩
  · have hrules := (addRegions_decides hscan .dogZoo guarded.regions 4).1.mp h
    exact absurd hrules (by decide +kernel)
  · have hrules := (addRegions_decides hscan .dogZoo _ 5).1.mp h
    exact absurd hrules (by decide +kernel)

end ManagedCode
