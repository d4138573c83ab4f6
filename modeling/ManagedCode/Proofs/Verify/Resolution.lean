import ManagedCode.Proofs.Code.Scan
import ManagedCode.Proofs.Engine.Faults
import ManagedCode.Proofs.Labels.Lookup
import ManagedCode.Proofs.Verify.Regions

set_option autoImplicit false

/-! # Phases of a session, and labels

Each phase of a session looks at its own matters. Scanning looks at the form of the code, exception
regions at their borders, and the pass at stacks and types; what the pass blames lies at an
instruction. When the pass succeeds it has met every place where control can arrive, so the labels
lie exactly at the marked targets and all were reached: no method is rejected for a label that was
not.
-/

namespace ManagedCode

/-! ## Counting labels -/

namespace LabelStore

variable {s : LabelStore}

/-- Labels that lie exactly at the members of a set are as many as these. -/
theorem Coherent.size_eq_count (hs : s.Coherent) {offsets : OffsetSet}
    (h : ∀ offset, (∃ l ∈ s.labels, l.offset = offset) ↔ offsets.contains offset = true) :
    s.size = offsets.count := by
  have hperm : (s.labels.toList.map (·.offset)).Perm offsets.toList := by
    refine (List.perm_ext_iff_of_nodup hs.nodup_offsets (List.nodup_range.filter _)).mpr ?_
    intro offset
    have hlt : offsets.contains offset = true → offset < offsets.bound :=
      OffsetSet.lt_bound_of_contains
    simp only [List.mem_map, Array.mem_toList_iff, List.mem_filter, List.mem_range]
    rw [h offset]
    exact ⟨fun hmem => ⟨hlt hmem, hmem⟩, And.right⟩
  calc s.size = (s.labels.toList.map (·.offset)).length := by simp [size]
    _ = offsets.toList.length := hperm.length_eq
    _ = offsets.count := by
        rw [OffsetSet.count_eq_countP, List.countP_eq_length_filter, OffsetSet.toList]

end LabelStore

/-! ## The pass of a prepared session -/

/-- An instruction of the code starts at the offset. -/
def MethodBody.StartsAt (body : MethodBody) (offset : Nat) : Prop :=
  ∃ i ∈ (disassemble body.code).instructions, i.offset = offset

namespace Session

variable {body : MethodBody} {world : Universe} {options : Options} {joins : Joins}

/-- Everything that is marked before the pass is an instruction. -/
theorem startsAt_of_isTarget (h : prepare body world options = .ok joins) {offset : Nat}
    (htarget : joins.mask.isTarget offset = true) : body.StartsAt offset := by
  obtain ⟨mask, hscan, hregions⟩ := prepare_eq_ok h
  obtain ⟨_, _, hdescribes⟩ := JumpMask.ofListing_eq_ok hscan
  obtain ⟨hmarks, _⟩ := Joins.addRegions_adds hdescribes.bound_eq hregions
  rcases hmarks offset htarget with hmarked | hstart
  · exact hdescribes.starts offset (hdescribes.isStart_of_isTarget offset hmarked)
  · exact hdescribes.starts offset hstart

theorem scanned (h : prepare body world options = .ok joins) :
    ∀ i ∈ (disassemble body.code).instructions,
      Engine.Scanned (context body world options joins) body.StartsAt i := by
  obtain ⟨mask, hscan, hregions⟩ := prepare_eq_ok h
  obtain ⟨_, _, hdescribes⟩ := JumpMask.ofListing_eq_ok hscan
  obtain ⟨_, _, hextends, _⟩ := Joins.addRegions_eq_ok hdescribes.bound_eq hregions
  have hbound : joins.mask.targets.bound = joins.mask.size := by
    rw [hextends.bound_eq, hdescribes.bound_eq, hextends.size_eq]
  intro i hi
  refine ⟨decoded_disassemble body.code i hi, ⟨i, hi, rfl⟩, fun target htarget => ?_⟩
  obtain ⟨offset, heq, hmarked⟩ := hdescribes.targets i hi target htarget
  have hmarked := hextends.isTarget offset hmarked
  have hlt : offset < joins.mask.targets.bound := OffsetSet.lt_bound_of_contains hmarked
  exact ⟨offset, heq, hbound ▸ hlt, hmarked, startsAt_of_isTarget h hmarked⟩

theorem placed_start (h : prepare body world options = .ok joins) :
    let cx := context body world options joins
    Engine.Placed cx body.StartsAt (Engine.start cx joins.labels) := by
  obtain ⟨mask, hscan, hregions⟩ := prepare_eq_ok h
  obtain ⟨_, _, hdescribes⟩ := JumpMask.ofListing_eq_ok hscan
  obtain ⟨hprepared, _⟩ := Joins.addRegions_eq_ok hdescribes.bound_eq hregions
  obtain ⟨_, hwithin⟩ := Joins.addRegions_adds hdescribes.bound_eq hregions
  refine ⟨hprepared.coherent, hwithin, ⟨rfl, Nat.zero_le _, fun _ _ => trivial⟩, ?_⟩
  intro call hcall
  cases hcall

theorem fault_of_prepare (h : prepare body world options = .ok joins) :
    (disassemble body.code).fault = none := by
  obtain ⟨_, hscan, _⟩ := prepare_eq_ok h
  exact (JumpMask.ofListing_eq_ok hscan).1

/-- What the pass of a prepared session can blame. -/
theorem pass_fails (h : prepare body world options = .ok joins) :
    Fails
      (Engine.run (context body world options joins) (disassemble body.code) joins.labels).result
      (Rejection.OfPass body.StartsAt) :=
  Engine.run_fails (fault_of_prepare h) (placed_start h) (scanned h)

/-- Labels lie at marks and nowhere else, and all were reached. -/
structure Resolved (mask : JumpMask) (labels : LabelStore) : Prop where
  coherent : labels.Coherent
  offset_iff : ∀ offset,
    (∃ l ∈ labels.labels, l.offset = offset) ↔ mask.isTarget offset = true
  visited : ∀ l ∈ labels.labels, l.visited = true

/-- **A pass that succeeds has reached every label, and there is one at every mark.** -/
theorem pass_resolves (h : prepare body world options = .ok joins) {final : EngineState}
    (hpass : (Engine.run (context body world options joins) (disassemble body.code)
      joins.labels).result = .ok final) : Resolved joins.mask final.labels := by
  obtain ⟨last, hall, hend⟩ := bind_eq_ok hpass
  rw [fault_of_prepare h] at hend
  obtain ⟨_, _, hend⟩ := bind_eq_ok hend
  cases hend
  obtain ⟨hpath, hinstructions, _⟩ := Engine.visitAll_eq_ok hall
  have hstart := placed_start h
  have hscanned : ∀ v ∈ Engine.visits (context body world options joins)
      (disassemble body.code).instructions
      (Engine.start (context body world options joins) joins.labels),
      Engine.Scanned (context body world options joins) body.StartsAt v.instruction := by
    intro v hv
    refine scanned h v.instruction ?_
    rw [← hinstructions]
    exact List.mem_map_of_mem hv
  have hfinal := hpath.placed hstart hscanned
  have hreached : ∀ offset, joins.mask.isTarget offset = true →
      ∃ l ∈ final.labels.labels, l.offset = offset ∧ l.visited = true := by
    intro offset htarget
    obtain ⟨i, hi, rfl⟩ := startsAt_of_isTarget h htarget
    rw [← hinstructions] at hi
    obtain ⟨v, hv, rfl⟩ := List.mem_map.mp hi
    exact hpath.exists_visited hstart.coherent hv htarget
  refine ⟨hfinal.coherent, fun offset => ⟨?_, fun htarget => ?_⟩, fun l hl => ?_⟩
  · rintro ⟨l, hl, rfl⟩
    exact hfinal.within l hl
  · obtain ⟨l, hl, hoffset, _⟩ := hreached offset htarget
    exact ⟨l, hl, hoffset⟩
  · obtain ⟨l', hl', hoffset, hvisited⟩ := hreached l.offset (hfinal.within l hl)
    rw [hfinal.coherent.offset_inj l hl l' hl' hoffset.symm]
    exact hvisited

/-- The phases before the pass know nothing of labels that were not reached. -/
theorem prepare_fails :
    Fails (prepare body world options) fun e => ∀ offset, e ≠ .unresolvedLabel offset := by
  refine .bind ?_ fun mask => ?_
  · rintro e he offset rfl
    exact JumpMask.scan_eq_error he
  · split
    · rename_i e _ hregions
      have hfails := Joins.addRegions_fails _ world body.regions e (congrArg Prod.fst hregions)
      refine .error ?_
      rintro offset rfl
      exact hfails
    · exact .ok

/-- A session never fails for a label that was not reached. -/
theorem run_fails :
    Fails (run body world options).result fun e => ∀ offset, e ≠ .unresolvedLabel offset := by
  cases hprepare : prepare body world options with
  | error e =>
      rw [run_of_prepare_error hprepare]
      exact .error (prepare_fails e hprepare)
  | ok joins =>
      rw [run_of_prepare hprepare]
      intro e he offset
      rcases bind_eq_error he with hpass | ⟨final, hpass, hconclude⟩
      · rintro rfl
        exact pass_fails hprepare _ hpass
      · have hresolved := pass_resolves hprepare hpass
        unfold conclude at hconclude
        rw [LabelStore.firstUnresolved?_eq_none_iff.mpr hresolved.visited] at hconclude
        cases hconclude

/-- The number of labels of an accepted session is that of the marks. -/
theorem labels_eq_count {a : Acceptance} (h : (run body world options).result = .ok a) :
    ∃ joins, prepare body world options = .ok joins ∧ a.labels = joins.mask.targets.count := by
  cases hprepare : prepare body world options with
  | error e =>
      rw [run_of_prepare_error hprepare] at h
      cases h
  | ok joins =>
      rw [run_of_prepare hprepare] at h
      obtain ⟨final, hpass, hconclude⟩ := bind_eq_ok h
      have hresolved := pass_resolves hprepare hpass
      refine ⟨joins, rfl, ?_⟩
      rw [← hresolved.coherent.size_eq_count hresolved.offset_iff]
      unfold conclude at hconclude
      rw [LabelStore.firstUnresolved?_eq_none_iff.mpr hresolved.visited] at hconclude
      cases hconclude
      rfl

end Session

/-! ## Verification -/

theorem MethodBody.checkLimits_fails (body : MethodBody) :
    Fails body.checkLimits fun e => ∀ offset, e ≠ .unresolvedLabel offset :=
  .bind (.require fun _ => by simp) fun _ => .require fun _ => by simp

/-- A method is rejected for what its session blames, or for too many restarts. -/
theorem attempt_eq_error {session : Session} {maxRestarts restarts : Nat} {backend : Recorder}
    {e : Rejection} (h : (attempt session maxRestarts restarts backend).1 = .error e) :
    session.result = .error e ∨ e = .outOfMemory := by
  fun_induction attempt session maxRestarts restarts backend with
  | case1 restarts backend recorded e' hresult =>
      cases h
      exact .inl hresult
  | case2 => cases h
  | case3 restarts backend recorded a hresult next hfinish hmore ih => exact ih h
  | case4 =>
      cases h
      exact .inr rfl

/-- **The pass blames stacks and types at instructions only, and every label is reached.** Once the
code is scanned and exception regions are prepared, the pass does not blame the form of the code or
of an operand, and what it blames lies at an instruction. When it succeeds, the labels lie exactly
at the marked targets and all were visited. So no method is rejected for a label that was not
reached, and the number of labels that is reported is the number of marked targets. -/
theorem verify_resolves (body : MethodBody) (world : Universe) (options : Options)
    (backend : Recorder) :
    (∀ joins, Session.prepare body world options = .ok joins →
        let pass :=
          Engine.run (Session.context body world options joins) (disassemble body.code) joins.labels
        (∀ e, pass.result = .error e → e.OfPass body.StartsAt) ∧
          ∀ final, pass.result = .ok final →
            (∀ offset, (∃ l ∈ final.labels.labels, l.offset = offset) ↔
              joins.mask.isTarget offset = true) ∧
            ∀ l ∈ final.labels.labels, l.visited = true) ∧
      (∀ offset, (verify body world options backend).1 ≠ .error (.unresolvedLabel offset)) ∧
      ∀ v, (verify body world options backend).1 = .ok v →
        ∃ joins, Session.prepare body world options = .ok joins ∧
          v.labels = joins.mask.targets.count := by
  refine ⟨fun joins hjoins => ⟨Session.pass_fails hjoins, fun final hpass => ?_⟩, ?_, ?_⟩
  · have hresolved := Session.pass_resolves hjoins hpass
    exact ⟨hresolved.offset_iff, hresolved.visited⟩
  · intro offset h
    unfold verify at h
    split at h
    · rename_i e hlimits
      cases h
      exact MethodBody.checkLimits_fails body _ hlimits offset rfl
    · rcases attempt_eq_error h with hsession | hmemory
      · exact Session.run_fails _ hsession offset rfl
      · cases hmemory
  · intro v h
    exact Session.labels_eq_count (verify_figures h)

/-- Takes something off an empty stack: `nop; pop; ret`. -/
def popNothing : MethodBody where
  code := [0x00, 0x26, 0x2A]

/-- There are as many labels as marks in a method with three exception regions, and a method that
takes something off an empty stack is blamed where it does. -/
theorem verify_guarded_resolves :
    (verify guarded .dogZoo {} (.withRestarts 0)).1 = .ok ⟨0, 6, 1⟩ ∧
      (∃ joins, Session.prepare guarded .dogZoo {} = .ok joins ∧ joins.mask.targets.count = 6) ∧
      (Session.run popNothing .core {}).result = .error (.stack 1 .underflow) ∧
      popNothing.StartsAt 1 := by
  have haccepted : (verify guarded .dogZoo {} (.withRestarts 0)).1 = .ok ⟨0, 6, 1⟩ := by
    decide +kernel
  have hrejected : (Session.run popNothing .core {}).result = .error (.stack 1 .underflow) := by
    decide +kernel
  have hprepared : (Session.prepare popNothing .core {}).toBool = true := by decide +kernel
  obtain ⟨_, _, hcount⟩ := verify_resolves guarded .dogZoo {} (.withRestarts 0)
  obtain ⟨hblames, _, _⟩ := verify_resolves popNothing .core {} (.withRestarts 0)
  obtain ⟨joins, hjoins, hlabels⟩ := hcount _ haccepted
  refine ⟨haccepted, ⟨joins, hjoins, hlabels.symm⟩, hrejected, ?_⟩
  cases hprepare : Session.prepare popNothing .core {} with
  | error e =>
      rw [hprepare] at hprepared
      cases hprepared
  | ok joins =>
      rw [Session.run_of_prepare hprepare] at hrejected
      rcases bind_eq_error hrejected with hpass | ⟨final, _, hconclude⟩
      · exact (hblames joins hprepare).1 _ hpass
      · unfold Session.conclude at hconclude
        split at hconclude <;> cases hconclude

end ManagedCode
