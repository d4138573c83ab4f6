import ManagedCode.Proofs.Verify.Sessions

set_option autoImplicit false

/-! # Leaving a cleanup handler or a filter

A cleanup handler runs to its `endfinally`, and a filter to its `endfilter`. Three instructions that
would take control elsewhere are checked for that: `leave`, `ret` and `jmp`. So in a method that is
verified none of these three leaves such a block.

Branches are not checked, and neither is what follows the last instruction of the block. The method
`escapingFinally` is verified although a branch leads out of its handler.
-/

namespace ManagedCode

/-- The offset lies in a block that is to be left by `endfinally` or `endfilter`: in the handler of
a cleanup region, or in a filter. -/
def Region.confines (r : Region) (offset : Nat) : Bool :=
  (r.kind.isCleanup && r.inHandler offset) || r.inFilter offset

namespace Site

variable {site : Site} {s : Stack} {e : Effect} {r : Region}

theorem inRegion_of_confines (hr : r ∈ site.body.regions)
    (hconfines : r.confines site.offset = true) : site.inRegion = true := by
  refine List.any_eq_true.mpr ⟨r, hr, ?_⟩
  unfold Region.confines at hconfines
  rcases Bool.or_eq_true_iff.mp hconfines with hcleanup | hfilter
  · simp [(Bool.and_eq_true_iff.mp hcleanup).2]
  · simp [hfilter]

theorem ret_outside (h : site.ret s = .ok e) : site.inRegion = false := by
  obtain ⟨_, houtside, _⟩ := bind_eq_ok h
  simpa using require_eq_ok houtside

theorem jump_outside {token : Token} (h : site.jump token s = .ok e) : site.inRegion = false := by
  obtain ⟨_, houtside, _⟩ := bind_eq_ok h
  have hboth := Bool.and_eq_true_iff.mp (require_eq_ok houtside)
  simpa using hboth.2

/-- A `leave` stays in a cleanup handler, and there is none in a filter. -/
theorem leave_confined {target : Int} (h : site.leave target s = .ok e)
    (hr : r ∈ site.body.regions) (hconfines : r.confines site.offset = true) :
    r.inFilter site.offset = false ∧
      ∃ offset : Nat, (offset : Int) = target ∧ r.inHandler offset = true := by
  obtain ⟨offset, hoffset, h⟩ := bind_eq_ok h
  obtain ⟨_, hescapes, _⟩ := bind_eq_ok h
  have hstays : site.leaveEscapes offset = false := by simpa using require_eq_ok hescapes
  have hr' := List.any_eq_false.mp hstays r hr
  simp only [Bool.or_eq_true, Bool.and_eq_true, Bool.not_eq_true', not_or, not_and,
    Bool.not_eq_true, Bool.not_eq_false] at hr'
  obtain ⟨hfilter, hhandler⟩ := hr'
  -- The block is not the filter, so it is the handler.
  have hcleanup : r.kind.isCleanup = true ∧ r.inHandler site.offset = true := by
    simpa [Region.confines, hfilter] using hconfines
  exact ⟨hfilter, offset, targetAt_eq target offset hoffset, hhandler hcleanup⟩

end Site

/-- **No `leave`, `ret` or `jmp` takes control out of a cleanup handler or a filter.** In a method
that is verified, no instruction of such a block returns from the method, and a `leave` there, which
can only be in a handler, leads to an instruction of the same handler. -/
theorem verify_confinement (body : MethodBody) (world : Universe) (options : Options)
    (backend : Recorder) {v : Verified} (h : (verify body world options backend).1 = .ok v)
    {r : Region} (hr : r ∈ body.regions) {i : Instruction}
    (hi : i ∈ (disassemble body.code).instructions) (hconfines : r.confines i.offset = true) :
    i.opcode ≠ .ret ∧ i.opcode ≠ .jmp ∧
      (i.opcode = .leave ∨ i.opcode = .leaveS →
        r.inFilter i.offset = false ∧
          ∀ j ∈ (disassemble body.code).instructions, i.Leads j → r.inHandler j.offset = true) := by
  obtain ⟨a, ha⟩ := verify_eq_ok h
  obtain ⟨account⟩ := Session.exists_account ha
  have hregion : ∀ st, (Engine.site account.context i.offset st).inRegion = true :=
    fun st => Site.inRegion_of_confines hr hconfines
  obtain ⟨operation, hoperation, hperformed⟩ := account.exists_performed hi
  unfold Instruction.operation? at hoperation
  refine ⟨?ret, ?jmp, ?leave⟩
  case ret =>
    intro hopcode
    rw [hopcode] at hoperation
    cases hoperation
    obtain ⟨st, effect, hret⟩ := hperformed nofun nofun
    exact absurd (hregion st) (by simp [Site.ret_outside hret])
  case jmp =>
    intro hopcode
    rw [hopcode] at hoperation
    obtain ⟨token, _, rfl⟩ := Option.map_eq_some_iff.mp hoperation
    obtain ⟨st, effect, hjump⟩ := hperformed nofun nofun
    exact absurd (hregion st) (by simp [Site.jump_outside hjump])
  case leave =>
    intro hopcode
    have hleave : i.target?.map Operation.leave = some operation := by
      rcases hopcode with hopcode | hopcode
      · rwa [hopcode] at hoperation
      · rwa [hopcode] at hoperation
    obtain ⟨target, htarget, rfl⟩ := Option.map_eq_some_iff.mp hleave
    obtain ⟨st, effect, hperform⟩ := hperformed nofun nofun
    obtain ⟨hfilter, offset, hoffset, hstays⟩ := Site.leave_confined hperform hr hconfines
    refine ⟨hfilter, fun j _ hleads => ?_⟩
    have hunconditional : i.opcode.isUnconditional = true := by
      rcases hopcode with hopcode | hopcode
      · rw [hopcode]
        rfl
      · rw [hopcode]
        rfl
    -- A `leave` does not go on to the next instruction, so `j` is at its one target.
    rcases hleads with hmem | ⟨hfalls, _⟩
    · rw [Instruction.targets_of_target? htarget, List.mem_singleton] at hmem
      have hj : j.offset = offset := by omega
      rw [hj]
      exact hstays
    · simp [hunconditional] at hfalls

/-- A handler that has a `leave` for its own `endfinally`. -/
def leavingFinally : MethodBody where
  code := [0x00, 0xDE, 0x03, 0xDE, 0x00, 0xDC, 0x2A]
  maxStack := 1
  regions := [⟨.finally, ⟨0, 3⟩, ⟨3, 3⟩⟩]

/-- The `leave` at offset 3 goes to offset 5, the last of the handler. -/
theorem verify_leavingFinally_confinement :
    (verify leavingFinally .core {} (.withRestarts 0)).1 = .ok ⟨0, 4, 0⟩ ∧
      (disassemble leavingFinally.code).instructions =
        [⟨0, .nop, 1, .none⟩, ⟨1, .leaveS, 2, .branch 6⟩, ⟨3, .leaveS, 2, .branch 5⟩,
          ⟨5, .endfinally, 1, .none⟩, ⟨6, .ret, 1, .none⟩] ∧
      Region.inHandler ⟨.finally, ⟨0, 3⟩, ⟨3, 3⟩⟩ 5 = true := by
  have haccepted : (verify leavingFinally .core {} (.withRestarts 0)).1 = .ok ⟨0, 4, 0⟩ := by
    decide +kernel
  have hlisting : (disassemble leavingFinally.code).instructions =
      [⟨0, .nop, 1, .none⟩, ⟨1, .leaveS, 2, .branch 6⟩, ⟨3, .leaveS, 2, .branch 5⟩,
        ⟨5, .endfinally, 1, .none⟩, ⟨6, .ret, 1, .none⟩] := by
    decide +kernel
  have hleave : ⟨3, .leaveS, 2, .branch 5⟩ ∈ (disassemble leavingFinally.code).instructions := by
    simp [hlisting]
  have hend : ⟨5, .endfinally, 1, .none⟩ ∈ (disassemble leavingFinally.code).instructions := by
    simp [hlisting]
  obtain ⟨_, _, hconfined⟩ := verify_confinement leavingFinally .core {} (.withRestarts 0)
    haccepted (List.mem_singleton_self _) hleave (by decide)
  obtain ⟨_, hstays⟩ := hconfined (.inr rfl)
  exact ⟨haccepted, hlisting, hstays _ hend (.inl (List.mem_singleton_self _))⟩

/-- A handler that ends with a branch to the instruction behind it, where an `endfinally` should
be. -/
def escapingFinally : MethodBody where
  code := [0x00, 0xDE, 0x02, 0x2B, 0x00, 0x2A]
  maxStack := 1
  regions := [⟨.finally, ⟨0, 3⟩, ⟨3, 2⟩⟩]

/-- **A branch may lead out of a cleanup handler.** -/
theorem verify_escapingFinally :
    (verify escapingFinally .core {} (.withRestarts 0)).1 = .ok ⟨0, 3, 0⟩ ∧
      ∃ r ∈ escapingFinally.regions, ∃ i ∈ (disassemble escapingFinally.code).instructions,
        ∃ j ∈ (disassemble escapingFinally.code).instructions,
          i.Leads j ∧ r.confines i.offset = true ∧ r.confines j.offset = false := by
  have haccepted : (verify escapingFinally .core {} (.withRestarts 0)).1 = .ok ⟨0, 3, 0⟩ := by
    decide +kernel
  have hlisting : (disassemble escapingFinally.code).instructions =
      [⟨0, .nop, 1, .none⟩, ⟨1, .leaveS, 2, .branch 5⟩, ⟨3, .brS, 2, .branch 5⟩,
        ⟨5, .ret, 1, .none⟩] := by
    decide +kernel
  rw [hlisting]
  refine ⟨haccepted, _, List.mem_singleton_self _, ⟨3, .brS, 2, .branch 5⟩, by simp,
    ⟨5, .ret, 1, .none⟩, by simp, .inl (List.mem_singleton_self _), ?_, ?_⟩
  · decide
  · decide

end ManagedCode
