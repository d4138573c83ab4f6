import ManagedCode.Proofs.Code.EntryPoints
import ManagedCode.Proofs.Engine.Invariants
import ManagedCode.Verify

set_option autoImplicit false

/-! # The account of an accepted session

A method is verified only if its session accepts it, and every restart runs the same session. An
accepted session has an account (`Session.Account`): the marks found in the code, the entry points
that exception regions prepared, and the path of visits from the first instruction to the last.
-/

namespace ManagedCode

/-! ## Acceptance -/

/-- Only a session that accepts the method can lead to acceptance, and its figures are the ones
that are reported, however often it was run. -/
theorem attempt_figures {session : Session} {maxRestarts restarts : Nat} {backend : Recorder}
    {v : Verified} (h : (attempt session maxRestarts restarts backend).1 = .ok v) :
    session.result = .ok ⟨v.labels, v.maxStack⟩ := by
  fun_induction attempt session maxRestarts restarts backend with
  | case1 => cases h
  | case2 restarts backend recorded a hresult =>
      cases h
      exact hresult
  | case3 restarts backend recorded a hresult next hfinish hmore ih => exact ih h
  | case4 => cases h

theorem attempt_eq_ok {session : Session} {maxRestarts restarts : Nat} {backend : Recorder}
    {v : Verified} (h : (attempt session maxRestarts restarts backend).1 = .ok v) :
    ∃ a, session.result = .ok a := ⟨_, attempt_figures h⟩

theorem Recorder.pendingRestarts_of_done {r r' : Recorder} (h : r.finish = (.done, r')) :
    r.pendingRestarts = 0 := by
  unfold finish at h
  split at h
  · assumption
  · cases h

theorem Recorder.pendingRestarts_of_restart {r r' : Recorder} (h : r.finish = (.restart, r')) :
    r.pendingRestarts = r'.pendingRestarts + 1 := by
  unfold finish at h
  split at h
  · cases h
  · rename_i hpending
    cases h
    exact hpending

/-- A session that accepts is run again as often as the backend asks for, or given up. -/
theorem attempt_result (session : Session) {maxRestarts restarts : Nat} (backend : Recorder)
    (hle : restarts ≤ maxRestarts) :
    (attempt session maxRestarts restarts backend).1 = (do
      let a ← session.result
      let total := restarts + backend.pendingRestarts
      if total ≤ maxRestarts then return ⟨total, a.labels, a.maxStack⟩
      else .error .outOfMemory) := by
  fun_induction attempt session maxRestarts restarts backend with
  | case1 restarts backend recorded e hresult =>
      rw [hresult]
      rfl
  | case2 restarts backend recorded a hresult next hfinish =>
      have hpending := Recorder.pendingRestarts_of_done hfinish
      change backend.pendingRestarts = 0 at hpending
      rw [hresult, hpending]
      exact (if_pos hle).symm
  | case3 restarts backend recorded a hresult next hfinish hmore ih =>
      have hpending := Recorder.pendingRestarts_of_restart hfinish
      change backend.pendingRestarts = next.pendingRestarts + 1 at hpending
      have htotal : restarts + 1 + next.pendingRestarts = restarts + backend.pendingRestarts := by
        omega
      rw [ih hmore, htotal]
  | case4 restarts backend recorded a hresult next hfinish hmore =>
      have hpending := Recorder.pendingRestarts_of_restart hfinish
      change backend.pendingRestarts = next.pendingRestarts + 1 at hpending
      rw [hresult]
      exact (if_neg (by omega)).symm

/-- The result of a verification, one stage after the other. -/
theorem verify_result (body : MethodBody) (world : Universe) (options : Options)
    (backend : Recorder) :
    (verify body world options backend).1 = (do
      body.checkLimits
      let a ← (Session.run body world options).result
      let total := backend.pendingRestarts
      if total ≤ options.maxRestarts then return ⟨total, a.labels, a.maxStack⟩
      else .error .outOfMemory) := by
  unfold verify
  cases body.checkLimits with
  | error e => rfl
  | ok _ =>
      have hattempt := attempt_result (Session.run body world options) backend
        (Nat.zero_le options.maxRestarts)
      rw [Nat.zero_add] at hattempt
      exact hattempt

theorem verify_figures {body : MethodBody} {world : Universe} {options : Options}
    {backend : Recorder} {v : Verified} (h : (verify body world options backend).1 = .ok v) :
    (Session.run body world options).result = .ok ⟨v.labels, v.maxStack⟩ := by
  unfold verify at h
  split at h
  · cases h
  · exact attempt_figures h

theorem verify_eq_ok {body : MethodBody} {world : Universe} {options : Options}
    {backend : Recorder} {v : Verified} (h : (verify body world options backend).1 = .ok v) :
    ∃ a, (Session.run body world options).result = .ok a := ⟨_, verify_figures h⟩

namespace Session

/-! ## Sessions -/

section Stages

variable {body : MethodBody} {world : Universe} {options : Options}

/-- What comes before the pass: the marks in the code, and the labels and marks that exception
regions make. -/
def prepare (body : MethodBody) (world : Universe) (options : Options) :
    Except Rejection Joins := do
  let mask ← JumpMask.scan body.code
  match Joins.addRegions ⟨mask, { bound := options.maxLabels }⟩ world body.regions with
  | (.error e, _) => .error e
  | (.ok _, joins) => .ok joins

theorem prepare_eq_ok {joins : Joins} (h : prepare body world options = .ok joins) :
    ∃ mask, JumpMask.scan body.code = .ok mask ∧
      Joins.addRegions ⟨mask, { bound := options.maxLabels }⟩ world body.regions =
        (.ok (), joins) := by
  obtain ⟨mask, hmask, h⟩ := bind_eq_ok h
  refine ⟨mask, hmask, ?_⟩
  split at h
  · cases h
  · rename_i hjoins
    cases h
    exact hjoins

theorem prepare_of_scan {mask : JumpMask} {result : Except Rejection Unit} {joins : Joins}
    (hscan : JumpMask.scan body.code = .ok mask)
    (hregions : Joins.addRegions ⟨mask, { bound := options.maxLabels }⟩ world body.regions =
      (result, joins)) :
    prepare body world options = result.map fun _ => joins := by
  refine bind_of_ok hscan ?_
  rw [hregions]
  cases result <;> rfl

/-- The context of a pass. -/
def context (body : MethodBody) (world : Universe) (options : Options) (joins : Joins) : Context :=
  ⟨world, body, options.rawPointers, joins.mask⟩

/-- A session fails before its pass for its code or for its exception regions. -/
theorem prepare_eq_error {e : Rejection} (h : prepare body world options = .error e) :
    JumpMask.ofListing body.code.length (disassemble body.code) = .error e ∨
      ∃ mask joins, JumpMask.ofListing body.code.length (disassemble body.code) = .ok mask ∧
        Joins.addRegions ⟨mask, { bound := options.maxLabels }⟩ world body.regions =
          (.error e, joins) := by
  rcases bind_eq_error h with hscan | ⟨mask, hscan, h⟩
  · exact .inl hscan
  · split at h
    · rename_i joins hregions
      cases h
      exact .inr ⟨mask, joins, hscan, hregions⟩
    · cases h

/-- A session that fails before its pass tells the backend nothing. -/
theorem run_of_prepare_error {e : Rejection} (h : prepare body world options = .error e) :
    run body world options = rejected e := by
  unfold run
  rcases prepare_eq_error h with hscan | ⟨mask, joins, hscan, hregions⟩
  · simp only [hscan]
  · simp only [hscan, hregions]

/-- The pass decides a session that is prepared. -/
theorem run_of_prepare {joins : Joins} (h : prepare body world options = .ok joins) :
    let pass := Engine.run (context body world options joins) (disassemble body.code) joins.labels
    run body world options = ⟨pass.directives, pass.result.bind conclude⟩ := by
  obtain ⟨mask, hscan, hregions⟩ := prepare_eq_ok h
  unfold JumpMask.scan at hscan
  unfold run
  simp only [hscan, hregions]
  rfl

/-- The result of a session, one stage after the other. -/
theorem run_result :
    (run body world options).result = (do
      let joins ← prepare body world options
      let pass := Engine.run (context body world options joins) (disassemble body.code) joins.labels
      let st ← pass.result
      conclude st) := by
  cases h : prepare body world options with
  | error e =>
      rw [run_of_prepare_error h]
      rfl
  | ok joins =>
      rw [run_of_prepare h]
      rfl

/-- Of the state after the pass, only the stack, the number of labels and whether all of them were
reached matter. -/
theorem conclude_agree {st st' : EngineState} (hstack : st.stack = st'.stack)
    (hsize : st.labels.size = st'.labels.size)
    (hresolved : st.labels.firstUnresolved? = none ↔ st'.labels.firstUnresolved? = none) :
    Agree Eq (conclude st) (conclude st') := by
  unfold conclude
  cases hfirst : st.labels.firstUnresolved? with
  | none =>
      rw [hresolved.mp hfirst, hsize, hstack]
      exact .refl _
  | some offset =>
      cases hfirst' : st'.labels.firstUnresolved? with
      | none =>
          rw [hresolved.mpr hfirst'] at hfirst
          cases hfirst
      | some offset' => exact .error _ _

/-- What a session that accepts a method has gone through. -/
theorem run_eq_ok {a : Acceptance} (h : (run body world options).result = .ok a) :
    ∃ mask joins st, JumpMask.ofListing body.code.length (disassemble body.code) = .ok mask ∧
      Joins.addRegions ⟨mask, { bound := options.maxLabels }⟩ world body.regions =
        (.ok (), joins) ∧
      (Engine.run ⟨world, body, options.rawPointers, joins.mask⟩ (disassemble body.code)
        joins.labels).result = .ok st ∧ conclude st = .ok a := by
  unfold run at h
  simp only at h
  split at h
  · cases h
  · rename_i mask hmask
    split at h
    · cases h
    · rename_i joins hjoins
      obtain ⟨st, hst, hconclude⟩ := bind_eq_ok h
      exact ⟨mask, joins, st, hmask, hjoins, hst, hconclude⟩

/-- The other way round: a session that gets to the end of its pass leaves the verdict to the last
state. -/
theorem run_of_ok {mask : JumpMask} {joins : Joins} {st : EngineState}
    {directives : Array Directive}
    (hmask : JumpMask.ofListing body.code.length (disassemble body.code) = .ok mask)
    (hjoins : Joins.addRegions ⟨mask, { bound := options.maxLabels }⟩ world body.regions =
      (.ok (), joins))
    (hpass : Engine.run ⟨world, body, options.rawPointers, joins.mask⟩ (disassemble body.code)
      joins.labels = ⟨directives, .ok st⟩) :
    run body world options = ⟨directives, conclude st⟩ := by
  unfold run
  simp only [hmask, hjoins, hpass]
  rfl

end Stages

/-- The visits of a session; none, if it ends before the first instruction. -/
def visits (body : MethodBody) (world : Universe) (options : Options) : List Visit :=
  let listing := disassemble body.code
  match JumpMask.ofListing body.code.length listing with
  | .error _ => []
  | .ok mask =>
      match Joins.addRegions ⟨mask, { bound := options.maxLabels }⟩ world body.regions with
      | (.error _, _) => []
      | (.ok _, joins) =>
          let cx : Context := ⟨world, body, options.rawPointers, joins.mask⟩
          Engine.visits cx listing.instructions (Engine.start cx joins.labels)

theorem visits_of_prepare {body : MethodBody} {world : Universe} {options : Options} {joins : Joins}
    (h : prepare body world options = .ok joins) :
    let cx := context body world options joins
    visits body world options =
      Engine.visits cx (disassemble body.code).instructions (Engine.start cx joins.labels) := by
  obtain ⟨mask, hscan, hregions⟩ := prepare_eq_ok h
  unfold JumpMask.scan at hscan
  unfold visits
  simp only [hscan, hregions]
  rfl

theorem visits_of_prepare_error {body : MethodBody} {world : Universe} {options : Options}
    {e : Rejection} (h : prepare body world options = .error e) :
    visits body world options = [] := by
  unfold visits
  rcases prepare_eq_error h with hscan | ⟨mask, joins, hscan, hregions⟩
  · simp only [hscan]
  · simp only [hscan, hregions]

/-- What is known of a session that accepted the method. -/
structure Account (body : MethodBody) (world : Universe) (options : Options) where
  mask : JumpMask
  joins : Joins
  final : EngineState
  fault_eq : (disassemble body.code).fault = none
  describes : mask.Describes (disassemble body.code).instructions
  marks : mask.Extends joins.mask
  prepared : joins.Prepared
  typed : joins.labels.Holds Slot.Typed
  entries : ∀ r ∈ body.regions, r.Entries world (Region.EntryPoint mask joins)
  path :
    let cx : Context := ⟨world, body, options.rawPointers, joins.mask⟩
    Engine.Path cx (Engine.start cx joins.labels) (visits body world options) final
  instructions_eq :
    (visits body world options).map (·.instruction) = (disassemble body.code).instructions
  directives_eq :
    (run body world options).directives.toList =
      (visits body world options).flatMap (·.directives)
  checkEnd_eq : Engine.checkEnd final = .ok ()

/-- An accepted session has an account, which starts with what was prepared. -/
theorem exists_account_of_prepare {body : MethodBody} {world : Universe} {options : Options}
    {a : Acceptance} (h : (run body world options).result = .ok a) :
    ∃ account : Account body world options, prepare body world options = .ok account.joins := by
  obtain ⟨mask, joins, final, hmask, hjoins, hpass, _⟩ := run_eq_ok h
  have hrun : run body world options =
      ⟨(Engine.run ⟨world, body, options.rawPointers, joins.mask⟩ (disassemble body.code)
        joins.labels).directives, conclude final⟩ := by
    refine run_of_ok hmask hjoins ?_
    rw [← hpass]
  have hvisits : visits body world options =
      let cx : Context := ⟨world, body, options.rawPointers, joins.mask⟩
      Engine.visits cx (disassemble body.code).instructions (Engine.start cx joins.labels) := by
    unfold visits
    simp only [hmask, hjoins]
  obtain ⟨hfault, _, hdescribes⟩ := JumpMask.ofListing_eq_ok hmask
  obtain ⟨hprepared, htyped, hmarks, hentries⟩ :=
    Joins.addRegions_eq_ok hdescribes.bound_eq hjoins
  obtain ⟨last, hall, hend⟩ := bind_eq_ok hpass
  obtain ⟨hpath, hinstructions, hdirectives⟩ := Engine.visitAll_eq_ok hall
  rw [← hvisits] at hpath hinstructions hdirectives
  simp only [hfault] at hend
  obtain ⟨_, hcheck, hfinal⟩ := bind_eq_ok hend
  cases hfinal
  refine ⟨⟨mask, joins, final, hfault, hdescribes, hmarks, hprepared, htyped, hentries, hpath,
    hinstructions, ?_, hcheck⟩, prepare_of_scan hmask hjoins⟩
  rw [hrun]
  exact hdirectives

/-- **An accepted session has an account.** -/
theorem exists_account {body : MethodBody} {world : Universe} {options : Options}
    {a : Acceptance} (h : (run body world options).result = .ok a) :
    Nonempty (Account body world options) := by
  obtain ⟨account, _⟩ := exists_account_of_prepare h
  exact ⟨account⟩

namespace Account

variable {body : MethodBody} {world : Universe} {options : Options}
  (account : Account body world options)

/-- The context of the pass. -/
def context : Context := ⟨world, body, options.rawPointers, account.joins.mask⟩

/-- The state in which the pass starts. -/
def start : EngineState := Engine.start account.context account.joins.labels

include account in
theorem consecutive :
    Instruction.Consecutive 0 ((visits body world options).map (·.instruction)) := by
  rw [account.instructions_eq]
  exact consecutive_disassemble body.code

include account in
theorem decoded {v : Visit} (hv : v ∈ visits body world options) : v.instruction.Decoded := by
  refine decoded_disassemble body.code v.instruction ?_
  rw [← account.instructions_eq]
  exact List.mem_map_of_mem hv

/-- What visits keep holds before every visit, and the labels there come from those that the
exception regions made. -/
theorem exists_before {Inv : EngineState → Prop} {Rel : LabelStore → LabelStore → Prop}
    (hk : Engine.Kept account.context Inv Rel) (hstart : Inv account.start) {v : Visit}
    (hv : v ∈ visits body world options) :
    ∃ before, Engine.Visited account.context before v ∧ Inv before ∧
      Rel account.joins.labels before.labels :=
  hk.exists_before hstart account.path v hv

/-- At a jump target, control goes on with the snapshot of the label there, however it arrived. -/
theorem exists_joined {v : Visit} (hv : v ∈ visits body world options)
    (htarget : account.context.mask.isTarget v.offset = true) :
    v.entered.afterTransfer = false ∧ v.entered.labels.Coherent ∧
      ∃ l ∈ v.entered.labels.labels,
        l.offset = v.offset ∧ l.visited = true ∧ l.snapshot = v.entry := by
  have hkept := Engine.kept_coherent account.context
  obtain ⟨before, hvisited, hbefore, _⟩ :=
    account.exists_before hkept account.prepared.coherent hv
  obtain ⟨hfall, hlabel⟩ := Engine.enter_target hbefore hvisited.enter_eq htarget
  exact ⟨hfall, (hkept.visited hbefore hvisited).1.1, hlabel⟩

/-- There is a visit wherever an instruction starts. -/
theorem exists_visit {offset : Nat} (h : account.mask.isStart offset = true) :
    ∃ v ∈ visits body world options, v.offset = offset := by
  obtain ⟨i, hi, hoffset⟩ := account.describes.starts offset h
  rw [← account.instructions_eq] at hi
  obtain ⟨v, hv, rfl⟩ := List.mem_map.mp hi
  exact ⟨v, hv, hoffset⟩

/-- What an instruction names as a target is marked, and there is a visit. -/
theorem exists_target {v : Visit} (hv : v ∈ visits body world options) {target : Int}
    (htarget : target ∈ v.instruction.targets) :
    ∃ w ∈ visits body world options, (w.offset : Int) = target ∧
      account.context.mask.isTarget w.offset = true := by
  have hi : v.instruction ∈ (disassemble body.code).instructions := by
    rw [← account.instructions_eq]
    exact List.mem_map_of_mem hv
  obtain ⟨offset, heq, hmarked⟩ := account.describes.targets v.instruction hi target htarget
  obtain ⟨w, hw, rfl⟩ := account.exists_visit (account.describes.isStart_of_isTarget _ hmarked)
  exact ⟨w, hw, heq, account.marks.isTarget _ hmarked⟩

/-- Every instruction of the code stands for an operation that was carried out in some state, unless
it only modifies another instruction or carries a remark. -/
theorem exists_performed {i : Instruction} (hi : i ∈ (disassemble body.code).instructions) :
    ∃ operation, i.operation? = some operation ∧
      (operation ≠ .remark → (∀ modifier, operation ≠ .modify modifier) →
        ∃ (st : EngineState) (effect : Effect),
          (Engine.site account.context i.offset st).perform operation st.stack = .ok effect) := by
  rw [← account.instructions_eq] at hi
  obtain ⟨v, hv, rfl⟩ := List.mem_map.mp hi
  obtain ⟨_, hvisited, _⟩ := account.exists_before
    (Engine.kept_coherent account.context) account.prepared.coherent hv
  obtain ⟨_, operation, hoperation, hwork⟩ := hvisited.work
  refine ⟨operation, hoperation, fun hremark hmodify => ?_⟩
  rcases hwork with ⟨heq, _⟩ | ⟨work, hprocess⟩
  · exact absurd heq hremark
  · obtain ⟨_, ⟨modifier, heq, _⟩ | ⟨_, _, directive, hexecute, _⟩⟩ :=
      Engine.process_eq_ok hprocess
    · exact absurd heq (hmodify modifier)
    · obtain ⟨effect, _, heffect, _⟩ := Engine.execute_eq_ok hexecute
      exact ⟨v.entered, effect, heffect⟩

end Account

end Session

end ManagedCode
