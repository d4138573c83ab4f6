import ManagedCode.Proofs.Code.Words
import ManagedCode.Proofs.Verify.Restarts
import ManagedCode.Proofs.Verify.Thresholds

set_option autoImplicit false

/-! # Counting in machine words

Sessions and restarts are counted in words of 32 bits, and labels in words of 64. `Words.verify`
counts like that, and a counter that has no room for one more is a trap. It does what `verify` does
as long as the sessions that `verify` counts fit into a word, and it traps if they do not
(`Words.verify_eq`). The counter of sessions is the only one that can be exceeded: a backend cannot
ask for more restarts than its word has room for, and all other figures are bounded by the limits
and the options. A new backend exceeds it only if it asks for `2 ^ 32 - 1` restarts and all of them
are granted (`Words.verify_withRestarts`).
-/

namespace ManagedCode

namespace Words

/-! ## The machine -/

/-- One more than a counter says. -/
def increment (n : UInt32) : Except Trap UInt32 :=
  if n.toNat + 1 < 2 ^ 32 then .ok (n + 1) else .error (.tooWide (2 ^ 32))

/-- How a method is verified. -/
structure Options where
  rawPointers : Bool := false
  maxRestarts : UInt32 := 8
  maxLabels : UInt64 := 65536

/-- A backend that records directives. -/
structure Recorder where
  directives : Array Directive := #[]
  pendingRestarts : UInt32 := 0
  setups : UInt32 := 0
  abandoned : Bool := false

/-- A method that was verified. -/
structure Verified where
  restarts : UInt32
  labels : UInt64
  maxStack : UInt32

namespace Recorder

def withRestarts (count : UInt32) : Recorder := { pendingRestarts := count }

def setup (r : Recorder) : Except Trap Recorder := do
  return { r with directives := #[], setups := ← increment r.setups, abandoned := false }

def recordAll (r : Recorder) (ds : Array Directive) : Recorder :=
  { r with directives := r.directives ++ ds }

def finish (r : Recorder) : Verdict × Recorder :=
  if 0 < r.pendingRestarts then
    (.restart, { r with pendingRestarts := r.pendingRestarts - 1 })
  else (.done, r)

def abandon (r : Recorder) : Recorder := { r with abandoned := true }

end Recorder

/-! ## What the words stand for -/

def Options.view (options : Options) : ManagedCode.Options :=
  ⟨options.rawPointers, options.maxRestarts.toNat, options.maxLabels.toNat⟩

def Recorder.view (r : Recorder) : ManagedCode.Recorder :=
  ⟨r.directives, r.pendingRestarts.toNat, r.setups.toNat, r.abandoned⟩

def Verified.view (v : Verified) : ManagedCode.Verified :=
  ⟨v.restarts.toNat, v.labels.toNat, v.maxStack.toNat⟩

/-- The outcome of a verification. -/
def view (outcome : Except Rejection Verified × Recorder) :
    Except Rejection ManagedCode.Verified × ManagedCode.Recorder :=
  (outcome.1.map Verified.view, outcome.2.view)

/-! ## Operations on counters -/

theorem increment_eq_ok {n m : UInt32} (h : increment n = .ok m) : m.toNat = n.toNat + 1 := by
  unfold increment at h
  split at h
  · rename_i hroom
    cases h
    rw [UInt32.toNat_add, UInt32.toNat_one]
    exact Nat.mod_eq_of_lt hroom
  · cases h

theorem increment_eq_error {n : UInt32} {trap : Trap} (h : increment n = .error trap) :
    n.toNat + 1 = 2 ^ 32 ∧ trap = .tooWide (2 ^ 32) := by
  have hlt := n.toNat_lt
  unfold increment at h
  split at h
  · cases h
  · cases h
    exact ⟨by omega, rfl⟩

namespace Recorder

theorem setup_eq_ok {r recorded : Recorder} (h : r.setup = .ok recorded) :
    recorded.view = r.view.setup := by
  obtain ⟨setups, hsetups, h⟩ := bind_eq_ok h
  cases h
  simp only [view, ManagedCode.Recorder.setup, increment_eq_ok hsetups]

theorem setup_eq_error {r : Recorder} {trap : Trap} (h : r.setup = .error trap) :
    r.view.setups + 1 = 2 ^ 32 ∧ trap = .tooWide (2 ^ 32) := by
  rcases bind_eq_error h with hsetups | ⟨_, _, h⟩
  · exact increment_eq_error hsetups
  · cases h

theorem finish_view (r : Recorder) : r.view.finish = (r.finish.1, r.finish.2.view) := by
  by_cases hpending : 0 < r.pendingRestarts
  · have hlt : 0 < r.pendingRestarts.toNat := hpending
    have hsucc : r.pendingRestarts.toNat = (r.pendingRestarts - 1).toNat + 1 := by
      rw [UInt32.toNat_sub_of_le _ _ hpending, UInt32.toNat_one]
      omega
    simp only [finish, if_pos hpending, ManagedCode.Recorder.finish, view]
    rw [hsucc]
  · have hzero : r.pendingRestarts.toNat = 0 := by
      have hle := mt UInt32.lt_iff_toNat_lt.mpr hpending
      simpa using hle
    simp only [finish, if_neg hpending, ManagedCode.Recorder.finish, view, hzero]

end Recorder

/-! ## Verification -/

/-- What a backend says after a session. -/
theorem Recorder.finish_of_setup {backend recorded left : Recorder} {verdict : Verdict}
    (hsetup : backend.setup = .ok recorded) {ds : Array Directive}
    (hfinish : (recorded.recordAll ds).finish = (verdict, left)) :
    (backend.view.setup.recordAll ds).finish = (verdict, left.view) := by
  have hview := (recorded.recordAll ds).finish_view
  rw [hfinish] at hview
  rw [← setup_eq_ok hsetup]
  exact hview

/-- A backend that asks for a restart has one less left. -/
theorem Recorder.pendingRestarts_of_restart {backend recorded left : Recorder}
    (hsetup : backend.setup = .ok recorded) {ds : Array Directive}
    (hfinish : (recorded.recordAll ds).finish = (.restart, left)) :
    left.pendingRestarts.toNat + 1 = backend.pendingRestarts.toNat :=
  (ManagedCode.Recorder.pendingRestarts_of_restart (finish_of_setup hsetup hfinish)).symm

/-- Runs a session for the backend, and again when it asks for that, up to `maxRestarts` times. -/
def attempt (session : Session) (maxRestarts restarts : UInt32) (backend : Recorder) :
    Except Trap (Except Rejection Verified × Recorder) :=
  match _ : backend.setup with
  | .error trap => .error trap
  | .ok recorded =>
      match session.result with
      | .error e => .ok (.error e, (recorded.recordAll session.directives).abandon)
      | .ok a =>
          match _ : (recorded.recordAll session.directives).finish with
          | (.done, left) =>
              .ok (.ok ⟨restarts, a.labels.toUInt64, a.maxStack.toUInt32⟩, left)
          | (.restart, left) =>
              match increment restarts with
              | .error trap => .error trap
              | .ok restarts =>
                  if maxRestarts < restarts then .ok (.error .outOfMemory, left.abandon)
                  else attempt session maxRestarts restarts left
termination_by backend.pendingRestarts.toNat
decreasing_by
  exact Nat.lt_of_succ_le (Recorder.pendingRestarts_of_restart ‹_› ‹_›).le

/-- Verifies a method for a backend. -/
def verify (body : MethodBody) (world : Universe) (options : Options) (backend : Recorder) :
    Except Trap (Except Rejection Verified × Recorder) :=
  match body.checkLimits with
  | .error e => .ok (.error e, backend)
  | .ok _ => attempt (Session.run body world options.view) options.maxRestarts 0 backend

/-- What the machine has counted fits into a word. -/
theorem map_view_ok (outcome : Except Rejection Verified × Recorder) (trap : Trap) :
    (Except.ok outcome).map view =
      if (view outcome).2.setups < 2 ^ 32 then .ok (view outcome) else .error trap := by
  have hcounted : (view outcome).2.setups < 2 ^ 32 := outcome.2.setups.toNat_lt
  rw [if_pos hcounted]
  rfl

/-- **Sessions are counted alike as long as the count fits into a word.** -/
theorem attempt_eq {session : Session}
    (hfigures : ∀ a, session.result = .ok a → a.labels < 2 ^ 64 ∧ a.maxStack < 2 ^ 32)
    {maxRestarts restarts : UInt32} (backend : Recorder)
    (hle : restarts.toNat ≤ maxRestarts.toNat)
    (hroom : restarts.toNat + backend.pendingRestarts.toNat < 2 ^ 32) :
    let outcome := ManagedCode.attempt session maxRestarts.toNat restarts.toNat backend.view
    (attempt session maxRestarts restarts backend).map view =
      if outcome.2.setups < 2 ^ 32 then .ok outcome else .error (.tooWide (2 ^ 32)) := by
  intro outcome
  fun_induction attempt session maxRestarts restarts backend with
  | case1 restarts backend trap hsetup =>
      -- The machine traps at the first session that it cannot count.
      obtain ⟨hfull, rfl⟩ := Recorder.setup_eq_error hsetup
      have hmore : backend.view.setups < outcome.2.setups :=
        (attempt_setups session backend.view hle).1
      rw [if_neg (by omega)]
      rfl
  | case2 restarts backend recorded hsetup e hresult =>
      have houtcome : outcome =
          view (.error e, (recorded.recordAll session.directives).abandon) := by
        refine (attempt_of_error hresult _ _ _).trans ?_
        rw [← Recorder.setup_eq_ok hsetup]
        rfl
      rw [houtcome]
      exact map_view_ok _ _
  | case3 restarts backend recorded hsetup a hresult left hfinish =>
      obtain ⟨hlabels, hstack⟩ := hfigures a hresult
      have hserved := Recorder.finish_of_setup hsetup hfinish
      have houtcome : outcome =
          view (.ok ⟨restarts, a.labels.toUInt64, a.maxStack.toUInt32⟩, left) := by
        refine (attempt_of_done hresult hserved).trans ?_
        simp only [view, Except.map, Verified.view, UInt64.toNat_ofNat_of_lt' hlabels,
          UInt32.toNat_ofNat_of_lt' hstack, Nat.toUInt64, Nat.toUInt32]
      rw [houtcome]
      exact map_view_ok _ _
  | case4 restarts backend recorded hsetup a hresult left hfinish trap hincrement =>
      obtain ⟨hfull, _⟩ := increment_eq_error hincrement
      have hfewer := Recorder.pendingRestarts_of_restart hsetup hfinish
      omega
  | case5 restarts backend recorded hsetup a hresult left hfinish next hincrement hmore =>
      have hnext := increment_eq_ok hincrement
      have hserved := Recorder.finish_of_setup hsetup hfinish
      have hlast : ¬ restarts.toNat < maxRestarts.toNat := by
        have hlt := UInt32.lt_iff_toNat_lt.mp hmore
        omega
      have houtcome : outcome = view (.error .outOfMemory, left.abandon) :=
        (attempt_of_restart hresult hserved).trans (if_neg hlast)
      rw [houtcome]
      exact map_view_ok _ _
  | case6 restarts backend recorded hsetup a hresult left hfinish next hincrement hmore ih =>
      have hnext := increment_eq_ok hincrement
      have hfewer := Recorder.pendingRestarts_of_restart hsetup hfinish
      have hserved := Recorder.finish_of_setup hsetup hfinish
      have hlt : restarts.toNat < maxRestarts.toNat := by
        have hnot := mt UInt32.lt_iff_toNat_lt.mpr hmore
        omega
      have houtcome : outcome =
          ManagedCode.attempt session maxRestarts.toNat next.toNat left.view := by
        rw [hnext]
        exact (attempt_of_restart hresult hserved).trans (if_pos hlt)
      rw [houtcome]
      exact ih (by omega) (by omega)

/-- **Verification counts alike as long as the sessions fit into a word, and traps if they do
not.** -/
theorem verify_eq (body : MethodBody) (world : Universe) (options : Options) (backend : Recorder) :
    let outcome := ManagedCode.verify body world options.view backend.view
    (verify body world options backend).map view =
      if outcome.2.setups < 2 ^ 32 then .ok outcome else .error (.tooWide (2 ^ 32)) := by
  intro outcome
  cases hlimits : body.checkLimits with
  | error e =>
      have houtcome : outcome = view (.error e, backend) := by
        simp only [outcome, ManagedCode.verify, hlimits]
        rfl
      rw [houtcome]
      simp only [verify, hlimits]
      exact map_view_ok _ _
  | ok _ =>
      have houtcome : outcome = ManagedCode.attempt (Session.run body world options.view)
          options.maxRestarts.toNat (0 : UInt32).toNat backend.view := by
        simp only [outcome, ManagedCode.verify, hlimits]
        rfl
      have hfigures : ∀ a, (Session.run body world options.view).result = .ok a →
          a.labels < 2 ^ 64 ∧ a.maxStack < 2 ^ 32 := by
        intro a ha
        obtain ⟨⟨hstack, hlabels⟩, _⟩ := Session.run_bounded ha
        have hheight := (MethodBody.checkLimits_eq_ok_iff.mp hlimits).maxStack_le
        have hbound : options.view.maxLabels < 2 ^ 64 := options.maxLabels.toNat_lt
        have hlimit : Limits.stackHeight < 2 ^ 32 := by decide
        exact ⟨by omega, by omega⟩
      have hroom : (0 : UInt32).toNat + backend.pendingRestarts.toNat < 2 ^ 32 := by
        have hlt := backend.pendingRestarts.toNat_lt
        simpa using hlt
      rw [houtcome]
      simp only [verify, hlimits]
      exact attempt_eq hfigures backend (Nat.zero_le _) hroom

/-- **A new backend is always served like that**, unless it asks for as many restarts as a word has
room for and is granted all of them. -/
theorem verify_withRestarts (body : MethodBody) (world : Universe) (options : Options) (n : UInt32)
    (h : n.toNat + 1 < 2 ^ 32 ∨ options.maxRestarts.toNat + 1 < 2 ^ 32) :
    (verify body world options (.withRestarts n)).map view =
      .ok (ManagedCode.verify body world options.view (.withRestarts n.toNat)) := by
  have hcounted :
      (ManagedCode.verify body world options.view (.withRestarts n.toNat)).2.setups < 2 ^ 32 := by
    unfold ManagedCode.verify
    split
    · exact Nat.two_pow_pos 32
    · have hsetups := (attempt_setups (Session.run body world options.view)
        (ManagedCode.Recorder.withRestarts n.toNat) (Nat.zero_le options.view.maxRestarts)).2
      simp only [ManagedCode.Recorder.withRestarts, Options.view] at hsetups ⊢
      omega
  have hsame := verify_eq body world options (.withRestarts n)
  exact hsame.trans (if_pos hcounted)

end Words

end ManagedCode
