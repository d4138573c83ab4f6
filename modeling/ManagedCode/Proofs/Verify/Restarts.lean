import ManagedCode.Proofs.Verify.Protocol
import ManagedCode.Proofs.Verify.Flow

set_option autoImplicit false

/-! # Restarts

A backend may ask for a session again, for example when it has run out of room for its code. It is
asked after each session that succeeds. The limit on restarts counts the sessions after the first,
so a backend that is content after as many restarts as the limit allows is served, and one that
asks once more is given up (`attempt_recorder`). A session that fails is not run again.
-/

namespace ManagedCode

/-! ## Limits -/

/-- The body keeps to the hard limits on code and stack. -/
structure MethodBody.WithinLimits (body : MethodBody) : Prop where
  length_le : body.code.length ≤ Limits.codeLength
  maxStack_le : body.maxStack ≤ Limits.stackHeight

theorem MethodBody.checkLimits_eq_ok_iff {body : MethodBody} :
    body.checkLimits = .ok () ↔ body.WithinLimits := by
  constructor
  · intro h
    obtain ⟨_, hlength, hstack⟩ := bind_eq_ok h
    exact ⟨of_decide_eq_true (require_eq_ok hlength), of_decide_eq_true (require_eq_ok hstack)⟩
  · intro h
    exact bind_of_ok (require_of_true (decide_eq_true h.length_le) _)
      (require_of_true (decide_eq_true h.maxStack_le) _)

theorem MethodBody.exists_of_not_withinLimits {body : MethodBody} (h : ¬ body.WithinLimits) :
    ∃ e, body.checkLimits = .error e := by
  cases hcheck : body.checkLimits with
  | error e => exact ⟨e, rfl⟩
  | ok _ => exact absurd (MethodBody.checkLimits_eq_ok_iff.mp hcheck) h

/-! ## The sessions of a verification -/

/-- A session that fails is the only one, and is abandoned. -/
theorem attempt_of_error {session : Session} {e : Rejection} (h : session.result = .error e)
    (maxRestarts restarts : Nat) (backend : Recorder) :
    attempt session maxRestarts restarts backend =
      (.error e, (backend.setup.recordAll session.directives).abandon) := by
  unfold attempt
  simp only [h]

section

variable {session : Session} {a : Acceptance} (hresult : session.result = .ok a)
  {maxRestarts restarts : Nat} {backend left : Recorder}
include hresult

theorem attempt_of_done
    (hfinish : (backend.setup.recordAll session.directives).finish = (.done, left)) :
    attempt session maxRestarts restarts backend =
      (.ok ⟨restarts, a.labels, a.maxStack⟩, left) := by
  unfold attempt
  simp only [hresult, hfinish]

theorem attempt_of_restart
    (hfinish : (backend.setup.recordAll session.directives).finish = (.restart, left)) :
    attempt session maxRestarts restarts backend =
      if restarts < maxRestarts then attempt session maxRestarts (restarts + 1) left
      else (.error .outOfMemory, left.abandon) := by
  rw [attempt]
  simp only [hresult, hfinish]

end

theorem Recorder.finish_setups (r : Recorder) : r.finish.2.setups = r.setups := by
  unfold finish
  split <;> rfl

theorem Recorder.finish_abandoned (r : Recorder) : r.finish.2.abandoned = r.abandoned := by
  unfold finish
  split <;> rfl

/-- A session that succeeds is run once, and then for each restart asked for as long as there is
one left. It is abandoned in the end exactly if the backend asks for more. -/
theorem attempt_recorder {session : Session} {a : Acceptance} (hresult : session.result = .ok a)
    {maxRestarts restarts : Nat} (backend : Recorder) (hle : restarts ≤ maxRestarts) :
    let recorder := (attempt session maxRestarts restarts backend).2
    recorder.setups =
        backend.setups + min backend.pendingRestarts (maxRestarts - restarts) + 1 ∧
      recorder.abandoned = decide (maxRestarts < restarts + backend.pendingRestarts) := by
  fun_induction attempt session maxRestarts restarts backend with
  | case1 restarts backend recorded e hfailed => cases hresult.symm.trans hfailed
  | case2 restarts backend recorded a' _ next hfinish =>
      have hpending := Recorder.pendingRestarts_of_done hfinish
      change backend.pendingRestarts = 0 at hpending
      have hsetups := recorded.finish_setups
      have habandoned := recorded.finish_abandoned
      rw [hfinish] at hsetups habandoned
      refine ⟨hsetups.trans ?_, habandoned.trans ?_⟩
      · rw [hpending, Nat.zero_min]
        rfl
      · rw [hpending]
        exact (decide_eq_false (by omega)).symm
  | case3 restarts backend recorded a' _ next hfinish hmore ih =>
      have hpending := Recorder.pendingRestarts_of_restart hfinish
      change backend.pendingRestarts = next.pendingRestarts + 1 at hpending
      have hsetups := recorded.finish_setups
      rw [hfinish] at hsetups
      change next.setups = backend.setups + 1 at hsetups
      obtain ⟨ihsetups, ihabandoned⟩ := ih hmore
      refine ⟨ihsetups.trans (by omega), ihabandoned.trans (decide_eq_decide.mpr ?_)⟩
      omega
  | case4 restarts backend recorded a' _ next hfinish hmore =>
      have hpending := Recorder.pendingRestarts_of_restart hfinish
      change backend.pendingRestarts = next.pendingRestarts + 1 at hpending
      have hsetups := recorded.finish_setups
      rw [hfinish] at hsetups
      change next.setups = backend.setups + 1 at hsetups
      refine ⟨hsetups.trans (by omega), ?_⟩
      exact (decide_eq_true (by omega)).symm

/-- At least one session begins, and at most one for each restart besides. -/
theorem attempt_setups (session : Session) {maxRestarts restarts : Nat} (backend : Recorder)
    (hle : restarts ≤ maxRestarts) :
    let recorder := (attempt session maxRestarts restarts backend).2
    backend.setups < recorder.setups ∧
      recorder.setups ≤
        backend.setups + min backend.pendingRestarts (maxRestarts - restarts) + 1 := by
  cases hresult : session.result with
  | error e =>
      have hsetups : (attempt session maxRestarts restarts backend).2.setups =
          backend.setups + 1 := by
        rw [attempt_of_error hresult]
        rfl
      omega
  | ok a =>
      obtain ⟨hsetups, _⟩ := attempt_recorder hresult backend hle
      omega

/-- **A session is run once more for each restart, up to the limit.** Within the hard limits, a
session that fails decides the verification at once: it is the only one, and the backend is told to
abandon it. A session that succeeds is run again as often as the backend asks. If that is no more
often than the limit, the method is verified with the figures of the session, and the backend has
recorded the lines of one session. If it is more often, the verification runs out of memory after
as many restarts as the limit allows, and the last session is abandoned. Beyond the hard limits no
session begins and none is abandoned. -/
theorem verify_restarts (body : MethodBody) (world : Universe) (options : Options) (n : Nat) :
    let session := Session.run body world options
    let outcome := verify body world options (.withRestarts n)
    (body.WithinLimits →
      (∀ e, session.result = .error e →
        outcome.1 = .error e ∧ outcome.2.setups = 1 ∧ outcome.2.abandoned = true) ∧
      ∀ a, session.result = .ok a →
        (n ≤ options.maxRestarts →
          outcome.1 = .ok ⟨n, a.labels, a.maxStack⟩ ∧ outcome.2.setups = n + 1 ∧
            outcome.2.abandoned = false ∧
            outcome.2.lines = session.directives.map Directive.render) ∧
        (options.maxRestarts < n →
          outcome.1 = .error .outOfMemory ∧ outcome.2.setups = options.maxRestarts + 1 ∧
            outcome.2.abandoned = true)) ∧
    (¬ body.WithinLimits →
      (∃ e, outcome.1 = .error e) ∧ outcome.2.setups = 0 ∧ outcome.2.abandoned = false) := by
  intro session outcome
  refine ⟨fun hlimits => ?_, fun hlimits => ?_⟩
  · have hattempt : outcome = attempt session options.maxRestarts 0 (.withRestarts n) := by
      simp only [outcome, verify, MethodBody.checkLimits_eq_ok_iff.mpr hlimits]
      rfl
    refine ⟨fun e he => ?_, fun a ha => ?_⟩
    · rw [hattempt, attempt_of_error he]
      exact ⟨rfl, rfl, rfl⟩
    · have hzero : 0 ≤ options.maxRestarts := Nat.zero_le _
      have hresult := attempt_result session (.withRestarts n) hzero
      obtain ⟨hsetups, habandoned⟩ := attempt_recorder ha (.withRestarts n) hzero
      rw [← hattempt, ha, Nat.zero_add] at hresult
      rw [← hattempt] at hsetups
      rw [← hattempt, Nat.zero_add] at habandoned
      change outcome.2.setups = 0 + min n options.maxRestarts + 1 at hsetups
      refine ⟨fun hle => ⟨hresult.trans (if_pos hle), by omega, ?_, ?_⟩,
        fun hlt => ⟨hresult.trans (if_neg (Nat.not_le.mpr hlt)), by omega, ?_⟩⟩
      · exact habandoned.trans (decide_eq_false (Nat.not_lt.mpr hle))
      · unfold Recorder.lines
        rw [hattempt, attempt_directives]
      · exact habandoned.trans (decide_eq_true hlt)
  · obtain ⟨e, he⟩ := MethodBody.exists_of_not_withinLimits hlimits
    have houtcome : outcome = (.error e, .withRestarts n) := by
      simp only [outcome, verify, he]
    rw [houtcome]
    exact ⟨⟨e, rfl⟩, rfl, rfl⟩

/-- With one restart allowed, a backend that asks once is served with the second session, and one
that asks twice is given up after it. -/
theorem verify_visitPets_restarts :
    visitPets.WithinLimits ∧
      (Session.run visitPets .zoo { maxRestarts := 1 }).result = .ok ⟨2, 2⟩ ∧
      (let served := verify visitPets .zoo { maxRestarts := 1 } (.withRestarts 1)
      served.1 = .ok ⟨1, 2, 2⟩ ∧ served.2.setups = 2 ∧ served.2.abandoned = false ∧
        served.2.lines = (Session.run visitPets .zoo { maxRestarts := 1 }).directives.map
          Directive.render) ∧
      let refused := verify visitPets .zoo { maxRestarts := 1 } (.withRestarts 2)
      refused.1 = .error .outOfMemory ∧ refused.2.setups = 2 ∧ refused.2.abandoned = true := by
  have hlimits : visitPets.WithinLimits := ⟨by decide +kernel, by decide +kernel⟩
  have hsession : (Session.run visitPets .zoo { maxRestarts := 1 }).result = .ok ⟨2, 2⟩ := by
    decide +kernel
  obtain ⟨_, honce⟩ := (verify_restarts visitPets .zoo { maxRestarts := 1 } 1).1 hlimits
  obtain ⟨_, htwice⟩ := (verify_restarts visitPets .zoo { maxRestarts := 1 } 2).1 hlimits
  exact ⟨hlimits, hsession, (honce _ hsession).1 (by decide), (htwice _ hsession).2 (by decide)⟩

end ManagedCode
