import ManagedCode.Proofs.Effect.RawPointers
import ManagedCode.Proofs.Verify.Sessions
import Mathlib.Control.Monad.Basic

set_option autoImplicit false

/-! # Raw pointers only add methods

Whether raw pointers are accepted matters at one place of the pass, where an operation is checked,
and there it only adds effects (`Site.perform_allows`). So two passes over the same code, one
without raw pointers and one with them, go in lock step as long as the first is not rejected:
labels, stacks and directives are the same at every instruction, and at the end so is the answer.
-/

namespace ManagedCode

namespace Engine

/-- The same context, with or without raw pointers. -/
def accepting (cx : Context) (raw : Bool) : Context := { cx with rawPointers := raw }

variable (cx : Context)

theorem rejecting_allows {α : Type} (offset : Nat) {x y : Except Fault α} (h : Allows x y) :
    Allows (rejecting offset x) (rejecting offset y) := by
  intro a ha
  rw [h a (rejecting_eq_ok ha)]
  rfl

theorem arrive_accepting (raw : Bool) (slots : Slots) (targets : List Nat) (labels : LabelStore) :
    arrive (accepting cx raw) slots targets labels = arrive cx slots targets labels := by
  apply arrive_congr
  rfl

theorem execute_allows (pc : Nat) (operation : Operation) (st : EngineState) :
    Allows (execute (accepting cx false) pc operation st)
      (execute (accepting cx true) pc operation st) := by
  refine .bind (rejecting_allows pc ((site cx pc st).perform_allows operation st.stack)) ?_
  intro effect
  rw [arrive_accepting, arrive_accepting]
  exact .refl _

/-- Instructions that are accepted without raw pointers are accepted with them, and send the same
directives. -/
theorem visit_accepting {i : Instruction} {st st' : EngineState} {directives : List Directive}
    (h : visit (accepting cx false) i st = ⟨directives, .ok st'⟩) :
    visit (accepting cx true) i st = ⟨directives, .ok st'⟩ := by
  obtain ⟨entered, operation, henter, hoperation, hwork⟩ := visit_eq_ok h
  rcases hwork with ⟨rfl, rfl, rfl⟩ | ⟨hremark, work, hprocess, rfl⟩
  · unfold visit
    rw [show enter (accepting cx true) i.offset st = .ok st' from henter, hoperation]
    rfl
  · refine visit_of_process henter hoperation hremark ?_
    obtain ⟨htail, hwork⟩ := process_eq_ok hprocess
    rcases hwork with ⟨modifier, rfl, rfl, hadd⟩ | ⟨hmodify, hadmits, directive, hexecute, rfl⟩
    · rw [process_modify modifier htail]
      -- Modifiers are checked without regard to raw pointers.
      exact congrArg (Outcome.mk []) hadd
    · exact process_execute htail hmodify hadmits (execute_allows cx _ _ _ _ hexecute)

theorem visitAll_accepting {sent : Array Directive} {instructions : List Instruction}
    {st st' : EngineState}
    (h : (visitAll (accepting cx false) sent instructions st).result = .ok st') :
    visitAll (accepting cx true) sent instructions st =
      visitAll (accepting cx false) sent instructions st := by
  induction instructions generalizing sent st with
  | nil => rfl
  | cons i rest ih =>
      unfold visitAll at h ⊢
      cases hvisit : visit (accepting cx false) i st with
      | mk directives result =>
          cases result with
          | error e =>
              rw [hvisit] at h
              cases h
          | ok next =>
              rw [hvisit] at h
              rw [visit_accepting cx hvisit]
              exact ih h

theorem run_accepting {listing : Listing} {labels : LabelStore} {st : EngineState}
    (h : (run (accepting cx false) listing labels).result = .ok st) :
    run (accepting cx true) listing labels = run (accepting cx false) listing labels := by
  obtain ⟨last, hpass, _⟩ := bind_eq_ok h
  have hsame := visitAll_accepting cx hpass
  unfold run
  rw [show start (accepting cx true) labels = start (accepting cx false) labels from rfl, hsame]

end Engine

/-- A session that accepts a method without raw pointers runs the same with them. -/
theorem Session.run_rawPointers {body : MethodBody} {world : Universe} {options : Options}
    {a : Acceptance}
    (h : (Session.run body world { options with rawPointers := false }).result = .ok a) :
    Session.run body world { options with rawPointers := true } =
      Session.run body world { options with rawPointers := false } := by
  unfold Session.run at h ⊢
  simp only at h ⊢
  cases hmask : JumpMask.ofListing body.code.length (disassemble body.code) with
  | error e => rfl
  | ok mask =>
      simp only [hmask] at h ⊢
      split
      · rfl
      · rename_i joins hjoins
        simp only [hjoins] at h
        obtain ⟨st, hst, _⟩ := bind_eq_ok h
        have hsame := Engine.run_accepting ⟨world, body, false, joins.mask⟩ hst
        simp only [Engine.accepting] at hsame
        rw [hsame]

/-- **Accepting raw pointers only adds methods.** A method that is verified without them is
verified with them, for the same backend, with the same figures, and the backend has recorded the
same in the end. -/
theorem verify_rawPointers (body : MethodBody) (world : Universe) (options : Options)
    (backend : Recorder) {recorder : Recorder} {v : Verified}
    (h : verify body world { options with rawPointers := false } backend = (.ok v, recorder)) :
    verify body world { options with rawPointers := true } backend = (.ok v, recorder) := by
  rw [← h]
  unfold verify at h ⊢
  cases hlimits : body.checkLimits with
  | error e => rfl
  | ok _ =>
      rw [hlimits] at h
      obtain ⟨a, ha⟩ := attempt_eq_ok (congrArg Prod.fst h)
      simp only
      rw [Session.run_rawPointers ha]

/-- `ldarg.0; ldind.i4; ret`: reads a number through a managed pointer. -/
def readThrough : MethodBody where
  code := [0x02, 0x4A, 0x2A]
  maxStack := 1
  signature := { params := [.byRef (.primitive .int32)], ret := .primitive .int32 }

/-- Reading through a managed pointer needs no raw pointers, and the backend, which asks for one
restart, records the same with them. -/
theorem verify_readThrough_rawPointers :
    (verify readThrough .core {} (.withRestarts 1)).1 = .ok ⟨1, 0, 1⟩ ∧
      verify readThrough .core { rawPointers := true } (.withRestarts 1) =
        verify readThrough .core {} (.withRestarts 1) := by
  have haccepted : (verify readThrough .core {} (.withRestarts 1)).1 = .ok ⟨1, 0, 1⟩ := by
    decide +kernel
  have hpair : verify readThrough .core {} (.withRestarts 1) =
      (.ok ⟨1, 0, 1⟩, (verify readThrough .core {} (.withRestarts 1)).2) :=
    Prod.ext haccepted rfl
  refine ⟨haccepted, ?_⟩
  rw [hpair]
  exact verify_rawPointers readThrough .core {} (.withRestarts 1) hpair

end ManagedCode
