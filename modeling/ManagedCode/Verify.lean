import ManagedCode.Engine
import ManagedCode.Recorder

set_option autoImplicit false

/-! # Verification

A session is one look at a method from beginning to end: find the jump targets, prepare the entry
points of exception regions, pass over the instructions, and see that every label was reached. It
depends on nothing but the method, the universe and the options, so running it again gives the
same result. `verify` runs it as often as the backend asks for, up to a limit.
-/

namespace ManagedCode

/-- What is known of a method that was accepted in a session. -/
structure Acceptance where
  /-- Number of labels. -/
  labels : Nat
  /-- Greatest height of the evaluation stack. -/
  maxStack : Nat
  deriving DecidableEq

/-- A session: what the backend was told, and how it ended. -/
structure Session where
  directives : Array Directive
  result : Except Rejection Acceptance

namespace Session

/-- A session that ended before the backend was told anything. -/
def rejected (e : Rejection) : Session := ⟨#[], .error e⟩

/-- Every label was reached. -/
def conclude (st : EngineState) : Except Rejection Acceptance :=
  match st.labels.firstUnresolved? with
  | some offset => .error (.unresolvedLabel offset)
  | none => .ok ⟨st.labels.size, st.stack.highWater⟩

/-- Runs a session. -/
def run (body : MethodBody) (world : Universe) (options : Options) : Session :=
  let listing := disassemble body.code
  match JumpMask.ofListing body.code.length listing with
  | .error e => rejected e
  | .ok mask =>
      match Joins.addRegions ⟨mask, { bound := options.maxLabels }⟩ world body.regions with
      | (.error e, _) => rejected e
      | (.ok _, joins) =>
          let cx : Context := ⟨world, body, options.rawPointers, joins.mask⟩
          let pass := Engine.run cx listing joins.labels
          ⟨pass.directives, pass.result.bind conclude⟩

end Session

/-- A method that was verified. -/
structure Verified where
  /-- How often the session was run again. -/
  restarts : Nat
  labels : Nat
  maxStack : Nat
  deriving DecidableEq

/-- Runs a session for the backend, and again when it asks for that, up to `maxRestarts` times. -/
def attempt (session : Session) (maxRestarts restarts : Nat) (backend : Recorder) :
    Except Rejection Verified × Recorder :=
  let backend := backend.setup.recordAll session.directives
  match session.result with
  | .error e => (.error e, backend.abandon)
  | .ok a =>
      match backend.finish with
      | (.done, backend) => (.ok ⟨restarts, a.labels, a.maxStack⟩, backend)
      | (.restart, backend) =>
          if restarts < maxRestarts then attempt session maxRestarts (restarts + 1) backend
          else (.error .outOfMemory, backend.abandon)
termination_by maxRestarts - restarts

/-- Verifies a method for a backend. A method beyond the limits is rejected before the backend
hears of it. -/
def verify (body : MethodBody) (world : Universe) (options : Options) (backend : Recorder) :
    Except Rejection Verified × Recorder :=
  match body.checkLimits with
  | .error e => (.error e, backend)
  | .ok _ => attempt (Session.run body world options) options.maxRestarts 0 backend

end ManagedCode
