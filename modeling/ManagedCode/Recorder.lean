import ManagedCode.Directive

set_option autoImplicit false

/-! # Recorders

A backend that only writes down what it is told. It can be made to ask for a restart of the
session a number of times before it is content, as a backend does that runs out of room for its
code.
-/

namespace ManagedCode

/-- What a backend says at the end of a session. -/
inductive Verdict where
  | done
  /-- The session must be run again. -/
  | restart
  deriving DecidableEq

/-- The text of a verdict. -/
def Verdict.describe : Verdict → String
  | .done => "Done"
  | .restart => "Restart"

/-- A backend that records directives. -/
structure Recorder where
  /-- What was recorded since the last session began. -/
  directives : Array Directive := #[]
  /-- How many more restarts will be asked for. -/
  pendingRestarts : Nat := 0
  /-- How many sessions have begun. -/
  setups : Nat := 0
  /-- The last session failed. -/
  abandoned : Bool := false

namespace Recorder

/-- A recorder that asks for `count` restarts. -/
def withRestarts (count : Nat) : Recorder := { pendingRestarts := count }

/-- A session begins. -/
def setup (r : Recorder) : Recorder :=
  { r with directives := #[], setups := r.setups + 1, abandoned := false }

/-- Writes a directive down. -/
def record (r : Recorder) (d : Directive) : Recorder :=
  { r with directives := r.directives.push d }

/-- Writes directives down. -/
def recordAll (r : Recorder) (ds : Array Directive) : Recorder :=
  { r with directives := r.directives ++ ds }

/-- A session ends well. -/
def finish (r : Recorder) : Verdict × Recorder :=
  match r.pendingRestarts with
  | 0 => (.done, r)
  | n + 1 => (.restart, { r with pendingRestarts := n })

/-- A session has failed. -/
def abandon (r : Recorder) : Recorder := { r with abandoned := true }

/-- The lines recorded. -/
def lines (r : Recorder) : Array String := r.directives.map Directive.render

end Recorder

end ManagedCode
