import ManagedCode.JumpMask
import ManagedCode.LabelStore
import ManagedCode.Region

set_option autoImplicit false

/-! # Entry points of exception regions

The borders of an exception region are places where control may arrive, and its blocks start with
a stack of their own: a try block and a cleanup handler with an empty one, a catch handler with
the exception, a filter and its handler with an exception of the base class.

What a region asks for is a list of steps, `Region.steps`, which depends only on where
instructions start. `Joins.perform` carries steps out one after the other until one cannot be
carried out; what was done before stays.
-/

namespace ManagedCode

/-- Something that an exception region asks for. -/
inductive EntryStep where
  /-- Control may arrive at the offset. -/
  | mark (offset : Nat)
  /-- Control arrives at the offset with this stack. -/
  | seed (offset : Nat) (snapshot : Slots)
  /-- The region breaks a rule. -/
  | refuse (reason : Rejection)
  deriving DecidableEq

/-- A block must not be empty, must lie in the code, and must start and end between
instructions. -/
def Span.check (s : Span) (mask : JumpMask) : Except Rejection Unit := do
  require (s.length ≠ 0) (.branchOutOfRange s.start s.start)
  require (s.stop ≤ mask.size) (.branchOutOfRange s.start s.stop)
  require (mask.isBoundary s.start) (.branchOutOfRange s.start s.start)
  require (mask.isBoundary s.stop) (.branchOutOfRange s.start s.stop)

namespace Region

/-- What the handler of a region asks for. -/
def handlerSteps (r : Region) (u : Universe) (mask : JumpMask) : List EntryStep :=
  let entry := r.handler.start
  match r.kind with
  | .catchType token =>
      match (u.type? token).filter fun ty => ty.isReference && u.isAccessible ty with
      | some ty => [.seed entry [.object ty]]
      | none => [.refuse (.type entry (some .catchType))]
  | .filter start =>
      let exception := Ty.ref WellKnown.exception.id
      if entry ≤ start || !mask.isStart start then [.refuse (.branchOutOfRange entry start)]
      else if !u.isAccessible exception then
        [.refuse (.type start (some .exceptionType))]
      else [.mark start, .seed start [.object exception], .seed entry [.object exception]]
  | .finally | .fault => [.seed entry []]

/-- What a region asks for, in the order in which it is looked at. -/
def steps (r : Region) (u : Universe) (mask : JumpMask) : List EntryStep :=
  match r.tryBlock.check mask, r.handler.check mask with
  | .error e, _ => [.refuse e]
  | .ok _, .error e => [.refuse e]
  | .ok _, .ok _ =>
      [.mark r.tryBlock.start, .mark r.tryBlock.stop, .mark r.handler.start,
        .mark r.handler.stop, .seed r.tryBlock.start []] ++ r.handlerSteps u mask

end Region

/-- What is known of the places where control can arrive. -/
structure Joins where
  mask : JumpMask
  labels : LabelStore

namespace Joins

/-- Carries out one step. -/
def step (j : Joins) : EntryStep → Except Rejection Unit × Joins
  | .mark offset => (.ok (), { j with mask := j.mask.markSpecial offset })
  | .seed offset snapshot =>
      let (result, labels) := j.labels.seed offset snapshot
      (result.map fun _ => (), { j with labels })
  | .refuse reason => (.error reason, j)

/-- Carries out steps up to the first that fails. -/
def perform (j : Joins) : List EntryStep → Except Rejection Unit × Joins
  | [] => (.ok (), j)
  | s :: rest =>
      match j.step s with
      | (.ok _, j) => j.perform rest
      | (.error e, j) => (.error e, j)

/-- Carries out what the regions of a method ask for. -/
def addRegions (j : Joins) (u : Universe) (regions : List Region) :
    Except Rejection Unit × Joins :=
  j.perform (regions.flatMap fun r => r.steps u j.mask)

end Joins

end ManagedCode
