import ManagedCode.Token

set_option autoImplicit false

/-! # Exception regions

A region protects a range of code, its try block, with a handler. Offsets and lengths are words
of 32 bits, and a range that would pass the largest word contains nothing.
-/

namespace ManagedCode

/-- What a region does with an exception. -/
inductive Handler where
  /-- Catches exceptions of the type that the token names. -/
  | catchType (token : Token)
  /-- Asks the filter block, which ends where the handler starts. -/
  | filter (offset : Nat)
  /-- Runs in any case. -/
  | finally
  /-- Runs when an exception passes. -/
  | fault
  deriving DecidableEq

namespace Handler

/-- The handler runs on the way out and must end where it leaves off. -/
def isCleanup : Handler → Bool
  | .finally | .fault => true
  | _ => false

/-- The text of a handler. -/
def describe : Handler → String
  | .catchType token => "Catch \x7b class_token: " ++ toString token ++ " \x7d"
  | .filter offset => "Filter \x7b filter_offset: " ++ toString offset ++ " \x7d"
  | .finally => "Finally"
  | .fault => "Fault"

end Handler

/-- `length` bytes of code from `start` on. -/
structure Span where
  start : Nat
  length : Nat
  deriving DecidableEq

namespace Span

/-- The offset behind the last byte. -/
def stop (s : Span) : Nat := s.start + s.length

/-- The number of 32-bit words. -/
def wordCount : Nat := 0x100000000

/-- The offset lies in the span. A span past the largest 32-bit word is empty. -/
def contains (s : Span) (offset : Nat) : Bool :=
  s.stop < wordCount && s.start ≤ offset && offset < s.stop

end Span

/-- A protected range with its handler. -/
structure Region where
  kind : Handler
  tryBlock : Span
  handler : Span
  deriving DecidableEq

namespace Region

/-- Reads a clause of the exception section. `extra` is the token of a catch clause and the
filter offset of a filter clause. Flags without a meaning give `none`. -/
def ofClause? (flags : Nat) (tryBlock handler : Span) (extra : UInt32) : Option Region :=
  match flags with
  | 0 => some ⟨.catchType extra, tryBlock, handler⟩
  | 1 => some ⟨.filter extra.toNat, tryBlock, handler⟩
  | 2 => some ⟨.finally, tryBlock, handler⟩
  | 4 => some ⟨.fault, tryBlock, handler⟩
  | _ => none

/-- The offset lies in the try block. -/
def inTry (r : Region) (offset : Nat) : Bool := r.tryBlock.contains offset

/-- The offset lies in the handler. -/
def inHandler (r : Region) (offset : Nat) : Bool := r.handler.contains offset

/-- The offset lies in the filter block. -/
def inFilter (r : Region) (offset : Nat) : Bool :=
  match r.kind with
  | .filter start => start ≤ offset && offset < r.handler.start
  | _ => false

/-- The text of a region. -/
def describe (r : Region) : String :=
  "ExceptionRegion \x7b kind: " ++ r.kind.describe ++
  ", try_offset: " ++ toString r.tryBlock.start ++
  ", try_length: " ++ toString r.tryBlock.length ++
  ", handler_offset: " ++ toString r.handler.start ++
  ", handler_length: " ++ toString r.handler.length ++ " \x7d"

end Region

end ManagedCode
