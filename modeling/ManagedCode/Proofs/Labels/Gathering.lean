import ManagedCode.Proofs.Labels.Lookup
import Mathlib.Control.Monad.Basic

set_option autoImplicit false

/-! # What a label gathers

As long as the code at an offset has not been verified, the label there gathers the stacks that
arrive: it starts with the first one, and is unified with each of the others in turn
(`Slots.joined?`). `LabelStore.Gathers` says that a store has come to this point at an offset, and
`LabelStore.Gathers.observe` that one more arrival leads to the next.
-/

namespace ManagedCode

namespace Slots

/-- What is recorded when `incoming` arrives where `recorded` is expected and may still widen; `none`
when the heights or some slots do not agree. -/
def unified? (u : Universe) (recorded incoming : Slots) : Option Slots :=
  if recorded.length = incoming.length then
    match unify u false recorded incoming with
    | (slots, true) => some slots
    | (_, false) => none
  else none

/-- What is recorded when stacks arrive one after the other. Where none arrives, the stack is taken to
be empty. -/
def joined? (u : Universe) : List Slots → Option Slots
  | [] => some []
  | first :: rest => rest.foldlM (unified? u) first

theorem joined?_toList (u : Universe) (arrived : Option Slots) :
    joined? u arrived.toList = some (arrived.getD []) := by
  cases arrived <;> rfl

theorem joined?_append (u : Universe) {arrived : List Slots} (h : arrived ≠ []) (incoming : Slots) :
    joined? u (arrived ++ [incoming]) =
      (joined? u arrived).bind fun recorded => unified? u recorded incoming := by
  cases arrived with
  | nil => exact absurd rfl h
  | cons first rest => simp [joined?, List.foldlM_append]

end Slots

namespace LabelStore

variable {u : Universe} {offset : Nat} {arrived : List Slots} {s s' : LabelStore}

/-- The label at the offset records what has arrived there, and may still widen. There is none if
nothing has arrived. -/
def Gathers (u : Universe) (offset : Nat) (arrived : List Slots) (s : LabelStore) : Prop :=
  match s.label? offset with
  | none => arrived = []
  | some l => arrived ≠ [] ∧ l.frozen = false ∧ Slots.joined? u arrived = some l.snapshot

theorem Gathers.congr (h : s.Gathers u offset arrived) (heq : s'.label? offset = s.label? offset) :
    s'.Gathers u offset arrived := by
  unfold Gathers at h ⊢
  rw [heq]
  exact h

theorem Gathers.eq_nil (h : s.Gathers u offset arrived) (hnone : s.label? offset = none) :
    arrived = [] := by
  unfold Gathers at h
  rw [hnone] at h
  exact h

theorem Gathers.joined?_eq {l : Label} (h : s.Gathers u offset arrived)
    (hl : s.label? offset = some l) : Slots.joined? u arrived = some l.snapshot := by
  unfold Gathers at h
  rw [hl] at h
  exact h.2.2

/-- **The next stack to arrive is unified with what was gathered.** -/
theorem Gathers.observe (hs : s.Coherent) (h : s.Gathers u offset arrived) {id : Nat}
    {incoming : Slots} (hobserve : s.observe u offset incoming = (.ok id, s')) :
    s'.Gathers u offset (arrived ++ [incoming]) := by
  obtain ⟨l, _, _, hlabel, hl⟩ := hs.label?_observe hobserve
  have hnew : s'.label? offset = some l := (hlabel offset).trans (if_pos rfl)
  rcases hl with ⟨hnone, hfrozen, hsnapshot⟩ | ⟨old, hold, hfrozen, hlength, hunify⟩
  · rw [h.eq_nil hnone]
    unfold Gathers
    rw [hnew, ← hsnapshot]
    exact ⟨by simp, hfrozen, rfl⟩
  · unfold Gathers at h ⊢
    rw [hold] at h
    rw [hnew]
    obtain ⟨hne, holdFrozen, hjoined⟩ := h
    rw [holdFrozen] at hunify
    refine ⟨by simp, hfrozen.trans holdFrozen, ?_⟩
    rw [Slots.joined?_append u hne, hjoined]
    simp [Slots.unified?, hlength, hunify]

end LabelStore

end ManagedCode
