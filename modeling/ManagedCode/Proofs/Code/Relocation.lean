import ManagedCode.EntryPoint
import ManagedCode.Proofs.Code.Marks
import Mathlib.Data.List.Forall2

set_option autoImplicit false

/-! # Code that lies elsewhere

The same method can be laid out in different ways: its instructions lie at other offsets, in the
same order. A `Relocation` relates the offsets of two layouts. What the library asks of offsets
before the pass is how they compare and what is marked there, so regions and marks of the two
layouts correspond: blocks contain corresponding offsets (`Span.Moved.contains_eq`), and regions ask
for the same at corresponding places (`Region.Moved.steps`).
-/

namespace ManagedCode

/-- A relation between the offsets of two layouts that keeps their order. Offsets are words. -/
structure Relocation (R : Nat → Nat → Prop) : Prop where
  lt_iff : ∀ {a b a' b'}, R a b → R a' b' → (a < a' ↔ b < b')
  lt_wordCount : ∀ {a b}, R a b → a < Span.wordCount ∧ b < Span.wordCount

namespace Relocation

variable {R : Nat → Nat → Prop} (hR : Relocation R) {a b a' b' : Nat}
include hR

theorem le_iff (h : R a b) (h' : R a' b') : a ≤ a' ↔ b ≤ b' := by
  have hlt := hR.lt_iff h' h
  omega

theorem eq_iff (h : R a b) (h' : R a' b') : a = a' ↔ b = b' := by
  have hlt := hR.lt_iff h h'
  have hgt := hR.lt_iff h' h
  omega

end Relocation

/-! ## Related lists -/

section Lists

variable {α β : Type} {S : α → β → Prop} {l : List α} {l' : List β}

theorem forall₂_imp_of_mem (h : List.Forall₂ S l l') {T : α → β → Prop}
    (himp : ∀ a ∈ l, ∀ b ∈ l', S a b → T a b) : List.Forall₂ T l l' := by
  induction h with
  | nil => exact .nil
  | cons hab _ ih =>
      refine .cons (himp _ List.mem_cons_self _ List.mem_cons_self hab) (ih ?_)
      exact fun a ha b hb => himp a (List.mem_cons_of_mem _ ha) b (List.mem_cons_of_mem _ hb)

theorem exists_mem_iff_of_forall₂ (h : List.Forall₂ S l l') {p : α → Prop} {q : β → Prop}
    (hpq : ∀ a b, S a b → (p a ↔ q b)) : (∃ a ∈ l, p a) ↔ ∃ b ∈ l', q b := by
  induction h with
  | nil => simp
  | cons hab _ ih => rw [List.exists_mem_cons_iff, List.exists_mem_cons_iff, hpq _ _ hab, ih]

theorem any_eq_of_forall₂ (h : List.Forall₂ S l l') {p : α → Bool} {q : β → Bool}
    (hpq : ∀ a b, S a b → p a = q b) : l.any p = l'.any q := by
  rw [Bool.eq_iff_iff, List.any_eq_true, List.any_eq_true]
  exact exists_mem_iff_of_forall₂ h fun a b hab => by rw [hpq a b hab]

end Lists

variable {R : Nat → Nat → Prop}

/-! ## Regions -/

/-- The span starts and ends at corresponding offsets. -/
structure Span.Moved (R : Nat → Nat → Prop) (s s' : Span) : Prop where
  start : R s.start s'.start
  stop : R s.stop s'.stop

/-- The handlers are of one sort, and filters start at corresponding offsets. -/
def Handler.Moved (R : Nat → Nat → Prop) : Handler → Handler → Prop
  | .filter start, .filter start' => R start start'
  | .catchType token, .catchType token' => token = token'
  | .finally, .finally | .fault, .fault => True
  | _, _ => False

/-- The blocks of the region lie at corresponding offsets. -/
structure Region.Moved (R : Nat → Nat → Prop) (r r' : Region) : Prop where
  kind : r.kind.Moved R r'.kind
  tryBlock : r.tryBlock.Moved R r'.tryBlock
  handler : r.handler.Moved R r'.handler

theorem Handler.Moved.isCleanup_eq {k k' : Handler} (h : k.Moved R k') :
    k.isCleanup = k'.isCleanup := by
  cases k <;> cases k' <;> first | rfl | cases h

section Membership

variable (hR : Relocation R)
include hR

theorem Span.Moved.contains_eq {s s' : Span} (hs : s.Moved R s') {o o' : Nat} (ho : R o o') :
    s.contains o = s'.contains o' := by
  have hstart := hR.le_iff hs.start ho
  have hstop := hR.lt_iff ho hs.stop
  obtain ⟨hword, hword'⟩ := hR.lt_wordCount hs.stop
  simp only [Span.contains, hword, hword', hstart, hstop]

variable {r r' : Region} (hr : r.Moved R r') {o o' : Nat} (ho : R o o')
include hr ho

theorem Region.Moved.inTry_eq : r.inTry o = r'.inTry o' := hr.tryBlock.contains_eq hR ho

theorem Region.Moved.inHandler_eq : r.inHandler o = r'.inHandler o' := hr.handler.contains_eq hR ho

theorem Region.Moved.inFilter_eq : r.inFilter o = r'.inFilter o' := by
  have hkind := hr.kind
  have hbefore := hR.lt_iff ho hr.handler.start
  unfold Region.inFilter
  cases hk : r.kind with
  | filter start =>
      cases hk' : r'.kind with
      | filter start' =>
          rw [hk, hk'] at hkind
          have hstart := hR.le_iff hkind ho
          simp only [hstart, hbefore]
      | _ =>
          rw [hk, hk'] at hkind
          cases hkind
  | _ =>
      cases hk' : r'.kind with
      | filter start' =>
          rw [hk, hk'] at hkind
          cases hkind
      | _ => rfl

end Membership

/-! ## Marks -/

/-- The same is marked at corresponding offsets. -/
structure JumpMask.Moved (R : Nat → Nat → Prop) (m m' : JumpMask) : Prop where
  size : R m.size m'.size
  bound_eq : m.targets.bound = m.size ∧ m'.targets.bound = m'.size
  isStart_eq : ∀ {o o'}, R o o' → m.isStart o = m'.isStart o'
  isTarget_eq : ∀ {o o'}, R o o' → m.isTarget o = m'.isTarget o'

namespace JumpMask.Moved

variable (hR : Relocation R) {m m' : JumpMask} (hm : m.Moved R m')
include hR hm

theorem isBoundary_eq {o o' : Nat} (ho : R o o') : m.isBoundary o = m'.isBoundary o' := by
  have hend := hR.eq_iff ho hm.size
  simp only [isBoundary, hend, hm.isStart_eq ho]

theorem markSpecial {o o' : Nat} (ho : R o o') :
    (m.markSpecial o).Moved R (m'.markSpecial o') := by
  refine ⟨hm.size, ?_, hm.isStart_eq, fun {p p'} hp => ?_⟩
  · simpa only [JumpMask.markSpecial, OffsetSet.bound_insert] using hm.bound_eq
  · have hsame := hR.eq_iff ho hp
    have hinside := hR.lt_iff ho hm.size
    have hold : m.targets.contains p = m'.targets.contains p' := hm.isTarget_eq hp
    simp only [isTarget, JumpMask.markSpecial, OffsetSet.contains_insert, hold, hsame,
      hm.bound_eq.1, hm.bound_eq.2, hinside]

theorem check {s s' : Span} (hs : s.Moved R s') :
    Agree (fun _ _ => True) (s.check m) (s'.check m') := by
  have hlength : s.length ≠ 0 ↔ s'.length ≠ 0 := by
    have hlt := hR.lt_iff hs.start hs.stop
    unfold Span.stop at hlt
    omega
  have hend := hR.le_iff hs.stop hm.size
  refine .bind (.require ?_ _ _) fun _ _ _ => .bind (.require ?_ _ _) fun _ _ _ =>
    .bind (.require (hm.isBoundary_eq hR hs.start) _ _) fun _ _ _ =>
      .require (hm.isBoundary_eq hR hs.stop) _ _
  · simp only [hlength]
  · simp only [hend]

end JumpMask.Moved

/-! ## What regions ask for -/

/-- The steps ask for the same at corresponding offsets. -/
inductive EntryStep.Moved (R : Nat → Nat → Prop) : EntryStep → EntryStep → Prop
  | mark {o o' : Nat} (h : R o o') : Moved R (.mark o) (.mark o')
  | seed {o o' : Nat} (h : R o o') (snapshot : Slots) :
      Moved R (.seed o snapshot) (.seed o' snapshot)
  | refuse (e e' : Rejection) : Moved R (.refuse e) (.refuse e')

namespace Region.Moved

variable (hR : Relocation R) {m m' : JumpMask} (hm : m.Moved R m') (u : Universe)
  {r r' : Region} (hr : r.Moved R r')
include hR hm hr

theorem handlerSteps :
    List.Forall₂ (EntryStep.Moved R) (r.handlerSteps u m) (r'.handlerSteps u m') := by
  have hkind := hr.kind
  have hentry := hr.handler.start
  unfold Region.handlerSteps
  cases hk : r.kind with
  | catchType token =>
      cases hk' : r'.kind with
      | catchType token' =>
          rw [hk, hk'] at hkind
          have htoken : token = token' := hkind
          subst htoken
          simp only
          split
          · exact .cons (.seed hentry _) .nil
          · exact .cons (.refuse _ _) .nil
      | _ =>
          rw [hk, hk'] at hkind
          cases hkind
  | filter start =>
      cases hk' : r'.kind with
      | filter start' =>
          rw [hk, hk'] at hkind
          have hstart : R start start' := hkind
          have hbefore := hR.le_iff hentry hstart
          simp only [hbefore, hm.isStart_eq hstart]
          split
          · exact .cons (.refuse _ _) .nil
          · split
            · exact .cons (.refuse _ _) .nil
            · exact .cons (.mark hstart) (.cons (.seed hstart _) (.cons (.seed hentry _) .nil))
      | _ =>
          rw [hk, hk'] at hkind
          cases hkind
  | _ =>
      cases hk' : r'.kind with
      | catchType token' | filter start' =>
          rw [hk, hk'] at hkind
          cases hkind
      | _ => exact .cons (.seed hentry _) .nil

/-- **A region asks for the same wherever it lies.** -/
theorem steps : List.Forall₂ (EntryStep.Moved R) (r.steps u m) (r'.steps u m') := by
  have htry := hm.check hR hr.tryBlock
  have hhandler := hm.check hR hr.handler
  unfold Region.steps
  -- Only whether the checks succeed matters.
  generalize r.tryBlock.check m = first at htry ⊢
  generalize r'.tryBlock.check m' = first' at htry ⊢
  generalize r.handler.check m = second at hhandler ⊢
  generalize r'.handler.check m' = second' at hhandler ⊢
  cases htry with
  | error e e' => exact .cons (.refuse _ _) .nil
  | ok _ =>
      cases hhandler with
      | error e e' => exact .cons (.refuse _ _) .nil
      | ok _ =>
          have hborders : List.Forall₂ (EntryStep.Moved R)
              [.mark r.tryBlock.start, .mark r.tryBlock.stop, .mark r.handler.start,
                .mark r.handler.stop, .seed r.tryBlock.start []]
              [.mark r'.tryBlock.start, .mark r'.tryBlock.stop, .mark r'.handler.start,
                .mark r'.handler.stop, .seed r'.tryBlock.start []] :=
            .cons (.mark hr.tryBlock.start) (.cons (.mark hr.tryBlock.stop)
              (.cons (.mark hr.handler.start) (.cons (.mark hr.handler.stop)
                (.cons (.seed hr.tryBlock.start []) .nil))))
          exact List.rel_append hborders (hr.handlerSteps hR hm u)

end Region.Moved

end ManagedCode
