import ManagedCode.Proofs.Code.Listing
import ManagedCode.Proofs.Engine.Steps
import Mathlib.Data.List.Pairwise

set_option autoImplicit false

/-! # The visits of a pass

A pass keeps no record of the states it goes through. `Engine.visits` makes one: for every
instruction the state in which control arrived and the one in which it went on. A pass that accepts
is a path through these visits (`Engine.Path`), and what each visit keeps of the state and does to
the labels holds along the path (`Engine.Kept`).
-/

namespace ManagedCode

/-- What happened at one instruction of a pass. -/
structure Visit where
  instruction : Instruction
  /-- The state once control has arrived. -/
  entered : EngineState
  /-- The state once the instruction has done its work. -/
  left : EngineState
  /-- What the backend was told. -/
  directives : List Directive

namespace Visit

/-- Offset of the instruction. -/
def offset (v : Visit) : Nat := v.instruction.offset

/-- The stack once control has arrived. -/
def entry (v : Visit) : Slots := v.entered.stack.slots

/-- The stack once the instruction has done its work. -/
def exit (v : Visit) : Slots := v.left.stack.slots

end Visit

namespace Engine

variable {cx : Context} {st final : EngineState}

/-- The visits of a pass from a state on, up to the first instruction that is rejected. -/
def visits (cx : Context) : List Instruction → EngineState → List Visit
  | [], _ => []
  | i :: rest, st =>
      match enter cx i.offset st, visit cx i st with
      | .ok entered, ⟨directives, .ok left⟩ =>
          ⟨i, entered, left, directives⟩ :: visits cx rest left
      | _, _ => []

theorem visits_of_ok {i : Instruction} {rest : List Instruction} {directives : List Directive}
    {entered left : EngineState} (henter : enter cx i.offset st = .ok entered)
    (h : visit cx i st = ⟨directives, .ok left⟩) :
    visits cx (i :: rest) st = ⟨i, entered, left, directives⟩ :: visits cx rest left := by
  rw [visits, henter, h]

theorem visits_of_error {i : Instruction} {rest : List Instruction} {directives : List Directive}
    {e : Rejection} (h : visit cx i st = ⟨directives, .error e⟩) :
    visits cx (i :: rest) st = [] := by
  rw [visits, h]
  cases enter cx i.offset st <;> rfl

/-- The visit is the one that a pass makes in the state `st`. -/
structure Visited (cx : Context) (st : EngineState) (v : Visit) : Prop where
  enter_eq : enter cx v.offset st = .ok v.entered
  visit_eq : visit cx v.instruction st = ⟨v.directives, .ok v.left⟩

/-- The second half of a visit: the instruction does its work in the state in which control arrived,
unless it is a remark. -/
theorem Visited.work {v : Visit} (h : Visited cx st v) :
    enterDirectives cx v.offset v.entered <+: v.directives ∧
      ∃ operation, v.instruction.operation? = some operation ∧
        (operation = .remark ∧ v.left = v.entered ∨
          ∃ work, process cx v.offset operation v.entered = ⟨work, .ok v.left⟩) := by
  obtain ⟨entered, operation, henter, hoperation, hwork⟩ := visit_eq_ok h.visit_eq
  have heq : entered = v.entered := Except.ok.inj (henter.symm.trans h.enter_eq)
  subst heq
  rcases hwork with ⟨hremark, hleft, hdirectives⟩ | ⟨_, work, hprocess, hdirectives⟩
  · rw [hdirectives]
    exact ⟨List.prefix_refl _, operation, hoperation, .inl ⟨hremark, hleft⟩⟩
  · rw [hdirectives]
    exact ⟨List.prefix_append _ _, operation, hoperation, .inr ⟨work, hprocess⟩⟩

/-- The visits lead from one state to another, each starting where the one before it ended. -/
def Path (cx : Context) (st : EngineState) : List Visit → EngineState → Prop
  | [], final => final = st
  | v :: rest, final => Visited cx st v ∧ Path cx v.left rest final

theorem Path.split {visits later : List Visit} (h : Path cx st (visits ++ later) final) :
    ∃ between, Path cx st visits between ∧ Path cx between later final := by
  induction visits generalizing st with
  | nil => exact ⟨st, rfl, h⟩
  | cons v rest ih =>
      obtain ⟨hv, hrest⟩ := h
      obtain ⟨between, hbefore, hlater⟩ := ih hrest
      exact ⟨between, ⟨hv, hbefore⟩, hlater⟩

/-- **A pass that accepts is a path through its visits**, one for each instruction, and the backend
is told what was told in each of them. -/
theorem visitAll_eq_ok {sent : Array Directive} {instructions : List Instruction}
    (h : (visitAll cx sent instructions st).result = .ok final) :
    Path cx st (visits cx instructions st) final ∧
      (visits cx instructions st).map (·.instruction) = instructions ∧
      (visitAll cx sent instructions st).directives.toList =
        sent.toList ++ (visits cx instructions st).flatMap (·.directives) := by
  induction instructions generalizing sent st with
  | nil =>
      cases h
      exact ⟨rfl, rfl, (List.append_nil _).symm⟩
  | cons i rest ih =>
      unfold visitAll at h ⊢
      cases hvisit : visit cx i st with
      | mk directives result =>
          cases result with
          | error e =>
              rw [hvisit] at h
              cases h
          | ok left =>
              rw [hvisit] at h
              obtain ⟨entered, _, henter, _⟩ := visit_eq_ok hvisit
              obtain ⟨hpath, hmap, hdirectives⟩ := ih h
              rw [visits_of_ok henter hvisit]
              refine ⟨⟨⟨henter, hvisit⟩, hpath⟩, congrArg (i :: ·) hmap, ?_⟩
              simp only [hdirectives, Array.toList_append, List.flatMap_cons, List.append_assoc]

/-! ## What holds along a path -/

/-- Every visit keeps `Inv` of the state and changes labels as `Rel` allows. -/
structure Kept (cx : Context) (Inv : EngineState → Prop) (Rel : LabelStore → LabelStore → Prop) :
    Prop where
  refl : ∀ s, Rel s s
  trans : ∀ {a b c}, Rel a b → Rel b c → Rel a c
  enter : ∀ {pc st st'}, Inv st → enter cx pc st = .ok st' → Inv st' ∧ Rel st.labels st'.labels
  process : ∀ {pc operation st st' directives}, Inv st →
    process cx pc operation st = ⟨directives, .ok st'⟩ → Inv st' ∧ Rel st.labels st'.labels

namespace Kept

variable {Inv : EngineState → Prop} {Rel : LabelStore → LabelStore → Prop}
  (hk : Kept cx Inv Rel)
include hk

/-- Both halves of a visit keep what is kept. -/
theorem visited {v : Visit} (hst : Inv st) (h : Visited cx st v) :
    (Inv v.entered ∧ Rel st.labels v.entered.labels) ∧
      Inv v.left ∧ Rel v.entered.labels v.left.labels := by
  have hentered := hk.enter hst h.enter_eq
  refine ⟨hentered, ?_⟩
  obtain ⟨_, operation, _, ⟨_, hleft⟩ | ⟨work, hprocess⟩⟩ := h.work
  · rw [hleft]
    exact ⟨hentered.1, hk.refl _⟩
  · exact hk.process hentered.1 hprocess

/-- What is kept holds before every visit, and the labels there come from those at the start. -/
theorem exists_before {visits : List Visit} (hst : Inv st) (h : Path cx st visits final) :
    ∀ v ∈ visits, ∃ before, Visited cx before v ∧ Inv before ∧ Rel st.labels before.labels := by
  induction visits generalizing st with
  | nil => simp
  | cons v rest ih =>
      obtain ⟨hv, hrest⟩ := h
      obtain ⟨⟨_, hentered⟩, hleft, hwork⟩ := hk.visited hst hv
      refine List.forall_mem_cons.mpr ⟨⟨st, hv, hst, hk.refl _⟩, fun w hw => ?_⟩
      obtain ⟨before, hvisited, hbefore, hrel⟩ := ih hleft hrest w hw
      exact ⟨before, hvisited, hbefore, hk.trans (hk.trans hentered hwork) hrel⟩

theorem path {visits : List Visit} (hst : Inv st) (h : Path cx st visits final) :
    Rel st.labels final.labels := by
  induction visits generalizing st with
  | nil =>
      cases h
      exact hk.refl _
  | cons v rest ih =>
      obtain ⟨hv, hrest⟩ := h
      obtain ⟨⟨_, hentered⟩, hleft, hwork⟩ := hk.visited hst hv
      exact hk.trans (hk.trans hentered hwork) (ih hleft hrest)

/-- Labels pass from every visit to the end. -/
theorem to_final {visits : List Visit} (hst : Inv st) (h : Path cx st visits final) :
    ∀ v ∈ visits, Rel v.entered.labels final.labels := by
  induction visits generalizing st with
  | nil => simp
  | cons v rest ih =>
      obtain ⟨hv, hrest⟩ := h
      obtain ⟨_, hleft, hwork⟩ := hk.visited hst hv
      exact List.forall_mem_cons.mpr ⟨hk.trans hwork (hk.path hleft hrest), ih hleft hrest⟩

/-- Labels pass from every visit to the later ones. -/
theorem pairwise {visits : List Visit} (hst : Inv st) (h : Path cx st visits final) :
    visits.Pairwise fun v w => Rel v.left.labels w.entered.labels := by
  induction visits generalizing st with
  | nil => exact .nil
  | cons v rest ih =>
      obtain ⟨hv, hrest⟩ := h
      obtain ⟨_, hleft, _⟩ := hk.visited hst hv
      refine .cons (fun w hw => ?_) (ih hleft hrest)
      obtain ⟨before, hvisited, hbefore, hrel⟩ := hk.exists_before hleft hrest w hw
      exact hk.trans hrel (hk.visited hbefore hvisited).1.2

end Kept

/-! ## The next visit -/

/-- A visit is the last one, or control is handed on to the visit of the next instruction. -/
theorem Path.next {visits : List Visit} {start : Nat} (h : Path cx st visits final)
    (hoffsets : Instruction.Consecutive start (visits.map (·.instruction))) :
    ∀ v ∈ visits, v.left = final ∨
      ∃ w ∈ visits, w.offset = v.instruction.next ∧ Visited cx v.left w := by
  induction visits generalizing st start with
  | nil => simp
  | cons v rest ih =>
      obtain ⟨_, hrest⟩ := h
      obtain ⟨_, _, hoffsets⟩ := hoffsets
      refine List.forall_mem_cons.mpr ⟨?_, fun w hw => ?_⟩
      · cases rest with
        | nil => exact .inl hrest.symm
        | cons w rest =>
            exact .inr ⟨w, by simp, hoffsets.1, hrest.1⟩
      · rcases ih hrest hoffsets w hw with hfinal | ⟨w', hw', hnext⟩
        · exact .inl hfinal
        · exact .inr ⟨w', List.mem_cons_of_mem v hw', hnext⟩

/-- Two visits are the same, or one is the earlier. -/
theorem eq_or_of_pairwise {R : Visit → Visit → Prop} {visits : List Visit} (h : visits.Pairwise R)
    {v w : Visit} (hv : v ∈ visits) (hw : w ∈ visits) : v = w ∨ R v w ∨ R w v := by
  by_cases heq : v = w
  · exact .inl heq
  · have hsymm : Std.Symm fun a b => R a b ∨ R b a := ⟨fun _ _ => Or.symm⟩
    have hor : visits.Pairwise fun a b => R a b ∨ R b a := h.imp Or.inl
    exact .inr (hor.forall hv hw heq)

theorem pairwise_offset {visits : List Visit} {start : Nat}
    (hoffsets : Instruction.Consecutive start (visits.map (·.instruction))) :
    visits.Pairwise fun v w => v.offset < w.offset := by
  have hpairwise := List.pairwise_map.mp hoffsets.pairwise_lt
  exact hpairwise

/-- There is one visit for an offset. -/
theorem eq_of_offset_eq {visits : List Visit} {start : Nat}
    (hoffsets : Instruction.Consecutive start (visits.map (·.instruction))) {v w : Visit}
    (hv : v ∈ visits) (hw : w ∈ visits) (h : v.offset = w.offset) : v = w := by
  rcases eq_or_of_pairwise (pairwise_offset hoffsets) hv hw with heq | hlt | hlt
  · exact heq
  · omega
  · omega

/-- The visits before a visit are those at lower offsets. -/
theorem exists_after {visits : List Visit} {start : Nat}
    (hoffsets : Instruction.Consecutive start (visits.map (·.instruction))) {v : Visit}
    (hv : v ∈ visits) :
    ∃ after, visits = visits.filter (·.offset < v.offset) ++ v :: after := by
  have hpairwise := pairwise_offset hoffsets
  obtain ⟨before, after, rfl⟩ := List.append_of_mem hv
  obtain ⟨_, hlater, hbefore⟩ := List.pairwise_append.mp hpairwise
  refine ⟨after, ?_⟩
  have hlower : before.filter (·.offset < v.offset) = before := by
    refine List.filter_eq_self.mpr fun x hx => ?_
    simpa using hbefore x hx v List.mem_cons_self
  have hupper : (v :: after).filter (·.offset < v.offset) = [] := by
    refine List.filter_eq_nil_iff.mpr ?_
    have hle : ∀ x ∈ v :: after, v.offset ≤ x.offset :=
      List.forall_mem_cons.mpr ⟨Nat.le_refl _, fun x hx =>
        Nat.le_of_lt ((List.pairwise_cons.mp hlater).1 x hx)⟩
    simpa using hle
  rw [List.filter_append, hlower, hupper, List.append_nil]

end Engine

end ManagedCode
