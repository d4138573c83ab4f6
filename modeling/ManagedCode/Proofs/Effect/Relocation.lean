import ManagedCode.Proofs.Code.Relocation
import ManagedCode.Proofs.Effect.Blocks

set_option autoImplicit false

/-! # Operations that lie elsewhere

An operation does not ask where it lies, but for the regions around it and, if it transfers control,
for the places it names. So at a site that lies elsewhere it is accepted or not as before, leaves
the same stack behind and leads to corresponding places: `Site.Moved.perform`.
-/

namespace ManagedCode

variable {R : Nat → Nat → Prop}

/-- The method is the same, but for the layout of its code. -/
structure MethodBody.Moved (R : Nat → Nat → Prop) (body body' : MethodBody) : Prop where
  body_eq : body' = { body with code := body'.code, regions := body'.regions }
  regions : List.Forall₂ (Region.Moved R) body.regions body'.regions

/-- The site is the same, but for the layout of the code. -/
structure Site.Moved (R : Nat → Nat → Prop) (site site' : Site) : Prop where
  site_eq : site' =
    { site with body := site'.body, codeSize := site'.codeSize, offset := site'.offset }
  body : site.body.Moved R site'.body
  codeSize : R site.codeSize site'.codeSize
  offset : R site.offset site'.offset

/-- The same operation, with corresponding targets. -/
inductive Operation.Moved (R : Nat → Nat → Prop) : Operation → Operation → Prop
  | branch {t t' : Nat} (h : R t t') : Moved R (.branch t) (.branch t')
  | branchIf (condition : Bool) {t t' : Nat} (h : R t t') :
      Moved R (.branchIf condition t) (.branchIf condition t')
  | branchCompare (op : CompareOp) {t t' : Nat} (h : R t t') :
      Moved R (.branchCompare op t) (.branchCompare op t')
  | leave {t t' : Nat} (h : R t t') : Moved R (.leave t) (.leave t')
  | switch {ts ts' : List Nat} (h : List.Forall₂ R ts ts') :
      Moved R (.switch (ts.map Int.ofNat)) (.switch (ts'.map Int.ofNat))
  | same {operation : Operation} (h : operation.targets = []) : Moved R operation operation

/-- The same stack, for corresponding targets. -/
structure Effect.Moved (R : Nat → Nat → Prop) (e e' : Effect) : Prop where
  stack_eq : e.stack = e'.stack
  targets : List.Forall₂ R e.targets e'.targets

namespace Site.Moved

variable (hR : Relocation R) {site site' : Site} (h : site.Moved R site')
include hR h

/-! ## What a site is asked for -/

theorem inCleanup_eq : site.inCleanup = site'.inCleanup :=
  any_eq_of_forall₂ h.body.regions fun _ _ hr => by
    rw [hr.kind.isCleanup_eq, hr.inHandler_eq hR h.offset]

theorem inExceptionHandler_eq : site.inExceptionHandler = site'.inExceptionHandler :=
  any_eq_of_forall₂ h.body.regions fun _ _ hr => by
    rw [hr.kind.isCleanup_eq, hr.inHandler_eq hR h.offset]

theorem inFilter_eq : site.inFilter = site'.inFilter :=
  any_eq_of_forall₂ h.body.regions fun _ _ hr => hr.inFilter_eq hR h.offset

theorem inRegion_eq : site.inRegion = site'.inRegion :=
  any_eq_of_forall₂ h.body.regions fun _ _ hr => by
    rw [hr.inTry_eq hR h.offset, hr.inHandler_eq hR h.offset, hr.inFilter_eq hR h.offset]

theorem leaveEscapes_eq {t t' : Nat} (ht : R t t') : site.leaveEscapes t = site'.leaveEscapes t' :=
  any_eq_of_forall₂ h.body.regions fun _ _ hr => by
    rw [hr.kind.isCleanup_eq, hr.inHandler_eq hR h.offset, hr.inHandler_eq hR ht,
      hr.inFilter_eq hR h.offset]

theorem targetAt {t t' : Nat} (ht : R t t') : Agree R (site.targetAt t) (site'.targetAt t') := by
  have hinside := hR.lt_iff ht h.codeSize
  unfold Site.targetAt
  by_cases hlt : t < site.codeSize
  · have hlt' := hinside.mp hlt
    rw [if_pos ⟨by omega, by omega⟩, if_pos ⟨by omega, by omega⟩]
    exact .ok ht
  · have hlt' := mt hinside.mpr hlt
    rw [if_neg (by omega), if_neg (by omega)]
    exact .error _ _

theorem mapM_targetAt {ts ts' : List Nat} (hts : List.Forall₂ R ts ts') :
    Agree (List.Forall₂ R) ((ts.map Int.ofNat).mapM site.targetAt)
      ((ts'.map Int.ofNat).mapM site'.targetAt) := by
  induction hts with
  | nil => exact .ok .nil
  | cons ht _ ih =>
      rw [List.map_cons, List.map_cons, List.mapM_cons, List.mapM_cons]
      exact .bind (h.targetAt hR ht) fun _ _ ht => .bind ih fun _ _ hts => .ok (.cons ht hts)

/-! ## Operations -/

/-- **What names no places has the same effect everywhere.** -/
theorem perform_eq {operation : Operation} (hnone : operation.targets = []) (s : Stack) :
    site.perform operation s = site'.perform operation s := by
  have hblocks : site.SameBlocks site' :=
    ⟨h.inCleanup_eq hR, h.inExceptionHandler_eq hR, h.inFilter_eq hR, h.inRegion_eq hR⟩
  obtain ⟨code, regions, codeSize, offset, rfl⟩ : ∃ code regions codeSize offset, site' =
      { site with body := { site.body with code, regions }, codeSize, offset } := by
    have hsite := h.site_eq
    rw [h.body.body_eq] at hsite
    exact ⟨_, _, _, _, hsite⟩
  exact hblocks.perform_eq hnone s

/-- **An operation does the same at both sites**, if it names corresponding places. -/
theorem perform {operation operation' : Operation} (ho : operation.Moved R operation') {s : Stack}
    {bound : Nat} (hs : s.Holds (fun _ => True) bound) :
    Agree (Effect.Moved R) (site.perform operation s) (site'.perform operation' s) := by
  have hraw : site.rawPointers = site'.rawPointers := by rw [h.site_eq]
  cases ho with
  | branch ht =>
      exact .bind (h.targetAt hR ht) fun _ _ ht => .ok ⟨rfl, .cons ht .nil⟩
  | branchIf condition ht =>
      have htest : ∀ kind, site.testable kind = site'.testable kind := by
        intro kind
        simp only [Site.testable, hraw]
      refine .bind (h.targetAt hR ht) fun _ _ ht => .after s.pop fun (slot, s) => ?_
      exact .bind (.require (htest slot.kind) _ _) fun _ _ _ => .ok ⟨rfl, .cons ht .nil⟩
  | branchCompare op ht =>
      have hpop : site.popCompared op s = site'.popCompared op s := by
        simp only [Site.popCompared, hraw]
      refine .bind (h.targetAt hR ht) fun _ _ ht => ?_
      rw [hpop]
      exact .after _ fun _ => .ok ⟨rfl, .cons ht .nil⟩
  | leave ht =>
      refine .bind (h.targetAt hR ht) fun _ _ ht => ?_
      have hescapes : (!site.leaveEscapes _) = !site'.leaveEscapes _ :=
        congrArg not (h.leaveEscapes_eq hR ht)
      exact .bind (.require hescapes _ _) fun _ _ _ => .ok ⟨rfl, .cons ht .nil⟩
  | switch hts =>
      refine .bind (h.mapM_targetAt hR hts) fun _ _ hts => ?_
      exact .after (s.popKind [.int32, .nativeInt] .value) fun _ => .ok ⟨rfl, hts⟩
  | same hnone =>
      -- The effect is the same, so it leads nowhere on either side.
      have hholds := site.perform_holds (madeSlots_true _) hs operation fun _ _ => trivial
      rw [← h.perform_eq hR hnone s]
      refine ((Agree.refl _).gives hholds).imp ?_
      rintro effect _ ⟨rfl, heffect⟩
      have htargets : effect.targets = [] := by simpa [hnone] using heffect.targets_eq
      exact ⟨rfl, htargets ▸ .nil⟩

end Site.Moved

end ManagedCode
