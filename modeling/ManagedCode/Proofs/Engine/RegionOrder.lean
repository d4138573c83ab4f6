import ManagedCode.Proofs.Effect.Blocks
import ManagedCode.Proofs.Engine.Simulation
import ManagedCode.Proofs.Labels.Renumbering

set_option autoImplicit false

/-! # The pass and the order of regions

Let the regions of a method be given in another order. Its labels then have other numbers, and all
else is the same: the marks, the blocks around each instruction, and the stacks at the labels. This
is a simulation (`Engine.simulates_of_reordered`), so both passes tell the backend the same and end
in the same way (`Engine.run_reordered`).
-/

namespace ManagedCode

/-- The regions are in another order, and the marks are the same. -/
structure Context.Reordered (cx cx' : Context) : Prop where
  world_eq : cx.world = cx'.world
  rawPointers_eq : cx.rawPointers = cx'.rawPointers
  body_eq : cx'.body = { cx.body with regions := cx'.body.regions }
  regions : cx.body.regions.Perm cx'.body.regions
  size_eq : cx.mask.size = cx'.mask.size
  isTarget_eq : ∀ offset, cx.mask.isTarget offset = cx'.mask.isTarget offset

namespace Engine

/-- Labels have other numbers, and all else is the same. -/
def Correspondence.renumbered : Correspondence where
  offset := Eq
  operation := Eq
  directive := Eq
  labels := LabelStore.Renumbered
  label := LabelStore.SameOffset

variable {cx cx' : Context} (hcx : cx.Reordered cx')
include hcx

/-- An operation has the same effect in both passes. -/
theorem perform_reordered {st st' : EngineState} (hconstraint : st.constraint = st'.constraint)
    (hpending : st.pending = st'.pending) (pc : Nat) (operation : Operation) (s : Stack) :
    (site cx pc st).perform operation s = (site cx' pc st').perform operation s := by
  have hsite : site cx' pc st' =
      { site cx pc st with body := { cx.body with regions := cx'.body.regions } } := by
    unfold site
    rw [hcx.world_eq, hcx.rawPointers_eq, hcx.size_eq, hconstraint, hpending, ← hcx.body_eq]
  rw [hsite]
  exact Site.perform_reordered hcx.regions operation s

theorem simulates_of_reordered : Correspondence.renumbered.Simulates cx cx' where
  world_eq := hcx.world_eq
  maxStack_eq := by rw [hcx.body_eq]
  isTarget_eq := by
    rintro o _ rfl
    exact hcx.isTarget_eq o
  reload := by
    rintro s s' o _ hs rfl
    obtain ⟨hlabel, hlabels⟩ := hs.reload o
    exact ⟨hlabel, hlabels⟩
  observe := by
    rintro s s' o _ hs rfl incoming
    obtain ⟨hlabel, hlabels⟩ := hs.observe cx.world o incoming
    exact ⟨hlabel, hlabels⟩
  snapshot_eq hs hlabel := hs.snapshot_eq hlabel
  markVisited hs hlabel := hs.markVisited hlabel
  alike := by
    rintro operation _ rfl
    exact .refl operation
  perform := by
    rintro pc _ operation _ bound st st' rfl rfl hst
    rw [perform_reordered hcx hst.constraint_eq hst.pending_eq, ← hst.stack_eq]
    refine (Agree.refl _).imp ?_
    rintro effect _ rfl
    exact ⟨rfl, List.forall₂_eq_eq_eq ▸ rfl, rfl⟩
  tellsLabel := congrArg _
  tellsRefresh _ := rfl
  tellsModifiers _ _ := rfl

/-- **The order of the regions does not matter to the pass.** -/
theorem run_reordered (listing : Listing) {labels labels' : LabelStore}
    (h : labels.Renumbered labels') :
    (run cx listing labels).directives = (run cx' listing labels').directives ∧
      Agree (Correspondence.renumbered.States cx.body.maxStack) (run cx listing labels).result
        (run cx' listing labels').result := by
  have hsame : List.Forall₂ Correspondence.renumbered.Instructions listing.instructions
      listing.instructions := by
    refine List.forall₂_same.mpr fun i _ => ⟨rfl, ?_⟩
    cases i.operation? with
    | none => exact .none
    | some operation => exact .some rfl
  obtain ⟨hdirectives, hresult⟩ :=
    run_corresponds (simulates_of_reordered hcx) hsame rfl h
  refine ⟨?_, hresult⟩
  have heq : (run cx listing labels).directives.toList =
      (run cx' listing labels').directives.toList := List.forall₂_eq_eq_eq ▸ hdirectives
  exact Array.toList_inj.mp heq

end Engine

end ManagedCode
