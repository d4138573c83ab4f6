import ManagedCode.Proofs.Effect.Relocation
import ManagedCode.Proofs.Engine.Simulation
import ManagedCode.Proofs.Labels.Relocation

set_option autoImplicit false

/-! # A pass over code that lies elsewhere

Let the same instructions be laid out in two ways. Labels then lie at corresponding offsets, under
the same numbers, and operations name corresponding targets: this is a simulation
(`Engine.simulates_of_moved`), so one pass accepts if the other does. What passes fail with, and
what they tell the backend, names offsets and is not compared.
-/

namespace ManagedCode

variable {R : Nat → Nat → Prop}

/-- The context is the same, but for the layout of the code. -/
structure Context.Moved (R : Nat → Nat → Prop) (cx cx' : Context) : Prop where
  world_eq : cx.world = cx'.world
  rawPointers_eq : cx.rawPointers = cx'.rawPointers
  body : cx.body.Moved R cx'.body
  mask : cx.mask.Moved R cx'.mask

/-- What the pass asks of an operation does not depend on its targets. -/
theorem Operation.Moved.alike {operation operation' : Operation}
    (ho : operation.Moved R operation') : operation.Alike operation' := by
  cases ho with
  | same _ => exact .refl _
  | _ => exact ⟨rfl, rfl, by simp, by simp, by simp⟩

namespace Engine

/-- Offsets correspond by `R`, and all else is the same. -/
def Correspondence.moved (R : Nat → Nat → Prop) : Correspondence where
  offset := R
  operation := Operation.Moved R
  directive _ _ := True
  labels := LabelStore.Moved R
  label _ _ := Eq

theorem site_moved {cx cx' : Context} (hcx : cx.Moved R cx') {pc pc' : Nat} (hpc : R pc pc')
    {st st' : EngineState} (hconstraint : st.constraint = st'.constraint)
    (hpending : st.pending = st'.pending) : (site cx pc st).Moved R (site cx' pc' st') where
  site_eq := by simp only [site, hcx.world_eq, hcx.rawPointers_eq, hconstraint, hpending]
  body := hcx.body
  codeSize := hcx.mask.size
  offset := hpc

/-- **Two layouts of the same instructions are passed alike.** -/
theorem simulates_of_moved (hR : Relocation R) {cx cx' : Context}
    (hcx : cx.Moved R cx') : (Correspondence.moved R).Simulates cx cx' where
  world_eq := hcx.world_eq
  maxStack_eq := by rw [hcx.body.body_eq]
  isTarget_eq := hcx.mask.isTarget_eq
  reload hs ho := by
    obtain ⟨hlabel, hlabels⟩ := hs.reload hR ho
    exact ⟨hlabel, hlabels⟩
  observe hs ho incoming := by
    obtain ⟨hlabel, hlabels⟩ := hs.observe hR cx.world ho incoming
    exact ⟨hlabel, hlabels⟩
  snapshot_eq := by
    rintro s s' id _ hs rfl
    exact hs.snapshot_eq id
  markVisited := by
    rintro s s' id _ hs rfl
    exact hs.markVisited id
  alike := Operation.Moved.alike
  perform hpc ho hst := by
    have heffect := (site_moved hcx hpc hst.constraint_eq hst.pending_eq).perform hR ho hst.stack
    rw [← hst.stack_eq]
    exact heffect.imp fun _ _ heffect => ⟨heffect.stack_eq, heffect.targets, trivial⟩
  tellsLabel _ := trivial
  tellsRefresh _ := trivial
  tellsModifiers _ _ := trivial

end Engine

end ManagedCode
