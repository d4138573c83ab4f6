import ManagedCode.Proofs.Effect.Slots

set_option autoImplicit false

/-! # Operations and the blocks around them

An operation asks the exception regions of its method only whether it lies in a block of a certain
sort, and a `leave` also whether it may leave that block. So operations do the same at two sites that
lie in the same sorts of blocks (`Site.SameBlocks.perform_eq`), and the order of the regions does not
matter (`Site.perform_reordered`).
-/

namespace ManagedCode

namespace Site

/-- The sites lie in the same sorts of blocks. -/
structure SameBlocks (site site' : Site) : Prop where
  inCleanup_eq : site.inCleanup = site'.inCleanup
  inExceptionHandler_eq : site.inExceptionHandler = site'.inExceptionHandler
  inFilter_eq : site.inFilter = site'.inFilter
  inRegion_eq : site.inRegion = site'.inRegion

/-- **What names no places has the same effect in the same sorts of blocks.** -/
theorem SameBlocks.perform_eq {site : Site} {code : Code} {regions : List Region}
    {codeSize offset : Nat}
    (h : site.SameBlocks
      { site with body := { site.body with code, regions }, codeSize, offset })
    {operation : Operation} (hnone : operation.targets = []) (s : Stack) :
    site.perform operation s =
      ({ site with body := { site.body with code, regions }, codeSize, offset } : Site).perform
        operation s := by
  obtain ⟨hcleanup, hexception, hfilter, hregion⟩ := h
  cases operation with
  | branch | branchIf | branchCompare | leave => cases hnone
  | switch targets =>
      cases hnone
      rfl
  -- The operations that ask for the regions around them.
  | endFinally =>
      simp only [Site.perform, Site.endFinally, hcleanup]
  | endFilter =>
      simp only [Site.perform, Site.endFilter, hfilter]
  | rethrow =>
      simp only [Site.perform, Site.rethrow, hexception]
  | ret =>
      simp only [Site.perform, Site.ret, hregion]
      rfl
  | jump token =>
      simp only [Site.perform, Site.jump, hregion]
      rfl
  | _ => rfl

/-- **The order of the regions does not matter to an operation.** -/
theorem perform_reordered {site : Site} {regions : List Region}
    (h : site.body.regions.Perm regions) (operation : Operation) (s : Stack) :
    site.perform operation s =
      ({ site with body := { site.body with regions } } : Site).perform operation s := by
  have hblocks : site.SameBlocks { site with body := { site.body with regions } } :=
    ⟨h.any_eq, h.any_eq, h.any_eq, h.any_eq⟩
  cases operation with
  | leave target =>
      have hescapes (target : Nat) : site.leaveEscapes target =
          ({ site with body := { site.body with regions } } : Site).leaveEscapes target :=
        h.any_eq
      simp only [Site.perform, Site.leave, hescapes]
      rfl
  | branch | branchIf | branchCompare | switch => rfl
  | _ => exact hblocks.perform_eq rfl s

end Site

end ManagedCode
