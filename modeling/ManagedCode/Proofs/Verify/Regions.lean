import ManagedCode.Proofs.Verify.Sessions
import Mathlib.Control.Monad.Basic

set_option autoImplicit false

/-! # The entry points of exception regions

Whatever else leads to the first instruction of a block of an exception region, and however many
regions share it, control goes on there with the stack that the region prescribes, and that stack
is what the backend is told. For the label there is made by a region, so it is frozen from the start
(`Engine.kept_coherent`), and the stack that control goes on with is the snapshot of the label.
-/

namespace ManagedCode

/-- The instruction at the offset is visited, and control goes on there with the given slots, which
the backend is told before anything else about the instruction. -/
def StartsWith (visits : List Visit) (offset : Nat) (slots : Slots) : Prop :=
  (∃ v ∈ visits, v.offset = offset) ∧
    ∀ v ∈ visits, v.offset = offset →
      v.entry = slots ∧ [.label offset, .refresh slots] <+: v.directives

namespace Session.Account

variable {body : MethodBody} {world : Universe} {options : Options}
  (account : Account body world options)

/-- A label of an exception region is there at every visit, with the snapshot it was made with. -/
theorem entry_of_hasSeed {v : Visit} (hv : v ∈ visits body world options) {slots : Slots}
    (htarget : account.context.mask.isTarget v.offset = true)
    (hseed : account.joins.HasSeed v.offset slots) : v.entry = slots := by
  have hkept := Engine.kept_coherent account.context
  obtain ⟨before, hvisited, hbefore, hcarried⟩ :=
    account.exists_before hkept account.prepared.coherent hv
  obtain ⟨⟨_, hcarried'⟩, _⟩ := hkept.visited hbefore hvisited
  -- The label as the region made it, and as it is when control arrives.
  obtain ⟨l, hl, hoffset, hsnapshot, hseeded⟩ := hseed
  obtain ⟨l', hl', hkeeps⟩ := hkept.trans hcarried hcarried' l hl
  have hfrozen : l.frozen = true := by simp [Label.frozen, hseeded]
  obtain ⟨_, hcoherent, joined, hjoined, hoffset', _, hslots⟩ := account.exists_joined hv htarget
  have hsame : joined = l' :=
    hcoherent.offset_inj joined hjoined l' hl'
      (hoffset'.trans (hkeeps.offset_eq.trans hoffset).symm)
  calc v.entry = joined.snapshot := hslots.symm
    _ = l'.snapshot := by rw [hsame]
    _ = l.snapshot := hkeeps.snapshot_eq hfrozen
    _ = slots := hsnapshot

/-- At a jump target the backend is told first the label and the stack that control goes on with. -/
theorem told_of_isTarget {v : Visit} (hv : v ∈ visits body world options)
    (htarget : account.context.mask.isTarget v.offset = true) :
    [.label v.offset, .refresh v.entry] <+: v.directives := by
  obtain ⟨before, hvisited, _⟩ := account.exists_before
    (Engine.kept_coherent account.context) account.prepared.coherent hv
  have htold := hvisited.work.1
  unfold Engine.enterDirectives at htold
  rw [if_pos htarget] at htold
  exact htold

/-- Control goes on with the prescribed stack at every entry point. -/
theorem startsWith {offset : Nat} {slots : Slots}
    (h : Region.EntryPoint account.mask account.joins offset slots) :
    StartsWith (visits body world options) offset slots := by
  refine ⟨account.exists_visit h.isStart, fun v hv hoffset => ?_⟩
  subst hoffset
  have hentry : v.entry = slots := account.entry_of_hasSeed hv h.isTarget h.hasSeed
  refine ⟨hentry, ?_⟩
  rw [← hentry]
  exact account.told_of_isTarget hv h.isTarget

end Session.Account

/-- **Every block of an exception region starts with the stack that belongs there.** In a method
that is verified, the try block and a cleanup handler start with an empty stack, a catch handler
with the exception that it names, and a filter and its handler with an exception of the base class.
The instruction there is visited, and the backend is told the same stack. -/
theorem verify_regionEntries (body : MethodBody) (world : Universe) (options : Options)
    (backend : Recorder) {v : Verified} (h : (verify body world options backend).1 = .ok v) :
    let visits := Session.visits body world options
    visits.map (·.instruction) = (disassemble body.code).instructions ∧
      (Session.run body world options).directives.toList = visits.flatMap (·.directives) ∧
      ∀ r ∈ body.regions, r.Entries world (StartsWith visits) := by
  obtain ⟨a, ha⟩ := verify_eq_ok h
  obtain ⟨account⟩ := Session.exists_account ha
  refine ⟨account.instructions_eq, account.directives_eq, fun r hr => ?_⟩
  exact (account.entries r hr).imp fun offset slots hentry => account.startsWith hentry

/-- The zoo, with a token for dogs. -/
def Universe.dogZoo : Universe := zoo.extend (.type (.ref ⟨23⟩))

/-- Protects one block in three ways: with a filter and its handler, with a handler for dogs, and
with a cleanup handler around all of these. -/
def guarded : MethodBody where
  code := [0x00, 0xDE, 0x0B, 0x26, 0x16, 0xFE, 0x11, 0x26, 0xDE, 0x04, 0x26, 0xDE, 0x01, 0xDC, 0x2A]
  maxStack := 1
  regions :=
    [⟨.filter 3, ⟨0, 3⟩, ⟨7, 3⟩⟩, ⟨.catchType (TokenTable.type.token 0), ⟨0, 3⟩, ⟨10, 3⟩⟩,
      ⟨.finally, ⟨0, 13⟩, ⟨13, 1⟩⟩]

/-- The three regions share a try block, and each handler has a stack of its own. -/
theorem verify_guarded_regionEntries :
    (verify guarded .dogZoo {} (.withRestarts 0)).1 = .ok ⟨0, 6, 1⟩ ∧
      let visits := Session.visits guarded .dogZoo {}
      StartsWith visits 0 [] ∧ StartsWith visits 3 [.object (.ref WellKnown.exception.id)] ∧
        StartsWith visits 7 [.object (.ref WellKnown.exception.id)] ∧
        StartsWith visits 10 [.object (.ref ⟨23⟩)] ∧ StartsWith visits 13 [] := by
  have haccepted : (verify guarded .dogZoo {} (.withRestarts 0)).1 = .ok ⟨0, 6, 1⟩ := by
    decide +kernel
  obtain ⟨_, _, hentries⟩ := verify_regionEntries guarded .dogZoo {} (.withRestarts 0) haccepted
  obtain ⟨htry, hfilter, hhandler⟩ := hentries ⟨.filter 3, ⟨0, 3⟩, ⟨7, 3⟩⟩ (by decide)
  obtain ⟨_, ty, hty, hcatch⟩ :=
    hentries ⟨.catchType (TokenTable.type.token 0), ⟨0, 3⟩, ⟨10, 3⟩⟩ (by decide)
  obtain ⟨_, hcleanup⟩ := hentries ⟨.finally, ⟨0, 13⟩, ⟨13, 1⟩⟩ (by decide)
  have hdog : Universe.dogZoo.type? (TokenTable.type.token 0) = some (.ref ⟨23⟩) := by
    decide +kernel
  cases hty.symm.trans hdog
  exact ⟨haccepted, htry, hfilter, hhandler, hcatch, hcleanup⟩

end ManagedCode
