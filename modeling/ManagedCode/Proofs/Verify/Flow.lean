import ManagedCode.Proofs.Verify.Sessions
import Mathlib.Control.Monad.Basic

set_option autoImplicit false

/-! # Flow soundness

A method is looked at once, in address order, while control takes any number of turns through it.
Still the stacks agree along every edge that control can take: what an instruction leaves behind
fits what the instruction at the other end of the edge was verified with.

* Along a jump forward, the label that the jump meets only widens until its code is verified.
* Along a jump back, and from an instruction to itself, the label was verified and is frozen.
* Where control falls through, the next visit starts with the stack that the one before it left.

That control can fall through at all has to be known of the visit, as a pass also goes on behind an
unconditional transfer; it is known of every instruction that control can reach
(`Session.Account.entered_of_reachable`).
-/

namespace ManagedCode

/-! ## Reachable instructions -/

/-- Where the blocks of a region start. -/
def Region.entryOffsets (r : Region) : List Nat :=
  match r.kind with
  | .filter start => [r.tryBlock.start, r.handler.start, start]
  | _ => [r.tryBlock.start, r.handler.start]

theorem Region.mem_entryOffsets_iff {r : Region} {offset : Nat} :
    offset ∈ r.entryOffsets ↔
      offset = r.tryBlock.start ∨ offset = r.handler.start ∨ r.kind = .filter offset := by
  unfold entryOffsets
  cases r.kind with
  | filter start => simp [eq_comm]
  | _ => simp

theorem Region.Entries.of_mem {r : Region} {u : Universe} {E : Nat → Slots → Prop}
    (h : r.Entries u E) {offset : Nat} (hoffset : offset ∈ r.entryOffsets) :
    ∃ slots, E offset slots := by
  obtain ⟨htry, hhandler⟩ := h
  unfold Region.entryOffsets at hoffset
  cases hkind : r.kind with
  | catchType token =>
      simp only [hkind, List.mem_cons, List.not_mem_nil, or_false] at hoffset hhandler
      obtain ⟨ty, _, hhandler⟩ := hhandler
      rcases hoffset with rfl | rfl
      · exact ⟨_, htry⟩
      · exact ⟨_, hhandler⟩
  | filter start =>
      simp only [hkind, List.mem_cons, List.not_mem_nil, or_false] at hoffset hhandler
      rcases hoffset with rfl | rfl | rfl
      · exact ⟨_, htry⟩
      · exact ⟨_, hhandler.2⟩
      · exact ⟨_, hhandler.1⟩
  | _ =>
      simp only [hkind, List.mem_cons, List.not_mem_nil, or_false] at hoffset hhandler
      rcases hoffset with rfl | rfl
      · exact ⟨_, htry⟩
      · exact ⟨_, hhandler⟩

/-- Control can reach an instruction of the method, from its start or from a block of one of its
exception regions. -/
inductive MethodBody.Reachable (body : MethodBody) : Instruction → Prop where
  | start {i : Instruction} (hi : i ∈ (disassemble body.code).instructions)
      (hoffset : i.offset = 0) : body.Reachable i
  | region {i : Instruction} {r : Region} (hi : i ∈ (disassemble body.code).instructions)
      (hr : r ∈ body.regions) (hoffset : i.offset ∈ r.entryOffsets) : body.Reachable i
  | step {i j : Instruction} (hi : body.Reachable i)
      (hj : j ∈ (disassemble body.code).instructions) (hij : i.Leads j) : body.Reachable j

theorem MethodBody.Reachable.mem {body : MethodBody} {i : Instruction} (h : body.Reachable i) :
    i ∈ (disassemble body.code).instructions := by
  cases h <;> assumption

namespace Session.Account

variable {body : MethodBody} {world : Universe} {options : Options}
  (account : Account body world options)

/-! ## Before and after a visit -/

theorem sound_start : Engine.Sound body.maxStack account.start where
  coherent := account.prepared.coherent
  labels := account.typed
  stack := ⟨rfl, Nat.zero_le _, by simp [start, Engine.start]⟩

/-- The pass starts at the first instruction. -/
theorem exists_first : ∃ first rest, visits body world options = first :: rest ∧
    first.offset = 0 ∧ Engine.Visited account.context account.start first := by
  have hpath : Engine.Path account.context account.start _ _ := account.path
  have hconsecutive := account.consecutive
  cases hvisits : visits body world options with
  | nil =>
      -- A method without instructions runs off its end.
      rw [hvisits] at hpath
      have hcheck := account.checkEnd_eq
      rw [show account.final = account.start from hpath] at hcheck
      cases hcheck
  | cons first rest =>
      rw [hvisits] at hpath hconsecutive
      exact ⟨first, rest, rfl, hconsecutive.1, hpath.1⟩

/-- The first instruction is entered with an empty stack. -/
theorem entry_first {first : Visit}
    (hfirst : Engine.Visited account.context account.start first) :
    first.entry = [] ∧ first.entered.afterTransfer = false := by
  obtain ⟨hfit, hfall⟩ := Engine.enter_fit account.sound_start hfirst.enter_eq rfl
  exact ⟨List.forall₂_nil_left_iff.mp hfit, hfall⟩

/-! ## Jumps back -/

include account in
/-- What a visit leaves behind fits the label at each of its targets. -/
theorem exists_fit {v : Visit} (hv : v ∈ visits body world options) {target : Int}
    (h : target ∈ v.instruction.targets) :
    ∃ l ∈ v.left.labels.labels, (l.offset : Int) = target ∧
      Slots.Fit world v.exit l.snapshot := by
  have hkept := Engine.kept_typed account.context body.maxStack
  obtain ⟨before, hvisited, hbefore, _⟩ := account.exists_before hkept account.sound_start hv
  have hentered := (hkept.visited hbefore hvisited).1.1
  exact (Engine.fit_of_visited hvisited hentered (account.decoded hv)).2 target h

/-- From the visit of a jump target on, the label there records the stack that was found. -/
theorem label?_later {v w : Visit} (hv : v ∈ visits body world options)
    (hw : w ∈ visits body world options)
    (htarget : account.context.mask.isTarget w.offset = true) (hle : w.offset ≤ v.offset) :
    v.left.labels.Coherent ∧
      ∃ l, v.left.labels.label? w.offset = some l ∧ l.snapshot = w.entry := by
  have hkept := Engine.kept_coherent account.context
  have hstart : account.start.labels.Coherent := account.prepared.coherent
  obtain ⟨before, hvisited, hbefore, _⟩ := account.exists_before hkept hstart hv
  obtain ⟨_, hcoherent, hwork⟩ := hkept.visited hbefore hvisited
  have hlater : w.entered.labels.Carries Label.Keeps v.left.labels := by
    have horder := (Engine.pairwise_offset account.consecutive).and
      (hkept.pairwise hstart account.path)
    rcases Engine.eq_or_of_pairwise horder hw hv with rfl | ⟨_, hafter⟩ | ⟨hlt, _⟩
    · exact hwork
    · obtain ⟨before', hvisited', hbefore', _⟩ := account.exists_before hkept hstart hw
      exact hkept.trans (hkept.visited hbefore' hvisited').2.2 (hkept.trans hafter hwork)
    · omega
  -- The label was frozen when the code there was verified.
  obtain ⟨_, _, joined, hjoined, hoffset, hreached, hslots⟩ := account.exists_joined hw htarget
  obtain ⟨l, hl, hkeeps⟩ := hlater joined hjoined
  have hfrozen : joined.frozen = true := by simp [Label.frozen, hreached]
  refine ⟨hcoherent, l, ?_, (hkeeps.snapshot_eq hfrozen).trans hslots⟩
  exact hcoherent.label?_eq_some_iff.mpr ⟨hl, hkeeps.offset_eq.trans hoffset⟩

/-- Along a jump back, in any universe: what arrives fits what was found at the target. -/
theorem fit_of_backward {v w : Visit} (hv : v ∈ visits body world options)
    (hw : w ∈ visits body world options)
    (htarget : account.context.mask.isTarget w.offset = true) (hle : w.offset ≤ v.offset)
    (h : (w.offset : Int) ∈ v.instruction.targets) : Slots.Fit world v.exit w.entry := by
  obtain ⟨l, hl, hoffset, hfit⟩ := account.exists_fit hv h
  obtain ⟨hcoherent, l', hl', hslots⟩ := account.label?_later hv hw htarget hle
  have hfound : v.left.labels.label? w.offset = some l :=
    hcoherent.label?_eq_some_iff.mpr ⟨hl, Int.ofNat_inj.mp hoffset⟩
  have hsame : l' = l := Option.some.inj (hl'.symm.trans hfound)
  rw [← hslots, hsame]
  exact hfit

section Orderly

variable (hu : world.Orderly)
include account hu

theorem kept : Engine.Kept account.context (Engine.Sound body.maxStack)
    (LabelStore.Carries (Label.Evolves world)) :=
  Engine.kept_sound account.context hu body.maxStack

theorem sound {v : Visit} (hv : v ∈ visits body world options) :
    Engine.Sound body.maxStack v.entered ∧ Engine.Sound body.maxStack v.left := by
  obtain ⟨before, hvisited, hbefore, _⟩ :=
    account.exists_before (account.kept hu) account.sound_start hv
  obtain ⟨⟨hentered, _⟩, hleft, _⟩ := (account.kept hu).visited hbefore hvisited
  exact ⟨hentered, hleft⟩

/-! ## Jumps forward -/

/-- Along a jump forward: the label widens until the code there is verified. -/
theorem fit_of_forward {v w : Visit} {l : Label} (hw : w ∈ visits body world options)
    (htarget : account.context.mask.isTarget w.offset = true)
    (hl : l ∈ v.left.labels.labels) (hoffset : l.offset = w.offset)
    (hfit : Slots.Fit world v.exit l.snapshot)
    (hlater : v.left.labels.Carries (Label.Evolves world) w.entered.labels) :
    Slots.Fit world v.exit w.entry := by
  obtain ⟨_, hcoherent, joined, hjoined, hoffset', _, hslots⟩ := account.exists_joined hw htarget
  obtain ⟨l', hl', hevolves⟩ := hlater l hl
  have hsame : l' = joined := hcoherent.offset_inj l' hl' joined hjoined
    ((hevolves.offset_eq.trans hoffset).trans hoffset'.symm)
  have hwiden : Slots.Fit world v.exit l'.snapshot := hfit.widen hu hevolves.widen
  rw [hsame, hslots] at hwiden
  exact hwiden

/-- **What a jump leaves behind fits its target**, wherever the target lies. -/
theorem fit_of_target {v w : Visit} (hv : v ∈ visits body world options)
    (hw : w ∈ visits body world options) (h : (w.offset : Int) ∈ v.instruction.targets) :
    Slots.Fit world v.exit w.entry := by
  have htarget : account.context.mask.isTarget w.offset = true := by
    obtain ⟨w', _, heq, hmarked⟩ := account.exists_target hv h
    rw [← Int.ofNat_inj.mp heq]
    exact hmarked
  by_cases hle : w.offset ≤ v.offset
  · exact account.fit_of_backward hv hw htarget hle h
  · have horder := (Engine.pairwise_offset account.consecutive).and
      ((account.kept hu).pairwise account.sound_start account.path)
    rcases Engine.eq_or_of_pairwise horder hv hw with rfl | ⟨_, hforward⟩ | ⟨hlt, _⟩
    · omega
    · obtain ⟨l, hl, hoffset, hfit⟩ := account.exists_fit hv h
      exact account.fit_of_forward hu hw htarget hl (Int.ofNat_inj.mp hoffset) hfit hforward
    · omega

/-! ## Falling through -/

/-- **Control that falls through finds a next instruction**, and its stack fits there. -/
theorem exists_next {v : Visit} (hv : v ∈ visits body world options)
    (hentered : v.entered.afterTransfer = false)
    (hfalls : v.instruction.opcode.isUnconditional = false) :
    ∃ w ∈ visits body world options, w.offset = v.instruction.next ∧
      w.entered.afterTransfer = false ∧ Slots.Fit world v.exit w.entry := by
  obtain ⟨before, hvisited, _⟩ :=
    account.exists_before (account.kept hu) account.sound_start hv
  have hleft : v.left.afterTransfer = false := by
    rw [← hfalls]
    exact (Engine.fit_of_visited hvisited (account.sound hu hv).1 (account.decoded hv)).1
      hentered
  rcases Engine.Path.next account.path account.consecutive v hv with hfinal | ⟨w, hw, hnext⟩
  · -- The pass does not end where control falls through.
    have hcheck := account.checkEnd_eq
    unfold Engine.checkEnd at hcheck
    split at hcheck
    · cases hcheck
    · have hend := require_eq_ok hcheck
      rw [← hfinal, hleft] at hend
      cases hend
  · obtain ⟨hfit, hfall⟩ :=
      Engine.enter_fit (account.sound hu hv).2 hnext.2.enter_eq hleft
    exact ⟨w, hw, hnext.1, hfall, hfit⟩

/-- Control that reaches an instruction has fallen through to it or jumped there. -/
theorem entered_of_reachable {i : Instruction} (h : body.Reachable i) :
    ∀ v ∈ visits body world options, v.instruction = i → v.entered.afterTransfer = false := by
  induction h with
  | start hi hoffset =>
      rintro v hv rfl
      obtain ⟨first, rest, hvisits, hzero, hfirst⟩ := account.exists_first
      have hmem : first ∈ visits body world options := hvisits ▸ List.mem_cons_self
      have hsame : v = first :=
        Engine.eq_of_offset_eq account.consecutive hv hmem (hoffset.trans hzero.symm)
      rw [hsame]
      exact (account.entry_first hfirst).2
  | region hi hr hoffset =>
      rintro v hv rfl
      obtain ⟨slots, hentry⟩ := (account.entries _ hr).of_mem hoffset
      exact (account.exists_joined hv hentry.isTarget).1
  | @step i j hi hj hij ih =>
      rintro v hv rfl
      have hmem := hi.mem
      rw [← account.instructions_eq] at hmem
      obtain ⟨x, hx, rfl⟩ := List.mem_map.mp hmem
      rcases hij with htarget | ⟨hfalls, hoffset⟩
      · obtain ⟨w, _, heq, hmarked⟩ := account.exists_target hx htarget
        rw [Int.ofNat_inj.mp heq] at hmarked
        exact (account.exists_joined hv hmarked).1
      · obtain ⟨w, hw, hnext, hfall, _⟩ := account.exists_next hu hx (ih x hx rfl) hfalls
        have hsame : v = w :=
          Engine.eq_of_offset_eq account.consecutive hv hw (hoffset.trans hnext.symm)
        rw [hsame]
        exact hfall

end Orderly

end Session.Account

/-- **Acceptance is sound for the flow of control.** In a method that is verified in a well-built
universe, the whole code is decoded and visited, the first instruction starts with an empty stack,
and the stack is never higher than declared. Control that reaches an instruction stays in the code:
every target is an instruction, and there is a next instruction unless control never falls through.
Along each of these edges, the stack that is left behind fits the stack that is found. -/
theorem verify_flow {world : Universe} (hu : world.WellBuilt) (body : MethodBody)
    (options : Options) (backend : Recorder) {v : Verified}
    (h : (verify body world options backend).1 = .ok v) :
    let visits := Session.visits body world options
    (disassemble body.code).fault = none ∧
      visits.map (·.instruction) = (disassemble body.code).instructions ∧
      visits.head?.map (·.entry) = some [] ∧
      (∀ x ∈ visits, x.entry.length ≤ body.maxStack ∧ x.exit.length ≤ body.maxStack) ∧
      ∀ x ∈ visits, body.Reachable x.instruction →
        (∀ target ∈ x.instruction.targets, ∃ y ∈ visits, (y.offset : Int) = target) ∧
        (x.instruction.opcode.isUnconditional = false →
          ∃ y ∈ visits, y.offset = x.instruction.next) ∧
        ∀ y ∈ visits, x.instruction.Leads y.instruction → Slots.Fit world x.exit y.entry := by
  intro visits
  obtain ⟨a, ha⟩ := verify_eq_ok h
  obtain ⟨account⟩ := Session.exists_account ha
  have hu := hu.orderly
  refine ⟨account.fault_eq, account.instructions_eq, ?_, ?_, ?_⟩
  · obtain ⟨first, rest, hvisits, _, hfirst⟩ := account.exists_first
    rw [show visits = first :: rest from hvisits]
    exact congrArg some (account.entry_first hfirst).1
  · intro x hx
    obtain ⟨hentered, hleft⟩ := account.sound hu hx
    exact ⟨hentered.stack.height_le, hleft.stack.height_le⟩
  · intro x hx hreachable
    have hentered := account.entered_of_reachable hu hreachable x hx rfl
    refine ⟨fun target htarget => ?_, fun hfalls => ?_, fun y hy hleads => ?_⟩
    · obtain ⟨y, hy, heq, _⟩ := account.exists_target hx htarget
      exact ⟨y, hy, heq⟩
    · obtain ⟨y, hy, hnext, _⟩ := account.exists_next hu hx hentered hfalls
      exact ⟨y, hy, hnext⟩
    · rcases hleads with htarget | ⟨hfalls, hoffset⟩
      · exact account.fit_of_target hu hx hy htarget
      · obtain ⟨w, hw, hnext, _, hfit⟩ := account.exists_next hu hx hentered hfalls
        have hsame : y = w :=
          Engine.eq_of_offset_eq account.consecutive hy hw (hoffset.trans hnext.symm)
        rw [hsame]
        exact hfit

/-- Looks at a dog or at a cat, as often as the first argument says:
`ldarg.1; ldarg.0; brtrue.s 6; pop; ldarg.2; pop; ldarg.0; brtrue.s 0; ret`. -/
def visitPets : MethodBody where
  code := [0x03, 0x02, 0x2D, 0x02, 0x26, 0x04, 0x26, 0x02, 0x2D, 0xF6, 0x2A]
  maxStack := 2
  signature := { params := [.primitive .int32, .ref ⟨23⟩, .ref ⟨24⟩] }

/-- A dog is taken along a jump to a place where a cat arrives later, and what is found there is
their common class. -/
theorem verify_visitPets_flow :
    Universe.zoo.WellBuilt ∧
      (verify visitPets .zoo {} (.withRestarts 0)).1 = .ok ⟨0, 2, 2⟩ ∧
      ∃ x ∈ Session.visits visitPets .zoo {}, ∃ y ∈ Session.visits visitPets .zoo {},
        x.instruction = ⟨2, .brtrueS, 2, .branch 6⟩ ∧ (y.offset : Int) = 6 ∧
          Slots.Fit .zoo x.exit y.entry := by
  have haccepted : (verify visitPets .zoo {} (.withRestarts 0)).1 = .ok ⟨0, 2, 2⟩ := by
    decide +kernel
  have hlisting : ((disassemble visitPets.code).instructions).take 3 =
      [⟨0, .ldarg1, 1, .none⟩, ⟨1, .ldarg0, 1, .none⟩, ⟨2, .brtrueS, 2, .branch 6⟩] := by
    decide +kernel
  have hmem : ∀ i ∈ [⟨0, .ldarg1, 1, .none⟩, ⟨1, .ldarg0, 1, .none⟩, ⟨2, .brtrueS, 2, .branch 6⟩],
      i ∈ (disassemble visitPets.code).instructions :=
    fun i hi => List.mem_of_mem_take (hlisting ▸ hi)
  have hfirst : visitPets.Reachable ⟨0, .ldarg1, 1, .none⟩ := .start (hmem _ (by simp)) rfl
  have hsecond : visitPets.Reachable ⟨1, .ldarg0, 1, .none⟩ :=
    .step hfirst (hmem _ (by simp)) (.inr ⟨rfl, rfl⟩)
  have hthird : visitPets.Reachable ⟨2, .brtrueS, 2, .branch 6⟩ :=
    .step hsecond (hmem _ (by simp)) (.inr ⟨rfl, rfl⟩)
  obtain ⟨_, hinstructions, _, _, hflow⟩ :=
    verify_flow Universe.wellBuilt_zoo visitPets {} (.withRestarts 0) haccepted
  have hvisited : ⟨2, .brtrueS, 2, .branch 6⟩ ∈
      (Session.visits visitPets .zoo {}).map (·.instruction) :=
    hinstructions ▸ hthird.mem
  obtain ⟨x, hx, hi⟩ := List.mem_map.mp hvisited
  obtain ⟨htargets, _, hfit⟩ := hflow x hx (hi ▸ hthird)
  have hjump : (6 : Int) ∈ x.instruction.targets := by simp [hi, Instruction.targets]
  obtain ⟨y, hy, hoffset⟩ := htargets 6 hjump
  exact ⟨Universe.wellBuilt_zoo, haccepted, x, hx, y, hy, hi, hoffset,
    hfit y hy (.inl (hoffset ▸ hjump))⟩

end ManagedCode
