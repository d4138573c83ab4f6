import ManagedCode.Proofs.Effect.Narrowing
import ManagedCode.Proofs.Engine.Steps

set_option autoImplicit false

/-! # Instructions on narrower stacks

An instruction is checked once, with the stack that all paths to it agree on. `process_narrowed`
says why that is enough: with objects of subtypes on the stack it is accepted as well, does the same
to the rest of the state, and leaves a stack of the same height with objects of subtypes behind.
There is one exception to the last part. A reference that is loaded from a null array is taken for
an `Object`, whatever the array could have been.
-/

namespace ManagedCode

/-- The state with other slots on the stack. -/
def EngineState.withSlots (st : EngineState) (slots : Slots) : EngineState :=
  { st with stack := { st.stack with slots } }

namespace Engine

variable {cx : Context} {pc : Nat} {st next : EngineState} {operation : Operation} {slots : Slots}

/-- Nothing about a modifier depends on the stack. -/
theorem addModifier_withSlots {modifier : Modifier}
    (h : addModifier cx pc modifier st = .ok next) (slots : Slots) :
    addModifier cx pc modifier (st.withSlots slots) = .ok (next.withSlots slots) := by
  rw [addModifier_eq] at h ⊢
  obtain ⟨constraint, hconstraint, h⟩ := bind_eq_ok h
  obtain ⟨_, hfresh, h⟩ := bind_eq_ok h
  cases h
  have hconstraint' : checkModifier cx pc (st.withSlots slots) modifier = .ok constraint := by
    cases modifier <;> exact hconstraint
  exact bind_of_ok hconstraint' (bind_of_ok hfresh rfl)

/-- An operation with the given effect, which leads nowhere but to the next instruction. -/
theorem execute_of_effect (operation : Operation) (st : EngineState) {effect : Effect}
    (h : (site cx pc st).perform operation st.stack = .ok effect) (htargets : effect.targets = []) :
    execute cx pc operation st =
      .ok ({ stack := effect.stack
             labels := st.labels
             tailCall := if st.pending.tail then some pc else none
             afterTransfer := operation.isUnconditional
             last := some pc }, effect.directive) := by
  unfold execute
  rw [h]
  refine bind_of_ok rfl ?_
  rw [htargets]
  rfl

/-- What the slots are after an instruction, given those after the same instruction on a wider
stack: narrower, but for what is loaded from a null array. -/
def Narrowed (world : Universe) (operation : Operation) (before slots after slots' : Slots) :
    Prop :=
  Slots.Widen world slots' after ∨
    operation = .loadElement .reference ∧ slots[1]? = some .null ∧ before[1]? ≠ some .null ∧
      ∃ top rest rest', after = top :: rest ∧ slots' = .object (.ref WellKnown.object.id) :: rest' ∧
        Slots.Widen world rest' rest

theorem Narrowed.length_eq {world : Universe} {before after slots' : Slots}
    (h : Narrowed world operation before slots after slots') : slots'.length = after.length := by
  rcases h with hwiden | ⟨_, _, _, top, rest, rest', rfl, rfl, hrest⟩
  · exact hwiden.length_eq
  · rw [List.length_cons, List.length_cons, hrest.length_eq]

theorem execute_narrowed (hu : cx.world.Rooted) (htargets : operation.targets = [])
    (haddress : operation.takesElementAddress = false)
    (hslots : Slots.Widen cx.world slots st.stack.slots) {directive : Directive}
    (h : execute cx pc operation st = .ok (next, directive)) :
    ∃ slots' directive',
      execute cx pc operation (st.withSlots slots) = .ok (next.withSlots slots', directive') ∧
        Narrowed cx.world operation st.stack.slots slots next.stack.slots slots' := by
  obtain ⟨effect, labels, heffect, hlabels, rfl, rfl⟩ := execute_state h
  have hcovers : st.stack.Covers cx.world (st.withSlots slots).stack := ⟨hslots, rfl, rfl⟩
  by_cases hnull : operation = .loadElement .reference ∧ slots[1]? = some .null ∧
      st.stack.slots[1]? ≠ some .null
  · obtain ⟨rfl, hnull, hbefore⟩ := hnull
    obtain ⟨hperform, hnone, top, rest, htop, hrest⟩ :=
      Site.loadElement_of_null hcovers heffect hnull
    rw [hnone] at hlabels
    cases hlabels
    have hexecute := execute_of_effect (.loadElement .reference) (st.withSlots slots) hperform rfl
    refine ⟨_, _, hexecute, .inr ⟨rfl, hnull, hbefore, ?_⟩⟩
    exact ⟨top, rest, _, htop, rfl, hrest⟩
  · have hkeeps : operation = .loadElement .reference → slots[1]? = some .null →
        st.stack.slots[1]? = some .null := by
      intro hload hslot
      by_contra hbefore
      exact hnull ⟨hload, hslot, hbefore⟩
    have hallows : AllowsUpTo (Effect.Covers cx.world)
        ((site cx pc st).perform operation st.stack)
        ((site cx pc st).perform operation (st.withSlots slots).stack) :=
      Site.perform_covers hu hcovers htargets haddress hkeeps
    obtain ⟨effect', hperform, hstack, hnone, hnone'⟩ := hallows effect heffect
    rw [hnone] at hlabels
    cases hlabels
    have hexecute := execute_of_effect operation (st.withSlots slots) hperform hnone'
    rw [hstack.eq_of_slots] at hexecute
    exact ⟨effect'.stack.slots, effect'.directive, hexecute, .inl hstack.slots⟩

/-- **An instruction does the same with objects of subtypes on the stack.** If it is accepted, then
it is accepted with any narrower stack, and only the stack may differ afterwards. -/
theorem process_narrowed (hu : cx.world.SparesObject) (htargets : operation.targets = [])
    (haddress : operation.takesElementAddress = false)
    (hslots : Slots.Widen cx.world slots st.stack.slots)
    (h : (process cx pc operation st).result = .ok next) :
    ∃ slots', (process cx pc operation (st.withSlots slots)).result = .ok (next.withSlots slots') ∧
      slots'.length = next.stack.slots.length ∧
      Narrowed cx.world operation st.stack.slots slots next.stack.slots slots' := by
  by_cases hmodify : ∃ modifier, operation = .modify modifier
  · obtain ⟨modifier, rfl⟩ := hmodify
    rw [process_modify_result] at h
    obtain ⟨_, htail, hadd⟩ := bind_eq_ok h
    have hstack : next.stack = st.stack := (addModifier_eq_ok hadd).1
    have hnarrowed : Slots.Widen cx.world slots next.stack.slots := by
      rw [hstack]
      exact hslots
    refine ⟨slots, ?_, hnarrowed.length_eq, .inl hnarrowed⟩
    rw [process_modify_result]
    exact bind_of_ok htail (addModifier_withSlots hadd slots)
  · have hmodify : ∀ modifier, operation ≠ .modify modifier := not_exists.mp hmodify
    rw [process_result hmodify] at h
    obtain ⟨_, htail, h⟩ := bind_eq_ok h
    obtain ⟨_, hadmits, h⟩ := bind_eq_ok h
    obtain ⟨⟨_, directive⟩, hexecute, h⟩ := bind_eq_ok h
    cases h
    obtain ⟨slots', directive', hexecute', hnarrowed⟩ :=
      execute_narrowed hu.rooted htargets haddress hslots hexecute
    refine ⟨slots', ?_, hnarrowed.length_eq, hnarrowed⟩
    rw [process_result hmodify]
    exact bind_of_ok htail (bind_of_ok hadmits (bind_of_ok hexecute' rfl))

/-- A pass over a method that loads from an array. -/
def petPass : Context where
  world := .zoo
  body := { code := [0x9A, 0x2A], maxStack := 2 }
  rawPointers := false
  mask := .empty 2

/-- The state before the load, with an array of animals below an index. -/
def petState : EngineState where
  stack := { slots := [.int32, .object (.array (.ref ⟨22⟩))], bound := 2, highWater := 2 }
  labels := { bound := 8 }

/-- The state after the load, with an animal on the stack. -/
def petLoaded : EngineState where
  stack := { slots := [.object (.ref ⟨22⟩)], bound := 2, highWater := 2 }
  labels := { bound := 8 }
  last := some 0

/-- A dog can be loaded from an array of dogs, and an object from no array. -/
theorem process_narrowed_petPass :
    (process petPass 0 (.loadElement .reference) petState).result = .ok petLoaded ∧
      Slots.Widen .zoo [.int32, .object (.array (.ref ⟨23⟩))] petState.stack.slots ∧
      Slots.Widen .zoo [.int32, .null] petState.stack.slots ∧
      (∃ slots', (process petPass 0 (.loadElement .reference)
          (petState.withSlots [.int32, .object (.array (.ref ⟨23⟩))])).result =
            .ok (petLoaded.withSlots slots') ∧
        slots'.length = 1 ∧
        Narrowed .zoo (.loadElement .reference) petState.stack.slots
          [.int32, .object (.array (.ref ⟨23⟩))] [.object (.ref ⟨22⟩)] slots') ∧
      ∃ slots', (process petPass 0 (.loadElement .reference)
          (petState.withSlots [.int32, .null])).result = .ok (petLoaded.withSlots slots') ∧
        slots'.length = 1 ∧
        Narrowed .zoo (.loadElement .reference) petState.stack.slots [.int32, .null]
          [.object (.ref ⟨22⟩)] slots' := by
  have hload : (process petPass 0 (.loadElement .reference) petState).result = .ok petLoaded := by
    rfl
  have hdogs : Slots.Widen .zoo [.int32, .object (.array (.ref ⟨23⟩))] petState.stack.slots :=
    .cons (.inl rfl) (.cons (.inr ⟨rfl, rfl, by decide⟩) .nil)
  have hnull : Slots.Widen .zoo [.int32, .null] petState.stack.slots :=
    .cons (.inl rfl) (.cons (.inr ⟨rfl, rfl, by decide⟩) .nil)
  have hzoo : petPass.world.SparesObject := Universe.wellBuilt_zoo.sparesObject
  exact ⟨hload, hdogs, hnull, process_narrowed hzoo rfl rfl hdogs hload,
    process_narrowed hzoo rfl rfl hnull hload⟩

end Engine

end ManagedCode
