import ManagedCode.Proofs.Effect.SlotForms
import ManagedCode.Proofs.Engine.Moments
import ManagedCode.Proofs.Verify.Sessions

set_option autoImplicit false

/-! # The slots of a session are well formed

A pass starts with an empty stack and with the labels of exception regions, which hold objects at
most. From there on every slot is made by an operation or recorded at a label, so all slots are well
formed at every moment, also in a pass that is rejected.
-/

namespace ManagedCode

namespace Session

/-- The moments of the pass of a session; none, if it ends before the first instruction. -/
def moments (body : MethodBody) (world : Universe) (options : Options) : List Moment :=
  match prepare body world options with
  | .error _ => []
  | .ok joins =>
      let cx := context body world options joins
      Engine.moments cx (disassemble body.code).instructions (Engine.start cx joins.labels)

variable {body : MethodBody} {world : Universe} {options : Options} {joins : Joins}

theorem moments_of_prepare (h : prepare body world options = .ok joins) :
    let cx := context body world options joins
    moments body world options =
      Engine.moments cx (disassemble body.code).instructions (Engine.start cx joins.labels) := by
  simp only [moments, h]

/-- What holds of all objects holds of the slots that a pass starts with. -/
theorem holds_start {P : Slot → Prop} (hP : ∀ ty : Ty, ty.isReference = true → P (.object ty))
    (h : prepare body world options = .ok joins) :
    Engine.Holds P body.maxStack
      (Engine.start (context body world options joins) joins.labels) := by
  obtain ⟨mask, hscan, hregions⟩ := prepare_eq_ok h
  obtain ⟨_, _, hdescribes⟩ := JumpMask.ofListing_eq_ok hscan
  obtain ⟨hprepared, _⟩ := Joins.addRegions_eq_ok hdescribes.bound_eq hregions
  exact ⟨hprepared.coherent, Joins.addRegions_holds hP hregions, rfl, Nat.zero_le _, by
    simp [Engine.start]⟩

/-- **All slots are well formed at every moment of a pass.** Let the universe be made from the core
classes by any extensions, with enumerations of numbers. Then every slot on the stack and in every
snapshot has the precise type that goes with its kind, from the start of the pass to its end or to
the instruction that is rejected. The moments include the beginning and the end of every visit. -/
theorem wellFormed_moments {world : Universe} (hworld : world.Built)
    (henums : ∀ id p, world.underlying? id = some p → p ≠ .void ∧ p ≠ .typedRef)
    (body : MethodBody) (options : Options) :
    (∀ m ∈ moments body world options,
      (∀ slot ∈ m.slots, slot.WellFormed world) ∧
        ∀ l ∈ m.labels.labels, ∀ slot ∈ l.snapshot, slot.WellFormed world) ∧
      ∀ v ∈ visits body world options,
        v.entered.moment ∈ moments body world options ∧
          v.left.moment ∈ moments body world options := by
  cases hprepare : prepare body world options with
  | error e =>
      have hnone : visits body world options = [] := visits_of_prepare_error hprepare
      simp [moments, hprepare, hnone]
  | ok joins =>
      rw [moments_of_prepare hprepare, visits_of_prepare hprepare]
      have hmade := madeSlots_wellFormed hworld henums
      refine ⟨?_, fun v hv => Engine.mem_moments_of_visits hv⟩
      exact Engine.moments_holds (Slot.unifies_wellFormed world) hmade
        (holds_start hmade.object hprepare)

end Session

/-- Puts a colour below a dog or a cat, and adds them up:
`ldarg.1; ldarg.2; ldarg.0; brtrue.s 7; pop; ldarg.3; add; ret`. -/
def paintPets : MethodBody where
  code := [0x03, 0x04, 0x02, 0x2D, 0x02, 0x26, 0x05, 0x58, 0x2A]
  maxStack := 3
  signature := { params := [.primitive .int32, .value ⟨25⟩, .ref ⟨23⟩, .ref ⟨24⟩] }

/-- An animal cannot be added to a colour. Where that is found out, the colour is a number and the
animal is of the class that dogs and cats share. -/
theorem Session.wellFormed_moments_paintPets :
    (run paintPets .paintedZoo {}).result = .error (.type 7 none) ∧
      ∃ m ∈ moments paintPets .paintedZoo {},
        m.slots = [.object (.ref ⟨22⟩), .int32] ∧
          (∀ slot ∈ m.slots, slot.WellFormed .paintedZoo) ∧
          ∀ l ∈ m.labels.labels, ∀ slot ∈ l.snapshot, slot.WellFormed .paintedZoo := by
  have hrejected : (run paintPets .paintedZoo {}).result = .error (.type 7 none) := by
    decide +kernel
  have hmoment : (moments paintPets .paintedZoo {}).any
      (·.slots = [.object (.ref ⟨22⟩), .int32]) = true := by
    decide +kernel
  obtain ⟨m, hm, hslots⟩ := List.any_eq_true.mp hmoment
  obtain ⟨hall, _⟩ :=
    wellFormed_moments Universe.built_paintedZoo Universe.underlying?_paintedZoo paintPets {}
  exact ⟨hrejected, m, hm, of_decide_eq_true hslots, hall m hm⟩

end ManagedCode
