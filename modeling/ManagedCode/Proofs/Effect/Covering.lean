import ManagedCode.Proofs.Effect.Slots
import ManagedCode.Proofs.Labels.Agreement

set_option autoImplicit false

/-! # Operands on narrower stacks

A stack is checked once, with the types that all paths to an instruction agree on, and the objects
that arrive may be of subtypes. `Stack.Covers u s t`: the stacks are the same but that `t` may hold
objects of subtypes where `s` holds objects. Each check on an operand is closed under subtypes, so
what can be taken off `s` can be taken off `t`, and leaves covered stacks behind.

Arrays need more care. What is stored in an array of a subtype is compared with the same named type,
but an access that names none takes the type from the array, and nothing is known of a null array
(`Site.elementType_covers`).
-/

namespace ManagedCode

/-! ## Slots -/

namespace Slot.Widens

variable {u : Universe} {a b : Slot}

theorem kind_eq (h : a.Widens u b) : a.kind = b.kind := by
  rcases h with rfl | ⟨ha, hb, _⟩
  · rfl
  · exact ha.trans hb.symm

/-- Only objects can be of a subtype. -/
theorem eq_of_kind (h : a.Widens u b) (hb : b.kind ≠ .object) : a = b := by
  rcases h with rfl | ⟨_, hobject, _⟩
  · rfl
  · exact absurd hobject hb

end Slot.Widens

namespace Universe

variable {u : Universe} {source source' : Slot} {raw : Bool}

theorem slotAssignable_of_widens (hu : u.Rooted) (hsource : source'.Widens u source)
    {target : Slot} (h : u.slotAssignable source target raw = true) :
    u.slotAssignable source' target raw = true := by
  rcases hsource with rfl | ⟨hobject', hobject, hty⟩
  · exact h
  · unfold slotAssignable at h ⊢
    rw [hobject] at h
    rw [hobject']
    by_cases htarget : .object = target.kind
    · rw [if_pos htarget] at h ⊢
      exact Slot.bothKnown_trans hty h hu.objectAssignable_trans
    · rw [if_neg htarget] at h ⊢
      exact h

theorem assignableTo_of_widens (hu : u.Rooted) (hsource : source'.Widens u source) {ty : Ty}
    (h : u.assignableTo source ty raw = true) : u.assignableTo source' ty raw = true := by
  unfold assignableTo at h ⊢
  cases hslot : u.slot? ty with
  | none =>
      rw [hslot] at h
      cases h
  | some target =>
      rw [hslot] at h
      exact slotAssignable_of_widens hu hsource h

end Universe

/-! ## Stacks -/

/-- The stacks are the same, but that `t` may hold objects of subtypes. -/
structure Stack.Covers (u : Universe) (s t : Stack) : Prop where
  slots : Slots.Widen u t.slots s.slots
  bound_eq : t.bound = s.bound
  highWater_eq : t.highWater = s.highWater

/-- Something was taken off a stack, and `R` relates it to what was taken off the other. -/
def Stack.Takes {α : Type} (u : Universe) (R : α → α → Prop) (r r' : α × Stack) : Prop :=
  R r.1 r'.1 ∧ r.2.Covers u r'.2

/-- What operations leave behind that send control nowhere but to the next instruction. -/
structure Effect.Covers (u : Universe) (e e' : Effect) : Prop where
  stack : e.stack.Covers u e'.stack
  targets_eq : e.targets = []
  targets_eq' : e'.targets = []

/-- The slot may be the same or hold an object of a subtype. -/
def Slot.Covers (u : Universe) (a b : Slot) : Prop := b.Widens u a

variable {u : Universe}

theorem Slot.Covers.kind_eq {a b : Slot} (h : a.Covers u b) : b.kind = a.kind :=
  Slot.Widens.kind_eq h

/-- One step takes something off both stacks. -/
theorem AllowsUpTo.take {α β γ : Type} {R : α → α → Prop} {S : β → γ → Prop}
    {x y : Except Fault (α × Stack)} {f : α × Stack → Except Fault β}
    {g : α × Stack → Except Fault γ} (hxy : AllowsUpTo (Stack.Takes u R) x y)
    (hfg : ∀ a b s t, R a b → s.Covers u t → AllowsUpTo S (f (a, s)) (g (b, t))) :
    AllowsUpTo S (x >>= f) (y >>= g) :=
  .bind hxy fun r r' h => hfg r.1 r'.1 r.2 r'.2 h.1 h.2

theorem Stack.popKind_eq_ok {s after : Stack} {accepted : List StackKind} {subject : Subject}
    {slot : Slot} (h : s.popKind accepted subject = .ok (slot, after)) :
    s.slots = slot :: after.slots ∧ accepted.contains slot.kind = true := by
  obtain ⟨⟨_, _⟩, hpop, h⟩ := bind_eq_ok h
  obtain ⟨_, hkind, h⟩ := bind_eq_ok h
  cases h
  refine ⟨?_, require_eq_ok hkind⟩
  unfold Stack.pop at hpop
  split at hpop
  · cases hpop
  · cases hpop
    assumption

namespace Stack.Covers

variable {s t : Stack}

theorem height_eq (h : s.Covers u t) : t.slots.length = s.slots.length := h.slots.length_eq

theorem eq_of_slots (h : s.Covers u t) : t = { s with slots := t.slots } := by
  obtain ⟨slots, bound, highWater⟩ := t
  dsimp only
  rw [← h.bound_eq, ← h.highWater_eq]

theorem isEmpty_eq (h : s.Covers u t) : t.isEmpty = s.isEmpty := by
  rw [Bool.eq_iff_iff]
  unfold Stack.isEmpty
  rw [List.isEmpty_iff_length_eq_zero, List.isEmpty_iff_length_eq_zero, h.height_eq]

theorem clear (h : s.Covers u t) : s.clear.Covers u t.clear :=
  ⟨.nil, h.bound_eq, h.highWater_eq⟩

/-- Whether there is room for a slot, and how high the stack gets, does not depend on the slot. -/
theorem push_any (h : s.Covers u t) {slot : Slot} {after : Stack} (hpush : s.push slot = .ok after)
    (slot' : Slot) : t.push slot' = .ok { after with slots := slot' :: t.slots } := by
  unfold Stack.push Stack.load at hpush ⊢
  rw [List.length_cons] at hpush ⊢
  rw [h.height_eq, h.bound_eq, h.highWater_eq]
  by_cases hroom : s.slots.length + 1 ≤ s.bound
  · rw [if_pos hroom] at hpush ⊢
    cases hpush
    rw [← h.bound_eq]
  · rw [if_neg hroom] at hpush
    cases hpush

theorem push (h : s.Covers u t) {slot slot' : Slot} (hslot : slot'.Widens u slot) :
    AllowsUpTo (Covers u) (s.push slot) (t.push slot') := by
  intro after hpush
  refine ⟨_, h.push_any hpush slot', ?_, rfl, rfl⟩
  rw [Stack.slots_of_load hpush]
  exact .cons hslot h.slots

theorem pop (h : s.Covers u t) : AllowsUpTo (Takes u (Slot.Covers u)) s.pop t.pop := by
  unfold Stack.pop
  obtain ⟨hslots, hbound, hhigh⟩ := h
  cases hs : s.slots with
  | nil => exact .error
  | cons slot rest =>
      rw [hs] at hslots
      obtain ⟨slot', rest', hslot, hrest, ht⟩ := List.forall₂_cons_right_iff.mp hslots
      rw [ht]
      exact .ok ⟨hslot, hrest, hbound, hhigh⟩

theorem popMany (h : s.Covers u t) (n : Nat) :
    AllowsUpTo (Takes u fun args args' => Slots.Widen u args' args) (s.popMany n)
      (t.popMany n) := by
  unfold Stack.popMany Stack.height
  rw [h.height_eq]
  by_cases hn : n ≤ s.slots.length
  · rw [if_pos hn, if_pos hn]
    refine .ok ⟨?_, ?_, h.bound_eq, h.highWater_eq⟩
    · exact List.forall₂_reverse_iff.mpr (List.forall₂_take n h.slots)
    · exact List.forall₂_drop n h.slots
  · rw [if_neg hn]
    exact .error

theorem peek (h : s.Covers u t) (depth : Nat) :
    AllowsUpTo (Slot.Covers u) (s.peek depth) (t.peek depth) := by
  unfold Stack.peek
  cases hslot : s.slots[depth]? with
  | none => exact .error
  | some slot =>
      obtain ⟨hlt, rfl⟩ := List.getElem?_eq_some_iff.mp hslot
      have hlt' : depth < t.slots.length := h.height_eq ▸ hlt
      rw [List.getElem?_eq_getElem hlt']
      exact .ok (h.slots.get hlt' hlt)

theorem popKind (h : s.Covers u t) (accepted : List StackKind) (subject : Subject) :
    AllowsUpTo
      (Takes u fun slot slot' => slot'.Widens u slot ∧ accepted.contains slot.kind = true)
      (s.popKind accepted subject) (t.popKind accepted subject) := by
  refine .take h.pop fun slot slot' s t hslot h => ?_
  intro r hr
  obtain ⟨_, hkind, hr⟩ := bind_eq_ok hr
  cases hr
  have hkind := require_eq_ok hkind
  have hkind' : accepted.contains slot'.kind = true := by
    rw [hslot.kind_eq]
    exact hkind
  exact ⟨(slot', t), bind_of_ok (require_of_true hkind' _) rfl, ⟨hslot, hkind⟩, h⟩

/-- What is no object is the same on both stacks. -/
theorem popKind_eq (h : s.Covers u t) {accepted : List StackKind}
    (haccepted : accepted.contains .object = false) (subject : Subject) :
    AllowsUpTo (Takes u fun slot slot' => slot' = slot) (s.popKind accepted subject)
      (t.popKind accepted subject) := by
  intro r hr
  obtain ⟨r', hr', ⟨hslot, hkind⟩, h⟩ := h.popKind accepted subject r hr
  refine ⟨r', hr', hslot.eq_of_kind ?_, h⟩
  intro hobject
  rw [hobject, haccepted] at hkind
  cases hkind

theorem expectEmpty_eq (h : s.Covers u t) : t.expectEmpty = s.expectEmpty := by
  unfold Stack.expectEmpty
  rw [h.isEmpty_eq]

end Stack.Covers

namespace Site

variable {site : Site} {s t : Stack}

/-! ## Operands -/

section Rooted

variable (hu : site.world.Rooted)
include hu

theorem popInto_covers (h : s.Covers site.world t) (ty : Ty) (subject : Subject) :
    AllowsUpTo (Stack.Takes site.world (Slot.Covers site.world)) (site.popInto s ty subject)
      (site.popInto t ty subject) := by
  refine .take h.pop fun slot slot' s t hslot h => ?_
  exact .require (Universe.assignableTo_of_widens hu hslot) (.ok ⟨hslot, h⟩)

/-- Arguments are compared with parameters one by one. -/
theorem argsFit_of_widen {args args' : Slots} (hargs : Slots.Widen site.world args' args)
    {params : List Ty}
    (h : ((args.zip params).all fun (arg, ty) =>
      site.world.assignableTo arg ty site.rawPointers) = true) :
    ((args'.zip params).all fun (arg, ty) =>
      site.world.assignableTo arg ty site.rawPointers) = true := by
  induction hargs generalizing params with
  | nil => rfl
  | cons harg _ ih =>
      cases params with
      | nil => rfl
      | cons ty params =>
          rw [List.zip_cons_cons, List.all_cons, Bool.and_eq_true] at h ⊢
          exact ⟨Universe.assignableTo_of_widens hu harg h.1, ih h.2⟩

theorem popArgs_covers (h : s.Covers site.world t) (params : List Ty) :
    AllowsUpTo (Stack.Takes site.world fun _ _ => True) (site.popArgs s params)
      (site.popArgs t params) := by
  refine .take (h.popMany params.length) fun args args' s t hargs h => ?_
  exact .require (argsFit_of_widen hu hargs) (.ok ⟨trivial, h⟩)

theorem receiverFits_of_widens {owner : Ty} {receiver receiver' : Slot}
    (hreceiver : receiver'.Widens site.world receiver)
    (h : site.receiverFits owner receiver = true) : site.receiverFits owner receiver' = true := by
  rcases hreceiver with rfl | ⟨hobject', hobject, hty⟩
  · exact h
  · obtain ⟨ty', ty, hty', hty, hsub⟩ := Slot.bothKnown_iff.mp hty
    unfold receiverFits at h ⊢
    rw [hobject, hty] at h
    rw [hobject', hty']
    cases hconstraint : site.constraint with
    | some constraint =>
        rw [hconstraint] at h
        cases h
    | none =>
        rw [hconstraint] at h
        cases owner with
        | ref id => exact hu.objectAssignable_trans hsub h
        | array element => exact hu.objectAssignable_trans hsub h
        | _ => cases h

theorem popReceiver_covers (h : s.Covers site.world t) (method : Method) :
    AllowsUpTo (Stack.Takes site.world fun _ _ => True) (site.popReceiver method s)
      (site.popReceiver method t) := by
  unfold popReceiver
  split
  · refine .take h.pop fun receiver receiver' s t hreceiver h => ?_
    exact .require (receiverFits_of_widens hu hreceiver) (.ok ⟨trivial, h⟩)
  · exact .ok ⟨trivial, h⟩

theorem popResult_covers (h : s.Covers site.world t) :
    AllowsUpTo (Stack.Takes site.world fun _ _ => True) (site.popResult s)
      (site.popResult t) := by
  unfold popResult
  split
  · refine .take (popInto_covers hu h _ .result) fun slot slot' s t _ h => ?_
    exact .ok ⟨trivial, h⟩
  · exact .ok ⟨trivial, h⟩

theorem hasField_of_widens {field : Field} {object object' : Slot} {reading : Bool}
    (hobject : object'.Widens site.world object)
    (h : site.hasField field object reading = true) :
    site.hasField field object' reading = true := by
  rcases hobject with rfl | ⟨hkind', hkind, hty⟩
  · exact h
  · obtain ⟨ty', ty, hty', hty, hsub⟩ := Slot.bothKnown_iff.mp hty
    unfold hasField at h ⊢
    rw [hkind, hty] at h
    rw [hkind', hty']
    cases howner : field.owner with
    | ref id =>
        rw [howner] at h
        exact hu.objectAssignable_trans hsub h
    | _ =>
        rw [howner] at h
        cases h

end Rooted

theorem popAnyReceiver_covers (h : s.Covers u t) (signature : Signature) :
    AllowsUpTo (Stack.Takes u fun _ _ => True) (popAnyReceiver signature s)
      (popAnyReceiver signature t) := by
  unfold popAnyReceiver
  split
  · refine .take (h.popKind _ .receiver) fun receiver receiver' s t _ h => ?_
    exact .ok ⟨trivial, h⟩
  · exact .ok ⟨trivial, h⟩

theorem popCompared_covers (h : s.Covers u t) (op : CompareOp) :
    AllowsUpTo (Stack.Takes u fun _ _ => True) (site.popCompared op s)
      (site.popCompared op t) := by
  refine .take h.pop fun right right' s t hright h => ?_
  refine .bind h.pop ?_
  rintro ⟨left, s⟩ ⟨left', t⟩ ⟨hleft, h⟩
  refine .require (fun hcomparable => ?_) (.ok ⟨trivial, h⟩)
  rw [hleft.kind_eq, hright.kind_eq]
  exact hcomparable

/-- An address is no object, so it is the same on both stacks. -/
theorem pointsTo_of_widens {address address' : Slot} (haddress : address'.Widens u address)
    {expected : Ty} (h : site.pointsTo address expected = true) :
    site.pointsTo address' expected = true := by
  have hkind : address.kind ≠ .object := by
    intro hobject
    unfold pointsTo at h
    rw [hobject] at h
    cases h
  rw [haddress.eq_of_kind hkind]
  exact h

theorem accessed_covers {address address' : Slot} (haddress : address'.Widens u address)
    (access : Access) :
    AllowsUpTo Eq (site.accessed address access) (site.accessed address' access) := by
  rcases haddress with rfl | ⟨_, hobject, _⟩
  · exact fun ty h => ⟨ty, h, rfl⟩
  · -- Nothing is accessed through an object.
    intro ty h
    cases access with
    | primitive p =>
        unfold accessed pointsTo at h
        rw [hobject] at h
        cases h
    | reference =>
        unfold accessed referenceBehind at h
        rw [hobject] at h
        cases h

theorem popTypedRef_covers (h : s.Covers u t) :
    AllowsUpTo (Stack.Covers u) (popTypedRef s) (popTypedRef t) := by
  refine .bind (h.popKind_eq rfl .value) ?_
  rintro ⟨slot, s⟩ ⟨_, t⟩ ⟨rfl, h⟩
  exact .require (fun htyped => htyped) (.ok h)

theorem popIndex_covers (h : s.Covers u t) :
    AllowsUpTo (Stack.Covers u) (popIndex s) (popIndex t) := by
  refine .take (h.popKind _ .index) fun _ _ s t _ h => ?_
  exact .ok h

/-! ## Arrays -/

/-- The elements of the second array fit those of the first; of a null array, nothing is known. -/
def ElementCovers (u : Universe) (actual actual' : Option Ty) : Prop :=
  actual' = none ∨ ∃ element element', actual = some element ∧ actual' = some element' ∧
    u.objectAssignable (.array element') (.array element) = true

/-- The type of an array slot. -/
def arrayType : Option Ty → Ty
  | some element => .array element
  | none => .null

theorem popArray_eq_ok {actual : Option Ty} {after : Stack}
    (h : popArray s = .ok (actual, after)) :
    s.slots = .object (arrayType actual) :: after.slots := by
  unfold popArray at h
  obtain ⟨⟨slot, rest⟩, hpop, h⟩ := bind_eq_ok h
  obtain ⟨hslots, hkind⟩ := Stack.popKind_eq_ok hpop
  have hkind : slot.kind = .object := by simpa using hkind
  obtain ⟨kind, ty⟩ := slot
  subst hkind
  rw [hslots]
  dsimp only at h
  split at h
  · cases h
    rfl
  · cases h
    rfl
  · cases h

theorem popArray_covers (h : s.Covers u t) :
    AllowsUpTo (Stack.Takes u (ElementCovers u)) (popArray s) (popArray t) := by
  refine .bind (h.popKind _ .array) ?_
  rintro ⟨slot, s⟩ ⟨slot', t⟩ ⟨⟨hslot, _⟩, h⟩
  rcases hslot with rfl | ⟨_, _, hty⟩
  · dsimp only
    split
    · exact .ok ⟨.inr ⟨_, _, rfl, rfl, Universe.objectAssignable_refl u _⟩, h⟩
    · exact .ok ⟨.inl rfl, h⟩
    · exact .error
  · obtain ⟨ty', ty, hty', hty, hsub⟩ := Slot.bothKnown_iff.mp hty
    dsimp only at hty hty' ⊢
    rw [hty, hty']
    -- Below an array there are arrays and null, and below null there is only null.
    rcases Universe.objectAssignable_cases hsub with rfl | ⟨rfl, _⟩ | ⟨_, _, _, rfl⟩ |
      ⟨_, _, _, rfl⟩ | ⟨element', element, rfl, rfl⟩
    · split
      · exact .ok ⟨.inr ⟨_, _, rfl, rfl, Universe.objectAssignable_refl u _⟩, h⟩
      · exact .ok ⟨.inl rfl, h⟩
      · exact .error
    · split
      · exact .ok ⟨.inl rfl, h⟩
      · exact .ok ⟨.inl rfl, h⟩
      · exact .error
    · exact .error
    · exact .error
    · exact .ok ⟨.inr ⟨element, element', rfl, rfl, hsub⟩, h⟩

/-- What fits a named element type keeps fitting it in an array of a subtype. -/
theorem elementFits_of_array (hu : site.world.Rooted) {element element' declared : Ty}
    (harray : site.world.objectAssignable (.array element') (.array element) = true)
    (h : site.elementFits element declared = true) :
    site.elementFits element' declared = true := by
  unfold elementFits at h ⊢
  rw [Universe.objectAssignable_array_array] at harray
  by_cases hdeclared : declared.isReference = true
  · rw [if_pos hdeclared, Bool.and_eq_true] at h ⊢
    rcases harray with ⟨helement', _, hsub⟩ | ⟨hnot, hsame⟩
    · exact ⟨helement', hu.objectAssignable_trans hsub h.2⟩
    · have href := Universe.isReference_of_sameLocation hsame
      exact absurd ⟨href.trans h.1, h.1⟩ hnot
  · rw [if_neg hdeclared] at h ⊢
    rcases harray with ⟨_, helement, _⟩ | ⟨_, hsame⟩
    · rw [Universe.isReference_of_sameLocation h] at helement
      exact absurd helement hdeclared
    · exact Universe.sameLocation_trans hsame h

/-- The types that an element access works with are the same where the access names one. Otherwise
they are reference types, the second a subtype unless it was made up for a null array. -/
theorem elementType_covers (hu : site.world.Rooted) (declared : Option Ty)
    {actual actual' : Option Ty} (hactual : ElementCovers site.world actual actual') :
    AllowsUpTo
      (fun ty ty' => ty' = ty ∨ ty.isReference = true ∧ ty'.isReference = true ∧
        ((declared = none → actual' = none → actual = none) →
          site.world.objectAssignable ty' ty = true))
      (site.elementType declared actual) (site.elementType declared actual') := by
  rcases hactual with rfl | ⟨element, element', rfl, rfl, harray⟩
  · cases declared with
    | some ty =>
        cases actual with
        | some element =>
            intro ty' h
            obtain ⟨_, _, h⟩ := bind_eq_ok h
            exact ⟨ty, rfl, .inl (Except.ok.inj h)⟩
        | none => exact .ok (.inl rfl)
    | none =>
        cases actual with
        | some element =>
            intro ty h
            obtain ⟨_, helement, h⟩ := bind_eq_ok h
            cases h
            refine ⟨_, rfl, .inr ⟨require_eq_ok helement, rfl, fun hnull => ?_⟩⟩
            cases hnull rfl rfl
        | none => exact .ok (.inl rfl)
  · cases declared with
    | some ty => exact .require (elementFits_of_array hu harray) (.ok (.inl rfl))
    | none =>
        intro ty h
        obtain ⟨_, helement, h⟩ := bind_eq_ok h
        cases h
        have helement := require_eq_ok helement
        rw [Universe.objectAssignable_array_array] at harray
        rcases harray with ⟨helement', _, hsub⟩ | ⟨hnot, hsame⟩
        · refine ⟨element', bind_of_ok (require_of_true helement' _) rfl, ?_⟩
          exact .inr ⟨helement, helement', fun _ => hsub⟩
        · have href := Universe.isReference_of_sameLocation hsame
          exact absurd ⟨href.trans helement, helement⟩ hnot

end Site

end ManagedCode
