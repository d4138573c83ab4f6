import ManagedCode.Proofs.Effect.Covering

set_option autoImplicit false

/-! # Operations on narrower stacks

An operation that names no targets is accepted on a stack with objects of subtypes if it is accepted
at all, and the stacks it leaves behind are again such a pair: `Site.perform_covers`. There is one
lemma for each sort of operation, which follows its steps.

Two operations are set apart, since they take the element type of an array from the array itself.
The address of an element must have exactly the named type. A reference that is loaded from an array
has the array's element type, and of what would be in a null array no more is known than that it is
an object (`Site.loadElement_of_null`).
-/

namespace ManagedCode.Site

variable {u : Universe} {site : Site} {s t : Stack}

/-! ## Values -/

theorem pushing_covers (h : s.Covers u t) {slot slot' : Slot} (hslot : slot'.Widens u slot)
    (directive directive' : Directive) :
    AllowsUpTo (Effect.Covers u) (pushing s slot directive) (pushing t slot' directive') :=
  .bind (h.push hslot) fun _ _ h => .ok ⟨h, rfl, rfl⟩

/-- The same slot is made on both stacks. -/
theorem pushing_same_covers (h : s.Covers u t) {slot : Slot} {directive directive' : Directive} :
    AllowsUpTo (Effect.Covers u) (pushing s slot directive) (pushing t slot directive') :=
  pushing_covers h (.inl rfl) directive directive'

/-- A slot of the right kind is taken off and another one made. -/
theorem popKind_pushing_covers (h : s.Covers u t) {accepted : List StackKind} {subject : Subject}
    {slot : Slot} {directive : Directive} :
    AllowsUpTo (Effect.Covers u)
      (s.popKind accepted subject >>= fun r => pushing r.2 slot directive)
      (t.popKind accepted subject >>= fun r => pushing r.2 slot directive) :=
  .take (h.popKind accepted subject) fun _ _ _ _ _ h => pushing_same_covers h

/-- A value is taken off that can be stored. -/
theorem popInto_leaving_covers (hu : site.world.Rooted) (h : s.Covers site.world t) (ty : Ty)
    (subject : Subject) (directive : Slot → Directive) :
    AllowsUpTo (Effect.Covers site.world)
      (site.popInto s ty subject >>= fun r => .ok ⟨r.2, directive r.1, []⟩)
      (site.popInto t ty subject >>= fun r => .ok ⟨r.2, directive r.1, []⟩) :=
  .take (popInto_covers hu h ty subject) fun _ _ _ _ _ h => .ok ⟨h, rfl, rfl⟩

theorem dup_covers (h : s.Covers u t) : AllowsUpTo (Effect.Covers u) (dup s) (dup t) :=
  .bind (h.peek 0) fun _ _ hslot => pushing_covers h hslot _ _

theorem pop_covers (h : s.Covers u t) : AllowsUpTo (Effect.Covers u) (pop s) (pop t) :=
  .take h.pop fun _ _ _ _ _ h => .ok ⟨h, rfl, rfl⟩

/-! ## Numbers -/

theorem binary_covers (h : s.Covers u t) (op : BinaryOp) :
    AllowsUpTo (Effect.Covers u) (site.binary op s) (site.binary op t) := by
  refine .take h.pop fun right right' s t hright h => ?_
  refine .take h.pop fun left left' s t hleft h => ?_
  dsimp only at hleft hright ⊢
  rw [hleft.kind_eq, hright.kind_eq]
  refine .after fun _ => pushing_covers h ?_ _ _
  -- A pointer that is moved is one of the operands.
  split
  · split
    · exact hleft
    · exact hright
  · exact .inl rfl

theorem shift_covers (h : s.Covers u t) (op : ShiftOp) :
    AllowsUpTo (Effect.Covers u) (shift op s) (shift op t) := by
  refine .take h.pop fun amount amount' s t hamount h => ?_
  refine .take h.pop fun operand operand' s t hoperand h => ?_
  dsimp only at hamount hoperand ⊢
  rw [hamount.kind_eq, hoperand.kind_eq]
  exact .after fun _ => pushing_same_covers h

theorem unary_covers (h : s.Covers u t) (op : UnaryOp) :
    AllowsUpTo (Effect.Covers u) (unary op s) (unary op t) := by
  refine .take h.pop fun operand operand' s t hoperand h => ?_
  dsimp only at hoperand ⊢
  rw [hoperand.kind_eq]
  exact .after fun _ => pushing_same_covers h

theorem convert_covers (h : s.Covers u t) (conversion : Conversion) :
    AllowsUpTo (Effect.Covers u) (site.convert conversion s) (site.convert conversion t) := by
  refine .take h.pop fun operand operand' s t hoperand h => ?_
  dsimp only at hoperand ⊢
  rw [hoperand.kind_eq]
  exact .after fun _ => pushing_same_covers h

theorem compare_covers (h : s.Covers u t) (op : CompareOp) :
    AllowsUpTo (Effect.Covers u) (site.compare op s) (site.compare op t) := by
  refine .bind (popCompared_covers h op) ?_
  rintro ⟨⟨left, right⟩, s⟩ ⟨⟨left', right'⟩, t⟩ ⟨_, h⟩
  exact pushing_same_covers h

/-! ## Transfers of control -/

/-- A selection among no targets goes on to the next instruction. -/
theorem switch_nil_covers (h : s.Covers u t) :
    AllowsUpTo (Effect.Covers u) (site.switch [] s) (site.switch [] t) :=
  .take (h.popKind _ .value) fun _ _ _ _ _ h => .ok ⟨h, rfl, rfl⟩

theorem endFilter_covers (h : s.Covers u t) :
    AllowsUpTo (Effect.Covers u) (site.endFilter s) (site.endFilter t) := by
  refine .after fun _ => .take (h.popKind _ .value) fun _ _ s t _ h => ?_
  dsimp only
  rw [h.expectEmpty_eq]
  exact .after fun _ => .ok ⟨h, rfl, rfl⟩

theorem throw_covers (h : s.Covers u t) :
    AllowsUpTo (Effect.Covers u) (throw s) (throw t) :=
  .take (h.popKind _ .value) fun _ _ _ _ _ h => .ok ⟨h.clear, rfl, rfl⟩

theorem jump_covers (h : s.Covers u t) (token : Token) :
    AllowsUpTo (Effect.Covers u) (site.jump token s) (site.jump token t) := by
  unfold jump
  rw [h.expectEmpty_eq]
  exact .after fun _ => .after fun _ => .after fun _ => .after fun _ => .ok ⟨h, rfl, rfl⟩

theorem ret_covers (hu : site.world.Rooted) (h : s.Covers site.world t) :
    AllowsUpTo (Effect.Covers site.world) (site.ret s) (site.ret t) := by
  refine .after fun _ => .take (popResult_covers hu h) fun _ _ s t _ h => ?_
  dsimp only
  rw [h.expectEmpty_eq]
  exact .after fun _ => .ok ⟨h, rfl, rfl⟩

/-! ## Calls -/

theorem pushResult_covers (h : s.Covers u t) (result : Option Slot) :
    AllowsUpTo (Stack.Covers u) (site.pushResult s result) (site.pushResult t result) := by
  unfold pushResult
  rw [h.isEmpty_eq]
  refine .after fun _ => ?_
  cases result with
  | some slot => exact h.push (.inl rfl)
  | none => exact .ok h

theorem giveResult_covers (h : s.Covers u t) (signature : Signature)
    (directive directive' : Option Slot → Directive) :
    AllowsUpTo (Effect.Covers u)
      (site.resultOf signature >>= fun result =>
        site.pushResult s result >>= fun s => .ok ⟨s, directive result, []⟩)
      (site.resultOf signature >>= fun result =>
        site.pushResult t result >>= fun t => .ok ⟨t, directive' result, []⟩) :=
  .after fun result => .bind (pushResult_covers h result) fun _ _ h => .ok ⟨h, rfl, rfl⟩

section Rooted

variable (hu : site.world.Rooted)
include hu

theorem call_covers (h : s.Covers site.world t) (isVirtual : Bool) (token : Token) :
    AllowsUpTo (Effect.Covers site.world) (site.call isVirtual token s)
      (site.call isVirtual token t) := by
  refine .after fun method => .after fun _ => .take (popArgs_covers hu h _) fun _ _ s t _ h => ?_
  refine .take (popReceiver_covers hu h method) fun _ _ s t _ h => ?_
  exact giveResult_covers h method.signature _ _

theorem callIndirect_covers (h : s.Covers site.world t) (token : Token) :
    AllowsUpTo (Effect.Covers site.world) (site.callIndirect token s)
      (site.callIndirect token t) := by
  refine .after fun signature => .take (h.popKind _ .function) fun _ _ s t _ h => ?_
  refine .take (popArgs_covers hu h _) fun _ _ s t _ h => ?_
  refine .take (popAnyReceiver_covers h signature) fun _ _ s t _ h => ?_
  exact giveResult_covers h signature _ _

theorem newObject_covers (h : s.Covers site.world t) (token : Token) :
    AllowsUpTo (Effect.Covers site.world) (site.newObject token s) (site.newObject token t) := by
  refine .after fun _ => .after fun _ => .after fun _ => ?_
  exact .take (popArgs_covers hu h _) fun _ _ _ _ _ h => .after fun _ => pushing_same_covers h

theorem loadVirtualFunction_covers (h : s.Covers site.world t) (token : Token) :
    AllowsUpTo (Effect.Covers site.world) (site.loadVirtualFunction token s)
      (site.loadVirtualFunction token t) := by
  refine .after fun method => .after fun _ => .bind (h.popKind _ .receiver) ?_
  rintro ⟨_, s⟩ ⟨_, t⟩ ⟨⟨hreceiver, _⟩, h⟩
  exact .require (receiverFits_of_widens hu hreceiver) (pushing_same_covers h)

end Rooted

/-! ## Memory -/

theorem loadIndirect_covers (h : s.Covers u t) (access : Access) :
    AllowsUpTo (Effect.Covers u) (site.loadIndirect access s) (site.loadIndirect access t) := by
  refine .take h.pop fun address address' s t haddress h => ?_
  refine .bind (accessed_covers haddress access) ?_
  rintro ty _ rfl
  exact .after fun _ => pushing_same_covers h

theorem loadObject_covers (h : s.Covers u t) (token : Token) :
    AllowsUpTo (Effect.Covers u) (site.loadObject token s) (site.loadObject token t) := by
  refine .after fun _ => .take h.pop fun address address' s t haddress h => ?_
  exact .require (pointsTo_of_widens haddress) (.after fun _ => pushing_same_covers h)

theorem copyObject_covers (h : s.Covers u t) (token : Token) :
    AllowsUpTo (Effect.Covers u) (site.copyObject token s) (site.copyObject token t) := by
  refine .after fun _ => .take h.pop fun source source' s t hsource h => ?_
  refine .take h.pop fun destination destination' s t hdestination h => ?_
  refine .require (fun hpoint => ?_) (.ok ⟨h, rfl, rfl⟩)
  rw [Bool.and_eq_true] at hpoint ⊢
  exact ⟨pointsTo_of_widens hsource hpoint.1, pointsTo_of_widens hdestination hpoint.2⟩

theorem initObject_covers (h : s.Covers u t) (token : Token) :
    AllowsUpTo (Effect.Covers u) (site.initObject token s) (site.initObject token t) := by
  refine .after fun _ => .take h.pop fun address address' s t haddress h => ?_
  exact .require (pointsTo_of_widens haddress) (.ok ⟨h, rfl, rfl⟩)

theorem localAlloc_covers (h : s.Covers u t) :
    AllowsUpTo (Effect.Covers u) (site.localAlloc s) (site.localAlloc t) := by
  refine .after fun _ => .take (h.popKind _ .size) fun _ _ s t _ h => ?_
  dsimp only
  rw [h.isEmpty_eq]
  exact .after fun _ => pushing_same_covers h

/-- Three operands of the right kinds are taken off. -/
theorem popKinds_covers (h : s.Covers u t) (first second third : List StackKind)
    (subject subject' subject'' : Subject) (directive : Directive) :
    AllowsUpTo (Effect.Covers u)
      (s.popKind first subject >>= fun r => r.2.popKind second subject' >>= fun r =>
        r.2.popKind third subject'' >>= fun r => .ok ⟨r.2, directive, []⟩)
      (t.popKind first subject >>= fun r => r.2.popKind second subject' >>= fun r =>
        r.2.popKind third subject'' >>= fun r => .ok ⟨r.2, directive, []⟩) := by
  refine .take (h.popKind first subject) fun _ _ s t _ h => ?_
  refine .take (h.popKind second subject') fun _ _ s t _ h => ?_
  refine .take (h.popKind third subject'') fun _ _ s t _ h => ?_
  exact .ok ⟨h, rfl, rfl⟩

section Rooted

variable (hu : site.world.Rooted)
include hu

theorem storeIndirect_covers (h : s.Covers site.world t) (access : Access) :
    AllowsUpTo (Effect.Covers site.world) (site.storeIndirect access s)
      (site.storeIndirect access t) := by
  refine .take h.pop fun slot slot' s t hslot h => ?_
  refine .take h.pop fun address address' s t haddress h => ?_
  refine .bind (accessed_covers haddress access) ?_
  rintro ty _ rfl
  exact .require (Universe.assignableTo_of_widens hu hslot) (.ok ⟨h, rfl, rfl⟩)

theorem storeObject_covers (h : s.Covers site.world t) (token : Token) :
    AllowsUpTo (Effect.Covers site.world) (site.storeObject token s)
      (site.storeObject token t) := by
  refine .after fun ty => .take (popInto_covers hu h ty .value) fun _ _ s t _ h => ?_
  refine .take h.pop fun address address' s t haddress h => ?_
  exact .require (pointsTo_of_widens haddress) (.ok ⟨h, rfl, rfl⟩)

theorem loadField_covers (h : s.Covers site.world t) (token : Token) :
    AllowsUpTo (Effect.Covers site.world) (site.loadField token s) (site.loadField token t) := by
  refine .after fun field => .take h.pop fun object object' s t hobject h => ?_
  exact .require (hasField_of_widens hu hobject) (.after fun _ => pushing_same_covers h)

theorem loadFieldAddress_covers (h : s.Covers site.world t) (token : Token) :
    AllowsUpTo (Effect.Covers site.world) (site.loadFieldAddress token s)
      (site.loadFieldAddress token t) := by
  refine .after fun field => .take h.pop fun object object' s t hobject h => ?_
  exact .require (hasField_of_widens hu hobject) (pushing_same_covers h)

theorem storeField_covers (h : s.Covers site.world t) (token : Token) :
    AllowsUpTo (Effect.Covers site.world) (site.storeField token s)
      (site.storeField token t) := by
  refine .after fun field => .take (popInto_covers hu h field.ty .value) fun _ _ s t _ h => ?_
  refine .take h.pop fun object object' s t hobject h => ?_
  exact .require (hasField_of_widens hu hobject) (.ok ⟨h, rfl, rfl⟩)

end Rooted

/-! ## Objects -/

theorem box_covers (hu : site.world.Rooted) (h : s.Covers site.world t) (token : Token) :
    AllowsUpTo (Effect.Covers site.world) (site.box token s) (site.box token t) := by
  refine .after fun ty => .after fun _ => ?_
  exact .take (popInto_covers hu h ty .value) fun _ _ _ _ _ h => pushing_same_covers h

theorem arrayLength_covers (h : s.Covers u t) :
    AllowsUpTo (Effect.Covers u) (arrayLength s) (arrayLength t) :=
  .take (popArray_covers h) fun _ _ _ _ _ h => pushing_same_covers h

theorem makeTypedRef_covers (h : s.Covers u t) (token : Token) :
    AllowsUpTo (Effect.Covers u) (site.makeTypedRef token s) (site.makeTypedRef token t) := by
  refine .after fun ty => .bind (h.popKind_eq rfl .address) ?_
  rintro ⟨address, s⟩ ⟨_, t⟩ ⟨rfl, h⟩
  exact .after fun _ => pushing_same_covers h

theorem storeElement_covers (hu : site.world.Rooted) (h : s.Covers site.world t)
    (element : Element) :
    AllowsUpTo (Effect.Covers site.world) (site.storeElement element s)
      (site.storeElement element t) := by
  refine .after fun declared => .take h.pop fun slot slot' s t hslot h => ?_
  refine .bind (popIndex_covers h) fun s t h => ?_
  refine .take (popArray_covers h) fun actual actual' s t hactual h => ?_
  refine .bind (elementType_covers hu declared hactual) fun ty ty' hty => ?_
  refine .require (fun hfits => ?_) (.ok ⟨h, rfl, rfl⟩)
  rw [decide_eq_true_iff] at hfits ⊢
  rcases hty with rfl | ⟨hty, hty', _⟩
  · by_cases href : ty'.isReference = true
    · rw [if_pos href] at hfits ⊢
      exact hslot.kind_eq.trans hfits
    · rw [if_neg href] at hfits ⊢
      exact Universe.assignableTo_of_widens hu hslot hfits
  · rw [if_pos hty] at hfits
    rw [if_pos hty']
    exact hslot.kind_eq.trans hfits

theorem popIndex_eq_ok {after : Stack} (h : popIndex s = .ok after) :
    ∃ index, s.slots = index :: after.slots := by
  obtain ⟨⟨index, rest⟩, hpop, h⟩ := bind_eq_ok h
  cases h
  exact ⟨index, (Stack.popKind_eq_ok hpop).1⟩

/-- Only an access to references names no type. -/
theorem reference_of_declared {element : Element} (h : site.declared element = .ok none) :
    element = .reference := by
  cases element with
  | primitive p => cases h
  | reference => rfl
  | named token =>
      change (site.typeAt token).map some = .ok none at h
      cases hty : site.typeAt token with
      | error e =>
          rw [hty] at h
          cases h
      | ok ty =>
          rw [hty] at h
          cases h

theorem slotOf_reference {ty : Ty} (h : ty.isReference = true) (subject : Subject) :
    site.slotOf ty subject = .ok (.object ty) := by
  cases ty with
  | ref id => rfl
  | array element => rfl
  | null => rfl
  | _ => cases h

/-- An element keeps its type, or gets that of the narrower array. -/
theorem slotOf_covers {ty ty' : Ty} (subject : Subject)
    (h : ty' = ty ∨ ty.isReference = true ∧ ty'.isReference = true ∧
      site.world.objectAssignable ty' ty = true) :
    AllowsUpTo (Slot.Covers site.world) (site.slotOf ty subject) (site.slotOf ty' subject) := by
  rcases h with rfl | ⟨hty, hty', hsub⟩
  · exact fun slot hslot => ⟨slot, hslot, .inl rfl⟩
  · rw [slotOf_reference hty, slotOf_reference hty']
    exact .ok (.inr ⟨rfl, rfl, hsub⟩)

/-- An access that names a type finds it, and one that names none finds a subtype, unless the
narrower array is null and the other is not. -/
theorem loadElement_covers (hu : site.world.Rooted) (h : s.Covers site.world t)
    (element : Element)
    (hnull : element = .reference → t.slots[1]? = some .null → s.slots[1]? = some .null) :
    AllowsUpTo (Effect.Covers site.world) (site.loadElement element s)
      (site.loadElement element t) := by
  refine .bind_of_eq (R := Eq) (fun declared h => ⟨declared, h, rfl⟩) ?_
  rintro declared _ hdeclared _ rfl
  refine .bind_of_eq (popIndex_covers h) fun s₁ t₁ hs₁ ht₁ h => ?_
  refine .bind_of_eq (popArray_covers h) ?_
  rintro ⟨actual, s₂⟩ ⟨actual', t₂⟩ hs₂ ht₂ ⟨hactual, h⟩
  have hnone : declared = none → actual' = none → actual = none := by
    intro hnamed hactual'
    obtain ⟨_, hs⟩ := popIndex_eq_ok hs₁
    obtain ⟨_, ht⟩ := popIndex_eq_ok ht₁
    rw [hnamed] at hdeclared
    have hreference := reference_of_declared hdeclared
    rw [hs, ht, popArray_eq_ok hs₂, popArray_eq_ok ht₂, hactual'] at hnull
    have hslot : Slot.object (arrayType actual) = .null := by
      simpa [arrayType, Slot.null] using hnull hreference
    cases actual with
    | none => rfl
    | some element => cases hslot
  refine .bind (elementType_covers hu declared hactual) fun ty ty' hty => ?_
  refine .bind (slotOf_covers .token ?_) fun slot slot' hslot => pushing_covers h hslot _ _
  rcases hty with heq | ⟨hty, hty', hsub⟩
  · exact .inl heq
  · exact .inr ⟨hty, hty', hsub hnone⟩

/-- From a null array, an access that names no type loads an `Object`. -/
theorem loadElement_of_null (h : s.Covers u t) {effect : Effect}
    (hs : site.loadElement .reference s = .ok effect) (hnull : t.slots[1]? = some .null) :
    site.loadElement .reference t =
        .ok ⟨{ effect.stack with slots := .object (.ref WellKnown.object.id) :: t.slots.drop 2 },
          .loadElement (.ref WellKnown.object.id), []⟩ ∧
      effect.targets = [] ∧
      ∃ top rest, effect.stack.slots = top :: rest ∧ Slots.Widen u (t.slots.drop 2) rest := by
  obtain ⟨_, hdeclared, hs⟩ := bind_eq_ok hs
  cases hdeclared
  obtain ⟨s₁, hs₁, hs⟩ := bind_eq_ok hs
  obtain ⟨⟨actual, s₂⟩, hs₂, hs⟩ := bind_eq_ok hs
  obtain ⟨t₁, ht₁, h⟩ := popIndex_covers h s₁ hs₁
  obtain ⟨⟨actual', t₂⟩, ht₂, _, h⟩ := popArray_covers h _ hs₂
  obtain ⟨_, _, hs⟩ := bind_eq_ok hs
  obtain ⟨_, _, hs⟩ := bind_eq_ok hs
  obtain ⟨after, hpush, hs⟩ := bind_eq_ok hs
  cases hs
  obtain ⟨_, ht⟩ := popIndex_eq_ok ht₁
  have hactual' : actual' = none := by
    rw [ht, popArray_eq_ok ht₂] at hnull
    cases actual' with
    | none => rfl
    | some element => cases hnull
  subst hactual'
  have hdrop : t.slots.drop 2 = t₂.slots := by
    rw [ht, popArray_eq_ok ht₂]
    rfl
  rw [hdrop]
  refine ⟨?_, rfl, _, _, Stack.slots_of_load hpush, h.slots⟩
  have hpush' := h.push_any hpush (.object (.ref WellKnown.object.id))
  refine bind_of_ok rfl (bind_of_ok ht₁ (bind_of_ok ht₂ (bind_of_ok rfl ?_)))
  exact bind_of_ok rfl (bind_of_ok hpush' rfl)

/-! ## Operations -/

/-- **What is accepted on a stack is accepted on a narrower one, and leaves a narrower stack
behind.** -/
theorem perform_covers (hu : site.world.Rooted) (h : s.Covers site.world t)
    {operation : Operation} (htargets : operation.targets = [])
    (haddress : operation.takesElementAddress = false)
    (hnull : operation = .loadElement .reference → t.slots[1]? = some .null →
      s.slots[1]? = some .null) :
    AllowsUpTo (Effect.Covers site.world) (site.perform operation s)
      (site.perform operation t) := by
  cases operation with
  | nop => exact .ok ⟨h, rfl, rfl⟩
  | breakpoint => exact .ok ⟨h, rfl, rfl⟩
  | loadArg index => exact .after fun _ => .after fun _ => pushing_same_covers h
  | loadArgAddress index => exact .after fun _ => .after fun _ => pushing_same_covers h
  | storeArg index => exact .after fun _ => popInto_leaving_covers hu h _ _ _
  | loadLocal index =>
      exact .after fun _ => .after fun _ => .after fun _ => pushing_same_covers h
  | loadLocalAddress index => exact .after fun _ => .after fun _ => pushing_same_covers h
  | storeLocal index => exact .after fun _ => popInto_leaving_covers hu h _ _ _
  | argList => exact .after fun _ => pushing_same_covers h
  | loadNull | loadInt32 | loadInt64 | loadFloat32 | loadFloat64 =>
      exact pushing_same_covers h
  | loadString token => exact .after fun _ => pushing_same_covers h
  | loadToken token => exact .after fun _ => .after fun _ => pushing_same_covers h
  | dup => exact dup_covers h
  | pop => exact pop_covers h
  | binary op => exact binary_covers h op
  | shift op => exact shift_covers h op
  | unary op => exact unary_covers h op
  | convert conversion => exact convert_covers h conversion
  | checkFinite => exact popKind_pushing_covers h
  | compare op => exact compare_covers h op
  | branch target => cases htargets
  | branchIf condition target => cases htargets
  | branchCompare op target => cases htargets
  | switch targets =>
      cases htargets
      exact switch_nil_covers h
  | leave target => cases htargets
  | endFinally => exact .after fun _ => .ok ⟨h.clear, rfl, rfl⟩
  | endFilter => exact endFilter_covers h
  | throw => exact throw_covers h
  | rethrow => exact .after fun _ => .ok ⟨h.clear, rfl, rfl⟩
  | ret => exact ret_covers hu h
  | jump token => exact jump_covers h token
  | call isVirtual token => exact call_covers hu h isVirtual token
  | callIndirect token => exact callIndirect_covers hu h token
  | newObject token => exact newObject_covers hu h token
  | loadFunction token => exact .after fun _ => pushing_same_covers h
  | loadVirtualFunction token => exact loadVirtualFunction_covers hu h token
  | loadIndirect access => exact loadIndirect_covers h access
  | storeIndirect access => exact storeIndirect_covers hu h access
  | loadObject token => exact loadObject_covers h token
  | storeObject token => exact storeObject_covers hu h token
  | copyObject token => exact copyObject_covers h token
  | initObject token => exact initObject_covers h token
  | sizeOf token => exact .after fun _ => pushing_same_covers h
  | localAlloc => exact localAlloc_covers h
  | copyBlock => exact .after fun _ => popKinds_covers h _ _ _ _ _ _ _
  | initBlock => exact .after fun _ => popKinds_covers h _ _ _ _ _ _ _
  | loadField token => exact loadField_covers hu h token
  | loadFieldAddress token => exact loadFieldAddress_covers hu h token
  | storeField token => exact storeField_covers hu h token
  | loadStatic token => exact .after fun _ => .after fun _ => pushing_same_covers h
  | loadStaticAddress token => exact .after fun _ => pushing_same_covers h
  | storeStatic token => exact .after fun _ => popInto_leaving_covers hu h _ _ _
  | castClass token => exact .after fun _ => .after fun _ => popKind_pushing_covers h
  | isInstance token => exact .after fun _ => .after fun _ => popKind_pushing_covers h
  | box token => exact box_covers hu h token
  | unbox token => exact .after fun _ => .after fun _ => popKind_pushing_covers h
  | unboxAny token => exact .after fun _ => .after fun _ => popKind_pushing_covers h
  | newArray token => exact .after fun _ => .after fun _ => popKind_pushing_covers h
  | arrayLength => exact arrayLength_covers h
  | loadElement element =>
      refine loadElement_covers hu h element fun helement => hnull ?_
      rw [helement]
  | loadElementAddress token => cases haddress
  | storeElement element => exact storeElement_covers hu h element
  | makeTypedRef token => exact makeTypedRef_covers h token
  | typedRefValue token =>
      exact .after fun _ => .bind (popTypedRef_covers h) fun _ _ h => pushing_same_covers h
  | typedRefType =>
      exact .bind (popTypedRef_covers h) fun _ _ h => pushing_same_covers h
  | modify modifier => exact .error
  | remark => exact .error

end ManagedCode.Site
