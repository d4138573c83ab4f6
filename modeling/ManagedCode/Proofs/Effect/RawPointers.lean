import ManagedCode.Effect
import ManagedCode.Proofs.Checks

set_option autoImplicit false

/-! # Raw pointers only add operations

Where raw pointers are accepted, every check on an operation is at most weaker: what a verifiable
site accepts, the same site with raw pointers accepts too, with the same effect
(`Site.perform_allows`). The flag is asked in the checks of operands that the operations share, so
there is one lemma for each of these, and an operation follows step by step.
-/

namespace ManagedCode

/-! ## Checks on types and kinds -/

namespace Universe

theorem slotAssignable_raw {u : Universe} {source target : Slot}
    (h : u.slotAssignable source target false = true) :
    u.slotAssignable source target true = true := by
  unfold slotAssignable at h ⊢
  split
  · rename_i hkind
    rw [if_pos hkind] at h
    obtain ⟨kind, ty⟩ := source
    cases kind with
    | transient => rfl
    | _ => exact h
  · rename_i hkind
    rw [if_neg hkind] at h
    cases h

theorem assignableTo_raw {u : Universe} {source : Slot} {ty : Ty}
    (h : u.assignableTo source ty false = true) : u.assignableTo source ty true = true := by
  unfold assignableTo at h ⊢
  cases hslot : u.slot? ty with
  | none =>
      rw [hslot] at h
      cases h
  | some target =>
      rw [hslot] at h
      exact slotAssignable_raw h

end Universe

namespace OperatorTable

/-- The pointer table is asked only about what the operator's own table rejects. -/
theorem arithmetic_eq_of_ne_invalid {table : OperatorTable} {left right : StackKind}
    (h : table.arithmetic left right false ≠ .invalid) (pointers : Bool) :
    table.arithmetic left right pointers = table.arithmetic left right false := by
  unfold arithmetic at h ⊢
  split
  · rename_i hlookup
    rw [hlookup] at h
    exact absurd rfl h
  · rfl

theorem comparable_raw {table : OperatorTable} {left right : StackKind}
    (h : table.comparable left right false = true) : table.comparable left right true = true := by
  unfold comparable at h ⊢
  rw [Bool.or_eq_true] at h ⊢
  rcases h with hlookup | hraw
  · exact .inl hlookup
  · cases hraw

end OperatorTable

namespace Site

/-- The site with the flag set to `raw`. -/
def accepting (site : Site) (raw : Bool) : Site := { site with rawPointers := raw }

variable (site : Site)

/-! ## Operands -/

theorem popInto_allows (s : Stack) (ty : Ty) (subject : Subject) :
    Allows ((site.accepting false).popInto s ty subject)
      ((site.accepting true).popInto s ty subject) := by
  refine .after ?_
  rintro ⟨slot, s⟩
  exact .bind (.require Universe.assignableTo_raw) fun _ => .refl _

theorem popArgs_allows (s : Stack) (params : List Ty) :
    Allows ((site.accepting false).popArgs s params) ((site.accepting true).popArgs s params) := by
  refine .after ?_
  rintro ⟨args, s⟩
  refine .bind (.require fun hfit => ?_) fun _ => .refl _
  rw [List.all_eq_true] at hfit ⊢
  exact fun pair hpair => Universe.assignableTo_raw (hfit pair hpair)

theorem popCompared_allows (op : CompareOp) (s : Stack) :
    Allows ((site.accepting false).popCompared op s) ((site.accepting true).popCompared op s) := by
  refine .after ?_
  rintro ⟨right, s⟩
  refine .after ?_
  rintro ⟨left, s⟩
  exact .bind (.require OperatorTable.comparable_raw) fun _ => .refl _

theorem pointsTo_raw {address : Slot} {expected : Ty}
    (h : (site.accepting false).pointsTo address expected = true) :
    (site.accepting true).pointsTo address expected = true := by
  obtain ⟨kind, ty⟩ := address
  cases kind with
  | transient | nativeInt => rfl
  | managed => cases ty <;> exact h
  | _ => exact h

theorem referenceBehind_raw {address : Slot} {ty : Ty}
    (h : (site.accepting false).referenceBehind address = some ty) :
    (site.accepting true).referenceBehind address = some ty := by
  obtain ⟨kind, pointee⟩ := address
  cases kind with
  | transient | nativeInt => cases h
  | managed => cases pointee <;> exact h
  | _ => exact h

theorem accessed_allows (address : Slot) (access : Access) :
    Allows ((site.accepting false).accessed address access)
      ((site.accepting true).accessed address access) := by
  cases access with
  | primitive p => exact .bind (.require site.pointsTo_raw) fun _ => .refl _
  | reference =>
      intro ty h
      unfold accessed known at h ⊢
      cases hbehind : (site.accepting false).referenceBehind address with
      | none =>
          rw [hbehind] at h
          cases h
      | some pointee =>
          rw [hbehind] at h
          rw [site.referenceBehind_raw hbehind]
          exact h

theorem hasField_raw {field : Field} {object : Slot} {reading : Bool}
    (h : (site.accepting false).hasField field object reading = true) :
    (site.accepting true).hasField field object reading = true := by
  obtain ⟨kind, ty⟩ := object
  cases kind with
  | transient | nativeInt => rfl
  | managed | object | value => cases ty <;> exact h
  | _ => exact h

theorem receiverFits_raw {owner : Ty} {receiver : Slot}
    (h : (site.accepting false).receiverFits owner receiver = true) :
    (site.accepting true).receiverFits owner receiver = true := by
  unfold receiverFits at h ⊢
  cases hconstraint : site.constraint with
  | some constraint =>
      simp only [accepting, hconstraint] at h ⊢
      exact h
  | none =>
      simp only [accepting, hconstraint] at h ⊢
      obtain ⟨kind, ty⟩ := receiver
      cases kind with
      | transient => rfl
      | managed | object => cases ty <;> cases owner <;> exact h
      | _ => exact h

theorem popReceiver_allows (method : Method) (s : Stack) :
    Allows ((site.accepting false).popReceiver method s)
      ((site.accepting true).popReceiver method s) := by
  unfold popReceiver
  split
  · refine .after ?_
    rintro ⟨receiver, s⟩
    exact .bind (.require site.receiverFits_raw) fun _ => .refl _
  · exact .refl _

theorem popResult_allows (s : Stack) :
    Allows ((site.accepting false).popResult s) ((site.accepting true).popResult s) := by
  unfold popResult
  cases hresult : site.body.signature.result? with
  | none =>
      simp only [accepting, hresult]
      exact .refl _
  | some ty =>
      simp only [accepting, hresult]
      exact .bind (site.popInto_allows s ty .result) fun _ => .refl _

/-! ## Operations -/

theorem storeArg_allows (index : Nat) (s : Stack) :
    Allows ((site.accepting false).storeArg index s) ((site.accepting true).storeArg index s) :=
  .after fun ty => .bind (site.popInto_allows s ty .value) fun _ => .refl _

theorem loadLocal_allows (index : Nat) (s : Stack) :
    Allows ((site.accepting false).loadLocal index s)
      ((site.accepting true).loadLocal index s) := by
  refine .after fun ty => .bind (.require fun _ => ?_) fun _ => .refl _
  exact Bool.or_true _

theorem storeLocal_allows (index : Nat) (s : Stack) :
    Allows ((site.accepting false).storeLocal index s)
      ((site.accepting true).storeLocal index s) :=
  .after fun ty => .bind (site.popInto_allows s ty .value) fun _ => .refl _

theorem binary_allows (op : BinaryOp) (s : Stack) :
    Allows ((site.accepting false).binary op s) ((site.accepting true).binary op s) := by
  refine .after ?_
  rintro ⟨right, s⟩
  refine .after ?_
  rintro ⟨left, s⟩
  intro effect h
  obtain ⟨_, hvalid, hpush⟩ := bind_eq_ok h
  have hne := require_eq_ok hvalid
  simp only [accepting, Bool.and_false, decide_eq_true_eq] at hne hpush ⊢
  have hsame := OperatorTable.arithmetic_eq_of_ne_invalid hne
  simp only [hsame, require_of_true (decide_eq_true hne)]
  exact hpush

theorem convert_allows (conversion : Conversion) (s : Stack) :
    Allows ((site.accepting false).convert conversion s)
      ((site.accepting true).convert conversion s) := by
  refine .after ?_
  rintro ⟨operand, s⟩
  refine .bind (.require fun h => ?_) fun _ => .refl _
  simp only [accepting, Bool.false_and, Bool.or_false] at h
  simp [h]

theorem compare_allows (op : CompareOp) (s : Stack) :
    Allows ((site.accepting false).compare op s) ((site.accepting true).compare op s) :=
  .bind (site.popCompared_allows op s) fun _ => .refl _

theorem branchIf_allows (condition : Bool) (target : Int) (s : Stack) :
    Allows ((site.accepting false).branchIf condition target s)
      ((site.accepting true).branchIf condition target s) := by
  refine .after fun target => .after ?_
  rintro ⟨⟨kind, ty⟩, s⟩
  refine .bind (.require fun h => ?_) fun _ => .refl _
  cases kind with
  | transient => rfl
  | _ => exact h

theorem branchCompare_allows (op : CompareOp) (target : Int) (s : Stack) :
    Allows ((site.accepting false).branchCompare op target s)
      ((site.accepting true).branchCompare op target s) :=
  .after fun _ => .bind (site.popCompared_allows op s) fun _ => .refl _

theorem ret_allows (s : Stack) :
    Allows ((site.accepting false).ret s) ((site.accepting true).ret s) :=
  .after fun _ => .bind (site.popResult_allows s) fun _ => .refl _

/-- An operation for which raw pointers are required is never accepted without them. -/
theorem require_false_allows {α : Type} {failure : Fault} {f : Unit → Except Fault α}
    {y : Except Fault α} : Allows (require false failure >>= f) y := by
  intro a h
  cases h

theorem jump_allows (token : Token) (s : Stack) :
    Allows ((site.accepting false).jump token s) ((site.accepting true).jump token s) :=
  require_false_allows

theorem localAlloc_allows (s : Stack) :
    Allows ((site.accepting false).localAlloc s) ((site.accepting true).localAlloc s) :=
  require_false_allows

theorem copyBlock_allows (s : Stack) :
    Allows ((site.accepting false).copyBlock s) ((site.accepting true).copyBlock s) :=
  require_false_allows

theorem initBlock_allows (s : Stack) :
    Allows ((site.accepting false).initBlock s) ((site.accepting true).initBlock s) :=
  require_false_allows

theorem call_allows (isVirtual : Bool) (token : Token) (s : Stack) :
    Allows ((site.accepting false).call isVirtual token s)
      ((site.accepting true).call isVirtual token s) := by
  refine .after fun method => .after fun _ => .bind (site.popArgs_allows s _) ?_
  rintro ⟨args, s⟩
  exact .bind (site.popReceiver_allows method s) fun _ => .refl _

theorem callIndirect_allows (token : Token) (s : Stack) :
    Allows ((site.accepting false).callIndirect token s)
      ((site.accepting true).callIndirect token s) := by
  refine .after fun signature => .after ?_
  rintro ⟨_, s⟩
  exact .bind (site.popArgs_allows s _) fun _ => .refl _

theorem newObject_allows (token : Token) (s : Stack) :
    Allows ((site.accepting false).newObject token s) ((site.accepting true).newObject token s) :=
  .after fun _ => .after fun _ => .after fun _ => .bind (site.popArgs_allows s _) fun _ => .refl _

theorem loadVirtualFunction_allows (token : Token) (s : Stack) :
    Allows ((site.accepting false).loadVirtualFunction token s)
      ((site.accepting true).loadVirtualFunction token s) := by
  refine .after fun method => .after fun _ => .after ?_
  rintro ⟨receiver, s⟩
  exact .bind (.require site.receiverFits_raw) fun _ => .refl _

theorem loadIndirect_allows (access : Access) (s : Stack) :
    Allows ((site.accepting false).loadIndirect access s)
      ((site.accepting true).loadIndirect access s) := by
  refine .after ?_
  rintro ⟨address, s⟩
  exact .bind (site.accessed_allows address access) fun _ => .refl _

theorem storeIndirect_allows (access : Access) (s : Stack) :
    Allows ((site.accepting false).storeIndirect access s)
      ((site.accepting true).storeIndirect access s) := by
  refine .after ?_
  rintro ⟨slot, s⟩
  refine .after ?_
  rintro ⟨address, s⟩
  refine .bind (site.accessed_allows address access) fun ty => ?_
  exact .bind (.require Universe.assignableTo_raw) fun _ => .refl _

theorem loadObject_allows (token : Token) (s : Stack) :
    Allows ((site.accepting false).loadObject token s)
      ((site.accepting true).loadObject token s) := by
  refine .after fun ty => .after ?_
  rintro ⟨address, s⟩
  exact .bind (.require site.pointsTo_raw) fun _ => .refl _

theorem storeObject_allows (token : Token) (s : Stack) :
    Allows ((site.accepting false).storeObject token s)
      ((site.accepting true).storeObject token s) := by
  refine .after fun ty => .bind (site.popInto_allows s ty .value) ?_
  rintro ⟨_, s⟩
  refine .after ?_
  rintro ⟨address, s⟩
  exact .bind (.require site.pointsTo_raw) fun _ => .refl _

theorem copyObject_allows (token : Token) (s : Stack) :
    Allows ((site.accepting false).copyObject token s)
      ((site.accepting true).copyObject token s) := by
  refine .after fun ty => .after ?_
  rintro ⟨source, s⟩
  refine .after ?_
  rintro ⟨destination, s⟩
  refine .bind (.require fun h => ?_) fun _ => .refl _
  rw [Bool.and_eq_true] at h ⊢
  exact ⟨site.pointsTo_raw h.1, site.pointsTo_raw h.2⟩

theorem initObject_allows (token : Token) (s : Stack) :
    Allows ((site.accepting false).initObject token s)
      ((site.accepting true).initObject token s) := by
  refine .after fun ty => .after ?_
  rintro ⟨address, s⟩
  exact .bind (.require site.pointsTo_raw) fun _ => .refl _

theorem loadField_allows (token : Token) (s : Stack) :
    Allows ((site.accepting false).loadField token s)
      ((site.accepting true).loadField token s) := by
  refine .after fun field => .after ?_
  rintro ⟨object, s⟩
  exact .bind (.require site.hasField_raw) fun _ => .refl _

theorem loadFieldAddress_allows (token : Token) (s : Stack) :
    Allows ((site.accepting false).loadFieldAddress token s)
      ((site.accepting true).loadFieldAddress token s) := by
  refine .after fun field => .after ?_
  rintro ⟨object, s⟩
  exact .bind (.require site.hasField_raw) fun _ => .refl _

theorem storeField_allows (token : Token) (s : Stack) :
    Allows ((site.accepting false).storeField token s)
      ((site.accepting true).storeField token s) := by
  refine .after fun field => .bind (site.popInto_allows s field.ty .value) ?_
  rintro ⟨_, s⟩
  refine .after ?_
  rintro ⟨object, s⟩
  exact .bind (.require site.hasField_raw) fun _ => .refl _

theorem storeStatic_allows (token : Token) (s : Stack) :
    Allows ((site.accepting false).storeStatic token s)
      ((site.accepting true).storeStatic token s) :=
  .after fun field => .bind (site.popInto_allows s field.ty .value) fun _ => .refl _

theorem box_allows (token : Token) (s : Stack) :
    Allows ((site.accepting false).box token s) ((site.accepting true).box token s) :=
  .after fun ty => .after fun _ => .bind (site.popInto_allows s ty .value) fun _ => .refl _

theorem storeElement_allows (element : Element) (s : Stack) :
    Allows ((site.accepting false).storeElement element s)
      ((site.accepting true).storeElement element s) := by
  refine .after fun declared => .after ?_
  rintro ⟨slot, s⟩
  refine .after fun s => .after ?_
  rintro ⟨actual, s⟩
  refine .after fun ty => .bind (.require fun h => ?_) fun _ => .refl _
  rw [decide_eq_true_iff] at h ⊢
  by_cases href : ty.isReference = true
  · rw [if_pos href] at h ⊢
    exact h
  · rw [if_neg href] at h ⊢
    exact Universe.assignableTo_raw h

/-- **An operation that is accepted without raw pointers has the same effect where they are
accepted.** -/
theorem perform_allows (operation : Operation) (s : Stack) :
    Allows ((site.accepting false).perform operation s)
      ((site.accepting true).perform operation s) := by
  cases operation with
  | storeArg index => exact site.storeArg_allows index s
  | loadLocal index => exact site.loadLocal_allows index s
  | storeLocal index => exact site.storeLocal_allows index s
  | binary op => exact site.binary_allows op s
  | convert conversion => exact site.convert_allows conversion s
  | compare op => exact site.compare_allows op s
  | branchIf condition target => exact site.branchIf_allows condition target s
  | branchCompare op target => exact site.branchCompare_allows op target s
  | ret => exact site.ret_allows s
  | jump token => exact site.jump_allows token s
  | call isVirtual token => exact site.call_allows isVirtual token s
  | callIndirect token => exact site.callIndirect_allows token s
  | newObject token => exact site.newObject_allows token s
  | loadVirtualFunction token => exact site.loadVirtualFunction_allows token s
  | loadIndirect access => exact site.loadIndirect_allows access s
  | storeIndirect access => exact site.storeIndirect_allows access s
  | loadObject token => exact site.loadObject_allows token s
  | storeObject token => exact site.storeObject_allows token s
  | copyObject token => exact site.copyObject_allows token s
  | initObject token => exact site.initObject_allows token s
  | localAlloc => exact site.localAlloc_allows s
  | copyBlock => exact site.copyBlock_allows s
  | initBlock => exact site.initBlock_allows s
  | loadField token => exact site.loadField_allows token s
  | loadFieldAddress token => exact site.loadFieldAddress_allows token s
  | storeField token => exact site.storeField_allows token s
  | storeStatic token => exact site.storeStatic_allows token s
  | box token => exact site.box_allows token s
  | storeElement element => exact site.storeElement_allows element s
  -- The other operations do not ask whether raw pointers are accepted.
  | _ => exact .refl _

end Site

end ManagedCode
