import ManagedCode.Proofs.Effect.Slots

set_option autoImplicit false

/-! # What operations report

An operation that is accepted tells the backend about itself: its directive is the one for the
operation, with what the operation names resolved (`Site.Tells`), never one about a label, a stack
or modifiers. One that is not accepted names a fault: a rule of the stack that is broken, an operand
of the wrong type, or a target of its own that lies outside the code. The form of the operand in the
code is never at fault, as the operation was read off it. `Site.perform_reports` says both, for
every operation at every site.
-/

namespace ManagedCode

/-- The directive stands for an operation. -/
def Directive.isOperation : Directive → Bool
  | .label _ | .refresh _ | .modifiers _ _ => false
  | _ => true

/-- The type is one that an indirect access works with. -/
def Access.Names (ty : Ty) : Access → Prop
  | .primitive p => ty = .primitive p
  | .reference => ty.isReference = true

/-- The type is one that an element access works with. -/
def Element.Names (world : Universe) (ty : Ty) : Element → Prop
  | .primitive p => ty = .primitive p
  | .reference => ty.isReference = true
  | .named token => world.type? token = some ty

/-- The directive tells of the operation: it is the one for it, and what the operation names is what
the directive names. -/
def Site.Tells (site : Site) (operation : Operation) (directive : Directive) : Prop :=
  match operation with
  | .nop => directive = .nop
  | .breakpoint => directive = .breakpoint
  -- Arguments, local variables and constants.
  | .loadArg index => ∃ slot, directive = .loadArg index slot
  | .loadArgAddress index => ∃ ty, directive = .loadArgAddress index ty
  | .storeArg index => ∃ slot, directive = .storeArg index slot
  | .loadLocal index => ∃ slot, directive = .loadLocal index slot
  | .loadLocalAddress index => ∃ ty, directive = .loadLocalAddress index ty
  | .storeLocal index => ∃ slot, directive = .storeLocal index slot
  | .argList => directive = .argList
  | .loadNull => directive = .loadNull
  | .loadInt32 value => directive = .loadInt32 value
  | .loadInt64 value => directive = .loadInt64 value
  | .loadFloat32 bits => directive = .loadFloat32 bits
  | .loadFloat64 bits => directive = .loadFloat64 bits
  | .loadString token => directive = .loadString token
  | .loadToken token =>
      ∃ entity, site.world.entity? token = some entity ∧ directive = .loadToken entity
  | .dup => ∃ slot, directive = .dup slot
  | .pop => ∃ slot, directive = .pop slot
  -- Numbers.
  | .binary op => ∃ left right result, directive = .binary op left right result
  | .shift op => ∃ operand amount, directive = .shift op operand amount
  | .unary op => ∃ operand, directive = .unary op operand
  | .convert conversion => ∃ source, directive = .convert conversion source
  | .checkFinite => directive = .checkFinite
  | .compare op =>
      (∃ left right, directive = .compare op left right) ∨
        ∃ left right, directive = .compareAddresses op left right
  -- Transfers of control.
  | .branch target => ∃ offset : Nat, target = offset ∧ directive = .branch offset
  | .branchIf condition target =>
      ∃ (operand : Slot) (offset : Nat), target = offset ∧
        directive = .branchIf condition operand offset
  | .branchCompare op target =>
      ∃ offset : Nat, target = offset ∧
        ((∃ left right, directive = .branchCompare op left right offset) ∨
          ∃ left right, directive = .branchCompareAddresses op left right offset)
  | .switch targets =>
      ∃ (operand : StackKind) (offsets : List Nat), targets = offsets.map Int.ofNat ∧
        directive = .switch operand offsets
  | .leave target => ∃ offset : Nat, target = offset ∧ directive = .leave offset
  | .endFinally => directive = .endFinally
  | .endFilter => directive = .endFilter
  | .throw => ∃ slot, directive = .throw slot
  | .rethrow => directive = .rethrow
  | .ret => ∃ value, directive = .ret value
  | .jump token => ∃ method, site.world.method? token = some method ∧ directive = .jump method
  -- Calls.
  | .call isVirtual token =>
      ∃ method args result, site.world.method? token = some method ∧
        directive = .call (site.callKind method isVirtual) method args result
  | .callIndirect _ => ∃ args result, directive = .callIndirect args result
  | .newObject token =>
      ∃ constructor args result, site.world.method? token = some constructor ∧
        directive = .newObject constructor args result
  | .loadFunction token =>
      ∃ method, site.world.method? token = some method ∧ directive = .loadFunction method
  | .loadVirtualFunction token =>
      ∃ method, site.world.method? token = some method ∧ directive = .loadVirtualFunction method
  -- Memory.
  | .loadIndirect access => ∃ ty, access.Names ty ∧ directive = .loadIndirect ty
  | .storeIndirect access => ∃ ty, access.Names ty ∧ directive = .storeIndirect ty
  | .loadObject token => ∃ ty, site.world.type? token = some ty ∧ directive = .loadObject ty
  | .storeObject token => ∃ ty, site.world.type? token = some ty ∧ directive = .storeObject ty
  | .copyObject token => ∃ ty, site.world.type? token = some ty ∧ directive = .copyObject ty
  | .initObject token => ∃ ty, site.world.type? token = some ty ∧ directive = .initObject ty
  | .sizeOf token => ∃ ty, site.world.type? token = some ty ∧ directive = .sizeOf ty
  | .localAlloc => directive = .localAlloc
  | .copyBlock => directive = .copyBlock
  | .initBlock => directive = .initBlock
  | .loadField token =>
      ∃ field object, site.world.field? token = some field ∧ directive = .loadField field object
  | .loadFieldAddress token =>
      ∃ field object, site.world.field? token = some field ∧
        directive = .loadFieldAddress field object
  | .storeField token =>
      ∃ field object value, site.world.field? token = some field ∧
        directive = .storeField field object value
  | .loadStatic token =>
      ∃ field, site.world.field? token = some field ∧ directive = .loadStatic field
  | .loadStaticAddress token =>
      ∃ field, site.world.field? token = some field ∧ directive = .loadStaticAddress field
  | .storeStatic token =>
      ∃ field value, site.world.field? token = some field ∧ directive = .storeStatic field value
  -- Objects.
  | .castClass token => ∃ ty, site.world.type? token = some ty ∧ directive = .castClass ty
  | .isInstance token => ∃ ty, site.world.type? token = some ty ∧ directive = .isInstance ty
  | .box token => ∃ ty, site.world.type? token = some ty ∧ directive = .box ty
  | .unbox token => ∃ ty, site.world.type? token = some ty ∧ directive = .unbox ty
  | .unboxAny token => ∃ ty, site.world.type? token = some ty ∧ directive = .unboxAny ty
  | .newArray token => ∃ ty, site.world.type? token = some ty ∧ directive = .newArray ty
  | .arrayLength => directive = .arrayLength
  | .loadElement element => ∃ ty, element.Names site.world ty ∧ directive = .loadElement ty
  | .loadElementAddress token =>
      ∃ ty, site.world.type? token = some ty ∧ directive = .loadElementAddress ty
  | .storeElement element => ∃ ty, element.Names site.world ty ∧ directive = .storeElement ty
  | .makeTypedRef token => ∃ ty, site.world.type? token = some ty ∧ directive = .makeTypedRef ty
  | .typedRefValue token => ∃ ty, site.world.type? token = some ty ∧ directive = .typedRefValue ty
  | .typedRefType => directive = .typedRefType
  -- Modifiers and remarks are not told as operations.
  | .modify _ | .remark => False

/-- What can be wrong with an operation that leads to `targets`, in code of `size` bytes. -/
def Fault.Proper (size : Nat) (targets : List Int) : Fault → Prop
  | .stack _ => True
  | .type subject => subject ≠ some .operand
  | .branch target => target ∈ targets ∧ ¬ (0 ≤ target ∧ target < size)

variable {α β : Type} {size : Nat} {targets : List Int}

/-- If the computation fails, then with a proper fault. -/
abbrev Blames (size : Nat) (targets : List Int) (x : Except Fault α) : Prop :=
  Fails x (Fault.Proper size targets)

/-! ## Operands -/

/-- A type error about anything but the form of the operand. -/
theorem proper_about {subject : Subject} (h : (subject == .operand) = false) :
    (Fault.about subject).Proper size targets := by
  intro heq
  exact beq_eq_false_iff_ne.mp h (Option.some.inj heq)

theorem known_blames (value : Option α) {subject : Subject}
    (h : (subject == .operand) = false) : Blames size targets (known value subject) := by
  cases value with
  | none => exact .error (proper_about h)
  | some a => exact .ok

theorem require_blames (condition : Bool) {subject : Subject}
    (h : (subject == .operand) = false) :
    Blames size targets (require condition (Fault.about subject)) := .require (proper_about h)

theorem mismatch_blames (condition : Bool) :
    Blames size targets (require condition Fault.mismatch) := by
  refine .require ?_
  intro heq
  cases heq

namespace Stack

variable (s : Stack)

theorem load_blames (slots : Slots) : Blames size targets (s.load slots) := by
  unfold load
  split
  · exact .ok
  · exact .error trivial

theorem pop_blames : Blames size targets s.pop := by
  unfold pop
  split
  · exact .error trivial
  · exact .ok

theorem popMany_blames (n : Nat) : Blames size targets (s.popMany n) := by
  unfold popMany
  split
  · exact .ok
  · exact .error trivial

theorem peek_blames (depth : Nat) : Blames size targets (s.peek depth) := by
  unfold peek
  split
  · exact .ok
  · exact .error trivial

theorem popKind_blames (accepted : List StackKind) {subject : Subject}
    (h : (subject == .operand) = false) : Blames size targets (s.popKind accepted subject) :=
  .bind s.pop_blames fun _ => .bind (require_blames _ h) fun _ => .ok

theorem expectEmpty_blames : Blames size targets s.expectEmpty := .require trivial

end Stack

/-! ## Operations -/

/-- The computation gives an effect with a directive that satisfies `P`, or fails with a proper
fault. -/
structure Reports (size : Nat) (targets : List Int) (P : Directive → Prop)
    (x : Except Fault Effect) : Prop where
  blames : Blames size targets x
  tells : Gives x fun effect => P effect.directive

namespace Reports

variable {P : Directive → Prop}

theorem ok {effect : Effect} (h : P effect.directive) : Reports size targets P (.ok effect) :=
  ⟨.ok, .ok h⟩

/-- A step whose value the directive names. -/
theorem naming {x : Except Fault α} {Q : α → Prop} {f : α → Except Fault Effect}
    (hx : Blames size targets x) (hQ : Gives x Q) (hf : ∀ a, Q a → Reports size targets P (f a)) :
    Reports size targets P (x >>= f) := by
  refine ⟨fun e he => ?_, .bind hQ fun a ha => (hf a ha).tells⟩
  rcases bind_eq_error he with hfirst | ⟨a, ha, hnext⟩
  · exact hx e hfirst
  · exact (hf a (hQ a ha)).blames e hnext

theorem after {x : Except Fault α} {f : α → Except Fault Effect} (hx : Blames size targets x)
    (hf : ∀ a, Reports size targets P (f a)) : Reports size targets P (x >>= f) :=
  .naming (Q := fun _ => True) hx (fun _ _ => trivial) fun a _ => hf a

theorem pushing (s : Stack) (slot : Slot) {directive : Directive} (h : P directive) :
    Reports size targets P (Site.pushing s slot directive) :=
  .after (s.load_blames _) fun _ => .ok h

end Reports

namespace Site

variable (site : Site) (s : Stack)

/-! ### Operands of operations -/

theorem slotOf_blames (ty : Ty) {subject : Subject} (h : (subject == .operand) = false) :
    Blames size targets (site.slotOf ty subject) := known_blames _ h

theorem popInto_blames (ty : Ty) {subject : Subject} (h : (subject == .operand) = false) :
    Blames size targets (site.popInto s ty subject) :=
  .bind s.pop_blames fun _ => .bind (require_blames _ h) fun _ => .ok

theorem popArgs_blames (params : List Ty) : Blames size targets (site.popArgs s params) :=
  .bind (s.popMany_blames _) fun _ => .bind (require_blames _ rfl) fun _ => .ok

theorem typeAt_blames (token : Token) : Blames size targets (site.typeAt token) :=
  known_blames _ rfl

theorem methodAt_blames (token : Token) : Blames size targets (site.methodAt token) :=
  known_blames _ rfl

/-- A target outside the code is named. -/
theorem targetAt_blames {target : Int} (htarget : target ∈ targets) :
    Blames site.codeSize targets (site.targetAt target) := by
  unfold targetAt
  split
  · exact .ok
  · rename_i houtside
    exact .error ⟨htarget, houtside⟩

theorem mapM_targetAt_blames {some : List Int} (hsome : ∀ target ∈ some, target ∈ targets) :
    Blames site.codeSize targets (some.mapM site.targetAt) := by
  induction some with
  | nil => exact .ok
  | cons target rest ih =>
      obtain ⟨htarget, hrest⟩ := List.forall_mem_cons.mp hsome
      rw [List.mapM_cons]
      exact .bind (site.targetAt_blames htarget) fun _ => .bind (ih hrest) fun _ => .ok

theorem popCompared_blames (op : CompareOp) : Blames size targets (site.popCompared op s) :=
  .bind s.pop_blames fun _ => .bind (Stack.pop_blames _) fun _ =>
    .bind (mismatch_blames _) fun _ => .ok

theorem popResult_blames : Blames size targets (site.popResult s) := by
  unfold popResult
  split
  · exact .bind (site.popInto_blames _ _ rfl) fun _ => .ok
  · exact .ok

theorem popReceiver_blames (method : Method) : Blames size targets (site.popReceiver method s) := by
  unfold popReceiver
  split
  · exact .bind s.pop_blames fun _ => .bind (require_blames _ rfl) fun _ => .ok
  · exact .ok

theorem popAnyReceiver_blames (signature : Signature) :
    Blames size targets (popAnyReceiver signature s) := by
  unfold popAnyReceiver
  split
  · exact .bind (s.popKind_blames _ rfl) fun _ => .ok
  · exact .ok

theorem resultOf_blames (signature : Signature) :
    Blames size targets (site.resultOf signature) := by
  unfold resultOf
  split
  · exact .map _ (site.slotOf_blames _ rfl)
  · exact .ok

theorem pushResult_blames (result : Option Slot) :
    Blames size targets (site.pushResult s result) := by
  refine .bind (require_blames _ rfl) fun _ => ?_
  cases result with
  | none => exact .ok
  | some slot => exact s.load_blames _

theorem accessed_blames (address : Slot) (access : Access) :
    Blames size targets (site.accessed address access) := by
  cases access with
  | primitive p => exact .bind (require_blames _ rfl) fun _ => .ok
  | reference => exact known_blames _ rfl

theorem instanceField_blames (token : Token) : Blames size targets (site.instanceField token) :=
  .bind (known_blames _ rfl) fun _ => .bind (require_blames _ rfl) fun _ => .ok

theorem staticField_blames (token : Token) : Blames size targets (site.staticField token) :=
  .bind (known_blames _ rfl) fun _ => .bind (require_blames _ rfl) fun _ => .ok

theorem boxed_blames (ty : Ty) : Blames size targets (boxed ty) := by
  cases ty with
  | ref id | array element | value id => exact .ok
  | primitive p => exact known_blames _ rfl
  | byRef pointee | pointer pointee | null => exact .error (proper_about rfl)

theorem popArray_blames : Blames size targets (popArray s) := by
  refine .bind (s.popKind_blames _ rfl) ?_
  rintro ⟨slot, s⟩
  simp only
  split
  · exact .ok
  · exact .ok
  · exact .error (proper_about rfl)

theorem popIndex_blames : Blames size targets (popIndex s) :=
  .bind (s.popKind_blames _ rfl) fun _ => .ok

theorem declared_blames (element : Element) : Blames size targets (site.declared element) := by
  cases element with
  | primitive p | reference => exact .ok
  | named token => exact .map _ (site.typeAt_blames token)

theorem elementType_blames (declared actual : Option Ty) :
    Blames size targets (site.elementType declared actual) := by
  unfold elementType
  split
  · exact .bind (require_blames _ rfl) fun _ => .ok
  · exact .ok
  · exact .bind (require_blames _ rfl) fun _ => .ok
  · exact .ok

theorem popTypedRef_blames : Blames size targets (popTypedRef s) :=
  .bind (s.popKind_blames _ rfl) fun _ => .bind (require_blames _ rfl) fun _ => .ok

/-! ### What operations name -/

theorem instanceField_names (token : Token) :
    Gives (site.instanceField token) fun field => site.world.field? token = some field :=
  .bind (fun _ => fieldAt_eq_ok) fun _ h => .skip fun _ => .ok h

theorem staticField_names (token : Token) :
    Gives (site.staticField token) fun field => site.world.field? token = some field :=
  .bind (fun _ => fieldAt_eq_ok) fun _ h => .skip fun _ => .ok h

theorem accessed_names (address : Slot) (access : Access) :
    Gives (site.accessed address access) fun ty => access.Names ty := by
  cases access with
  | primitive p => exact .skip fun _ => .ok rfl
  | reference =>
      intro ty h
      have hbehind := known_eq_ok h
      unfold referenceBehind at hbehind
      split at hbehind
      · split at hbehind
        · rename_i hreference
          cases hbehind
          exact hreference
        · cases hbehind
      · split at hbehind
        · cases hbehind
          rfl
        · cases hbehind
      · split at hbehind
        · cases hbehind
          rfl
        · cases hbehind
      · cases hbehind

/-- The type is the one that is declared, or a reference if none is. -/
def Declares (declared : Option Ty) (ty : Ty) : Prop :=
  match declared with
  | some named => ty = named
  | none => ty.isReference = true

theorem declared_names (element : Element) :
    Gives (site.declared element) fun declared =>
      ∀ ty, Declares declared ty → element.Names site.world ty := by
  cases element with
  | primitive p | reference => exact .ok fun _ h => h
  | named token =>
      intro declared h
      cases htype : site.typeAt token with
      | error e =>
          rw [Site.declared, htype] at h
          cases h
      | ok named =>
          rw [Site.declared, htype] at h
          cases h
          rintro ty rfl
          exact typeAt_eq_ok htype

theorem elementType_declares (declared actual : Option Ty) :
    Gives (site.elementType declared actual) (Declares declared) := by
  unfold elementType
  split
  · exact .skip fun _ => .ok rfl
  · exact .ok rfl
  · exact .bind .require fun _ h => .ok h
  · exact .ok rfl

/-! ### Arguments, local variables and constants -/

theorem loadArg_reports (index : Nat) :
    Reports size targets (site.Tells (.loadArg index)) (site.loadArg index s) :=
  .after (known_blames _ rfl) fun _ => .after (site.slotOf_blames _ rfl) fun _ =>
    .pushing _ _ ⟨_, rfl⟩

theorem storeArg_reports (index : Nat) :
    Reports size targets (site.Tells (.storeArg index)) (site.storeArg index s) :=
  .after (known_blames _ rfl) fun _ => .after (site.popInto_blames _ _ rfl) fun _ => .ok ⟨_, rfl⟩

theorem loadArgAddress_reports (index : Nat) :
    Reports size targets (site.Tells (.loadArgAddress index)) (site.loadArgAddress index s) :=
  .after (known_blames _ rfl) fun _ => .after (require_blames _ rfl) fun _ => .pushing _ _ ⟨_, rfl⟩

theorem loadLocal_reports (index : Nat) :
    Reports size targets (site.Tells (.loadLocal index)) (site.loadLocal index s) :=
  .after (known_blames _ rfl) fun _ => .after (require_blames _ rfl) fun _ =>
    .after (site.slotOf_blames _ rfl) fun _ => .pushing _ _ ⟨_, rfl⟩

theorem storeLocal_reports (index : Nat) :
    Reports size targets (site.Tells (.storeLocal index)) (site.storeLocal index s) :=
  .after (known_blames _ rfl) fun _ => .after (site.popInto_blames _ _ rfl) fun _ => .ok ⟨_, rfl⟩

theorem loadLocalAddress_reports (index : Nat) :
    Reports size targets (site.Tells (.loadLocalAddress index)) (site.loadLocalAddress index s) :=
  .after (known_blames _ rfl) fun _ => .after (require_blames _ rfl) fun _ => .pushing _ _ ⟨_, rfl⟩

theorem argList_reports :
    Reports size targets (site.Tells .argList) (site.argList s) :=
  .after (require_blames _ rfl) fun _ => .pushing _ _ rfl

theorem loadString_reports (token : Token) :
    Reports size targets (site.Tells (.loadString token)) (site.loadString token s) :=
  .after (require_blames _ rfl) fun _ => .pushing _ _ rfl

theorem loadToken_reports (token : Token) :
    Reports size targets (site.Tells (.loadToken token)) (site.loadToken token s) :=
  .naming (known_blames _ rfl) (fun _ => known_eq_ok) fun _ hentity =>
    .after (require_blames _ rfl) fun _ => .pushing _ _ ⟨_, hentity, rfl⟩

theorem dup_reports :
    Reports size targets (site.Tells .dup) (dup s) :=
  .after (s.peek_blames 0) fun _ => .pushing _ _ ⟨_, rfl⟩

theorem pop_reports :
    Reports size targets (site.Tells .pop) (pop s) :=
  .after s.pop_blames fun _ => .ok ⟨_, rfl⟩

/-! ### Arithmetic, conversions and comparisons -/

theorem binary_reports (op : BinaryOp) :
    Reports size targets (site.Tells (.binary op)) (site.binary op s) :=
  .after s.pop_blames fun _ => .after (Stack.pop_blames _) fun _ =>
    .after (mismatch_blames _) fun _ => .pushing _ _ ⟨_, _, _, rfl⟩

theorem shift_reports (op : ShiftOp) :
    Reports size targets (site.Tells (.shift op)) (shift op s) :=
  .after s.pop_blames fun _ => .after (Stack.pop_blames _) fun _ =>
    .after (mismatch_blames _) fun _ => .pushing _ _ ⟨_, _, rfl⟩

theorem unary_reports (op : UnaryOp) :
    Reports size targets (site.Tells (.unary op)) (unary op s) :=
  .after s.pop_blames fun _ => .after (require_blames _ rfl) fun _ => .pushing _ _ ⟨_, rfl⟩

theorem convert_reports (conversion : Conversion) :
    Reports size targets (site.Tells (.convert conversion)) (site.convert conversion s) :=
  .after s.pop_blames fun _ => .after (require_blames _ rfl) fun _ => .pushing _ _ ⟨_, rfl⟩

theorem checkFinite_reports :
    Reports size targets (site.Tells .checkFinite) (checkFinite s) :=
  .after (s.popKind_blames _ rfl) fun _ => .pushing _ _ rfl

theorem compare_reports (op : CompareOp) :
    Reports size targets (site.Tells (.compare op)) (site.compare op s) := by
  refine .after (site.popCompared_blames s op) fun _ => .pushing _ _ ?_
  split
  · exact .inr ⟨_, _, rfl⟩
  · exact .inl ⟨_, _, rfl⟩

/-! ### Transfers of control -/

theorem branch_reports (target : Int) :
    Reports site.codeSize [target] (site.Tells (.branch target)) (site.branch target s) :=
  .naming (site.targetAt_blames (List.mem_singleton_self target)) (targetAt_eq target)
    fun _ h => .ok ⟨_, h.symm, rfl⟩

theorem branchIf_reports (condition : Bool) (target : Int) :
    Reports site.codeSize [target] (site.Tells (.branchIf condition target))
      (site.branchIf condition target s) :=
  .naming (site.targetAt_blames (List.mem_singleton_self target)) (targetAt_eq target) fun _ h =>
    .after s.pop_blames fun _ => .after (require_blames _ rfl) fun _ => .ok ⟨_, _, h.symm, rfl⟩

theorem branchCompare_reports (op : CompareOp) (target : Int) :
    Reports site.codeSize [target] (site.Tells (.branchCompare op target))
      (site.branchCompare op target s) := by
  refine .naming (site.targetAt_blames (List.mem_singleton_self target)) (targetAt_eq target)
    fun offset h => ?_
  refine .after (site.popCompared_blames s op) fun _ => .ok ⟨offset, h.symm, ?_⟩
  simp only
  split
  · exact .inr ⟨_, _, rfl⟩
  · exact .inl ⟨_, _, rfl⟩

theorem switch_reports (targets : List Int) :
    Reports site.codeSize targets (site.Tells (.switch targets)) (site.switch targets s) :=
  .naming (site.mapM_targetAt_blames fun _ h => h) (mapM_targetAt_eq targets) fun _ h =>
    .after (s.popKind_blames _ rfl) fun _ => .ok ⟨_, _, h.symm, rfl⟩

theorem leave_reports (target : Int) :
    Reports site.codeSize [target] (site.Tells (.leave target)) (site.leave target s) :=
  .naming (site.targetAt_blames (List.mem_singleton_self target)) (targetAt_eq target) fun _ h =>
    .after (require_blames _ rfl) fun _ => .ok ⟨_, h.symm, rfl⟩

theorem endFinally_reports :
    Reports size targets (site.Tells .endFinally) (site.endFinally s) :=
  .after (require_blames _ rfl) fun _ => .ok rfl

theorem endFilter_reports :
    Reports size targets (site.Tells .endFilter) (site.endFilter s) :=
  .after (require_blames _ rfl) fun _ => .after (s.popKind_blames _ rfl) fun _ =>
    .after (Stack.expectEmpty_blames _) fun _ => .ok rfl

theorem throw_reports :
    Reports size targets (site.Tells .throw) (throw s) :=
  .after (s.popKind_blames _ rfl) fun _ => .ok ⟨_, rfl⟩

theorem rethrow_reports :
    Reports size targets (site.Tells .rethrow) (site.rethrow s) :=
  .after (require_blames _ rfl) fun _ => .ok rfl

theorem ret_reports :
    Reports size targets (site.Tells .ret) (site.ret s) :=
  .after (require_blames _ rfl) fun _ => .after (site.popResult_blames s) fun _ =>
    .after (Stack.expectEmpty_blames _) fun _ => .ok ⟨_, rfl⟩

theorem jump_reports (token : Token) :
    Reports size targets (site.Tells (.jump token)) (site.jump token s) :=
  .after (require_blames _ rfl) fun _ =>
    .naming (site.methodAt_blames token) (fun _ => methodAt_eq_ok) fun _ hmethod =>
      .after (require_blames _ rfl) fun _ => .after (Stack.expectEmpty_blames _) fun _ =>
        .ok ⟨_, hmethod, rfl⟩

/-! ### Calls -/

theorem call_reports (isVirtual : Bool) (token : Token) :
    Reports size targets (site.Tells (.call isVirtual token)) (site.call isVirtual token s) :=
  .naming (site.methodAt_blames token) (fun _ => methodAt_eq_ok) fun _ hmethod =>
    .after (require_blames _ rfl) fun _ => .after (site.popArgs_blames s _) fun _ =>
      .after (site.popReceiver_blames _ _) fun _ => .after (site.resultOf_blames _) fun _ =>
        .after (site.pushResult_blames _ _) fun _ => .ok ⟨_, _, _, hmethod, rfl⟩

theorem callIndirect_reports (token : Token) :
    Reports size targets (site.Tells (.callIndirect token)) (site.callIndirect token s) :=
  .after (known_blames _ rfl) fun _ => .after (s.popKind_blames _ rfl) fun _ =>
    .after (site.popArgs_blames _ _) fun _ => .after (popAnyReceiver_blames _ _) fun _ =>
      .after (site.resultOf_blames _) fun _ => .after (site.pushResult_blames _ _) fun _ =>
        .ok ⟨_, _, rfl⟩

theorem newObject_reports (token : Token) :
    Reports size targets (site.Tells (.newObject token)) (site.newObject token s) :=
  .naming (site.methodAt_blames token) (fun _ => methodAt_eq_ok) fun _ hmethod =>
    .after (require_blames _ rfl) fun _ => .after (require_blames _ rfl) fun _ =>
      .after (site.popArgs_blames s _) fun _ => .after (site.slotOf_blames _ rfl) fun _ =>
        .pushing _ _ ⟨_, _, _, hmethod, rfl⟩

theorem loadFunction_reports (token : Token) :
    Reports size targets (site.Tells (.loadFunction token)) (site.loadFunction token s) :=
  .naming (site.methodAt_blames token) (fun _ => methodAt_eq_ok) fun _ hmethod =>
    .pushing _ _ ⟨_, hmethod, rfl⟩

theorem loadVirtualFunction_reports (token : Token) :
    Reports size targets (site.Tells (.loadVirtualFunction token))
      (site.loadVirtualFunction token s) :=
  .naming (site.methodAt_blames token) (fun _ => methodAt_eq_ok) fun _ hmethod =>
    .after (require_blames _ rfl) fun _ => .after (s.popKind_blames _ rfl) fun _ =>
      .after (require_blames _ rfl) fun _ => .pushing _ _ ⟨_, hmethod, rfl⟩

/-! ### Indirect access, blocks of memory and fields -/

theorem loadIndirect_reports (access : Access) :
    Reports size targets (site.Tells (.loadIndirect access)) (site.loadIndirect access s) :=
  .after s.pop_blames fun _ =>
    .naming (site.accessed_blames _ access) (site.accessed_names _ access) fun _ hty =>
      .after (site.slotOf_blames _ rfl) fun _ => .pushing _ _ ⟨_, hty, rfl⟩

theorem storeIndirect_reports (access : Access) :
    Reports size targets (site.Tells (.storeIndirect access)) (site.storeIndirect access s) :=
  .after s.pop_blames fun _ => .after (Stack.pop_blames _) fun _ =>
    .naming (site.accessed_blames _ access) (site.accessed_names _ access) fun _ hty =>
      .after (require_blames _ rfl) fun _ => .ok ⟨_, hty, rfl⟩

theorem loadObject_reports (token : Token) :
    Reports size targets (site.Tells (.loadObject token)) (site.loadObject token s) :=
  .naming (site.typeAt_blames token) (fun _ => typeAt_eq_ok) fun _ hty =>
    .after s.pop_blames fun _ => .after (require_blames _ rfl) fun _ =>
      .after (site.slotOf_blames _ rfl) fun _ => .pushing _ _ ⟨_, hty, rfl⟩

theorem storeObject_reports (token : Token) :
    Reports size targets (site.Tells (.storeObject token)) (site.storeObject token s) :=
  .naming (site.typeAt_blames token) (fun _ => typeAt_eq_ok) fun _ hty =>
    .after (site.popInto_blames s _ rfl) fun _ => .after (Stack.pop_blames _) fun _ =>
      .after (require_blames _ rfl) fun _ => .ok ⟨_, hty, rfl⟩

theorem copyObject_reports (token : Token) :
    Reports size targets (site.Tells (.copyObject token)) (site.copyObject token s) :=
  .naming (site.typeAt_blames token) (fun _ => typeAt_eq_ok) fun _ hty =>
    .after s.pop_blames fun _ => .after (Stack.pop_blames _) fun _ =>
      .after (require_blames _ rfl) fun _ => .ok ⟨_, hty, rfl⟩

theorem initObject_reports (token : Token) :
    Reports size targets (site.Tells (.initObject token)) (site.initObject token s) :=
  .naming (site.typeAt_blames token) (fun _ => typeAt_eq_ok) fun _ hty =>
    .after s.pop_blames fun _ => .after (require_blames _ rfl) fun _ => .ok ⟨_, hty, rfl⟩

theorem sizeOf_reports (token : Token) :
    Reports size targets (site.Tells (.sizeOf token)) (site.sizeOf token s) :=
  .naming (site.typeAt_blames token) (fun _ => typeAt_eq_ok) fun _ hty =>
    .pushing _ _ ⟨_, hty, rfl⟩

theorem localAlloc_reports :
    Reports size targets (site.Tells .localAlloc) (site.localAlloc s) :=
  .after (require_blames _ rfl) fun _ => .after (s.popKind_blames _ rfl) fun _ =>
    .after (require_blames _ rfl) fun _ => .pushing _ _ rfl

theorem copyBlock_reports :
    Reports size targets (site.Tells .copyBlock) (site.copyBlock s) :=
  .after (require_blames _ rfl) fun _ => .after (s.popKind_blames _ rfl) fun _ =>
    .after (Stack.popKind_blames _ _ rfl) fun _ => .after (Stack.popKind_blames _ _ rfl) fun _ =>
      .ok rfl

theorem initBlock_reports :
    Reports size targets (site.Tells .initBlock) (site.initBlock s) :=
  .after (require_blames _ rfl) fun _ => .after (s.popKind_blames _ rfl) fun _ =>
    .after (Stack.popKind_blames _ _ rfl) fun _ => .after (Stack.popKind_blames _ _ rfl) fun _ =>
      .ok rfl

theorem loadField_reports (token : Token) :
    Reports size targets (site.Tells (.loadField token)) (site.loadField token s) :=
  .naming (site.instanceField_blames token) (site.instanceField_names token) fun _ hfield =>
    .after s.pop_blames fun _ => .after (require_blames _ rfl) fun _ =>
      .after (site.slotOf_blames _ rfl) fun _ => .pushing _ _ ⟨_, _, hfield, rfl⟩

theorem loadFieldAddress_reports (token : Token) :
    Reports size targets (site.Tells (.loadFieldAddress token)) (site.loadFieldAddress token s) :=
  .naming (site.instanceField_blames token) (site.instanceField_names token) fun _ hfield =>
    .after s.pop_blames fun _ => .after (require_blames _ rfl) fun _ =>
      .pushing _ _ ⟨_, _, hfield, rfl⟩

theorem storeField_reports (token : Token) :
    Reports size targets (site.Tells (.storeField token)) (site.storeField token s) :=
  .naming (site.instanceField_blames token) (site.instanceField_names token) fun _ hfield =>
    .after (site.popInto_blames s _ rfl) fun _ => .after (Stack.pop_blames _) fun _ =>
      .after (require_blames _ rfl) fun _ => .ok ⟨_, _, _, hfield, rfl⟩

theorem loadStatic_reports (token : Token) :
    Reports size targets (site.Tells (.loadStatic token)) (site.loadStatic token s) :=
  .naming (site.staticField_blames token) (site.staticField_names token) fun _ hfield =>
    .after (site.slotOf_blames _ rfl) fun _ => .pushing _ _ ⟨_, hfield, rfl⟩

theorem loadStaticAddress_reports (token : Token) :
    Reports size targets (site.Tells (.loadStaticAddress token)) (site.loadStaticAddress token s) :=
  .naming (site.staticField_blames token) (site.staticField_names token) fun _ hfield =>
    .pushing _ _ ⟨_, hfield, rfl⟩

theorem storeStatic_reports (token : Token) :
    Reports size targets (site.Tells (.storeStatic token)) (site.storeStatic token s) :=
  .naming (site.staticField_blames token) (site.staticField_names token) fun _ hfield =>
    .after (site.popInto_blames s _ rfl) fun _ => .ok ⟨_, _, hfield, rfl⟩

/-! ### Casts, boxes, arrays and typed references -/

theorem cast_reports (token : Token) {directive : Ty → Directive} :
    Reports size targets (fun d => ∃ ty, site.world.type? token = some ty ∧ d = directive ty)
      (site.cast token s directive) :=
  .naming (site.typeAt_blames token) (fun _ => typeAt_eq_ok) fun _ hty =>
    .after (boxed_blames _) fun _ => .after (s.popKind_blames _ rfl) fun _ =>
      .pushing _ _ ⟨_, hty, rfl⟩

theorem box_reports (token : Token) :
    Reports size targets (site.Tells (.box token)) (site.box token s) :=
  .naming (site.typeAt_blames token) (fun _ => typeAt_eq_ok) fun _ hty =>
    .after (boxed_blames _) fun _ => .after (site.popInto_blames s _ rfl) fun _ =>
      .pushing _ _ ⟨_, hty, rfl⟩

theorem unbox_reports (token : Token) :
    Reports size targets (site.Tells (.unbox token)) (site.unbox token s) :=
  .naming (site.typeAt_blames token) (fun _ => typeAt_eq_ok) fun _ hty =>
    .after (require_blames _ rfl) fun _ => .after (s.popKind_blames _ rfl) fun _ =>
      .pushing _ _ ⟨_, hty, rfl⟩

theorem unboxAny_reports (token : Token) :
    Reports size targets (site.Tells (.unboxAny token)) (site.unboxAny token s) :=
  .naming (site.typeAt_blames token) (fun _ => typeAt_eq_ok) fun _ hty =>
    .after (site.slotOf_blames _ rfl) fun _ => .after (s.popKind_blames _ rfl) fun _ =>
      .pushing _ _ ⟨_, hty, rfl⟩

theorem newArray_reports (token : Token) :
    Reports size targets (site.Tells (.newArray token)) (site.newArray token s) :=
  .naming (site.typeAt_blames token) (fun _ => typeAt_eq_ok) fun _ hty =>
    .after (require_blames _ rfl) fun _ => .after (s.popKind_blames _ rfl) fun _ =>
      .pushing _ _ ⟨_, hty, rfl⟩

theorem arrayLength_reports :
    Reports size targets (site.Tells .arrayLength) (arrayLength s) :=
  .after (popArray_blames s) fun _ => .pushing _ _ rfl

theorem loadElement_reports (element : Element) :
    Reports size targets (site.Tells (.loadElement element)) (site.loadElement element s) :=
  .naming (site.declared_blames element) (site.declared_names element) fun _ hnames =>
    .after (popIndex_blames s) fun _ => .after (popArray_blames _) fun _ =>
      .naming (site.elementType_blames _ _) (site.elementType_declares _ _) fun _ hty =>
        .after (site.slotOf_blames _ rfl) fun _ => .pushing _ _ ⟨_, hnames _ hty, rfl⟩

theorem loadElementAddress_reports (token : Token) :
    Reports size targets (site.Tells (.loadElementAddress token))
      (site.loadElementAddress token s) :=
  .naming (site.typeAt_blames token) (fun _ => typeAt_eq_ok) fun _ hty =>
    .after (popIndex_blames s) fun _ => .after (popArray_blames _) fun _ =>
      .after (require_blames _ rfl) fun _ => .pushing _ _ ⟨_, hty, rfl⟩

theorem storeElement_reports (element : Element) :
    Reports size targets (site.Tells (.storeElement element)) (site.storeElement element s) :=
  .naming (site.declared_blames element) (site.declared_names element) fun _ hnames =>
    .after s.pop_blames fun _ => .after (popIndex_blames _) fun _ =>
      .after (popArray_blames _) fun _ =>
        .naming (site.elementType_blames _ _) (site.elementType_declares _ _) fun _ hty =>
          .after (require_blames _ rfl) fun _ => .ok ⟨_, hnames _ hty, rfl⟩

theorem makeTypedRef_reports (token : Token) :
    Reports size targets (site.Tells (.makeTypedRef token)) (site.makeTypedRef token s) :=
  .naming (site.typeAt_blames token) (fun _ => typeAt_eq_ok) fun _ hty =>
    .after (s.popKind_blames _ rfl) fun _ => .after (require_blames _ rfl) fun _ =>
      .pushing _ _ ⟨_, hty, rfl⟩

theorem typedRefValue_reports (token : Token) :
    Reports size targets (site.Tells (.typedRefValue token)) (site.typedRefValue token s) :=
  .naming (site.typeAt_blames token) (fun _ => typeAt_eq_ok) fun _ hty =>
    .after (popTypedRef_blames s) fun _ => .pushing _ _ ⟨_, hty, rfl⟩

theorem typedRefType_reports :
    Reports size targets (site.Tells .typedRefType) (typedRefType s) :=
  .after (popTypedRef_blames s) fun _ => .pushing _ _ rfl

/-! ### All operations -/

/-- **Every operation tells the backend about itself or has a proper fault.** -/
theorem perform_reports (operation : Operation) :
    Reports site.codeSize operation.targets (site.Tells operation) (site.perform operation s) := by
  cases operation with
  | nop | breakpoint => exact .ok rfl
  | loadArg index => exact site.loadArg_reports s index
  | loadArgAddress index => exact site.loadArgAddress_reports s index
  | storeArg index => exact site.storeArg_reports s index
  | loadLocal index => exact site.loadLocal_reports s index
  | loadLocalAddress index => exact site.loadLocalAddress_reports s index
  | storeLocal index => exact site.storeLocal_reports s index
  | argList => exact site.argList_reports s
  | loadNull | loadInt32 _ | loadInt64 _ | loadFloat32 _ | loadFloat64 _ => exact .pushing _ _ rfl
  | loadString token => exact site.loadString_reports s token
  | loadToken token => exact site.loadToken_reports s token
  | dup => exact site.dup_reports s
  | pop => exact site.pop_reports s
  | binary op => exact site.binary_reports s op
  | shift op => exact site.shift_reports s op
  | unary op => exact site.unary_reports s op
  | convert conversion => exact site.convert_reports s conversion
  | checkFinite => exact site.checkFinite_reports s
  | compare op => exact site.compare_reports s op
  | branch target => exact site.branch_reports s target
  | branchIf condition target => exact site.branchIf_reports s condition target
  | branchCompare op target => exact site.branchCompare_reports s op target
  | switch targets => exact site.switch_reports s targets
  | leave target => exact site.leave_reports s target
  | endFinally => exact site.endFinally_reports s
  | endFilter => exact site.endFilter_reports s
  | throw => exact site.throw_reports s
  | rethrow => exact site.rethrow_reports s
  | ret => exact site.ret_reports s
  | jump token => exact site.jump_reports s token
  | call isVirtual token => exact site.call_reports s isVirtual token
  | callIndirect token => exact site.callIndirect_reports s token
  | newObject token => exact site.newObject_reports s token
  | loadFunction token => exact site.loadFunction_reports s token
  | loadVirtualFunction token => exact site.loadVirtualFunction_reports s token
  | loadIndirect access => exact site.loadIndirect_reports s access
  | storeIndirect access => exact site.storeIndirect_reports s access
  | loadObject token => exact site.loadObject_reports s token
  | storeObject token => exact site.storeObject_reports s token
  | copyObject token => exact site.copyObject_reports s token
  | initObject token => exact site.initObject_reports s token
  | sizeOf token => exact site.sizeOf_reports s token
  | localAlloc => exact site.localAlloc_reports s
  | copyBlock => exact site.copyBlock_reports s
  | initBlock => exact site.initBlock_reports s
  | loadField token => exact site.loadField_reports s token
  | loadFieldAddress token => exact site.loadFieldAddress_reports s token
  | storeField token => exact site.storeField_reports s token
  | loadStatic token => exact site.loadStatic_reports s token
  | loadStaticAddress token => exact site.loadStaticAddress_reports s token
  | storeStatic token => exact site.storeStatic_reports s token
  | castClass token | isInstance token => exact site.cast_reports s token
  | box token => exact site.box_reports s token
  | unbox token => exact site.unbox_reports s token
  | unboxAny token => exact site.unboxAny_reports s token
  | newArray token => exact site.newArray_reports s token
  | arrayLength => exact site.arrayLength_reports s
  | loadElement element => exact site.loadElement_reports s element
  | loadElementAddress token => exact site.loadElementAddress_reports s token
  | storeElement element => exact site.storeElement_reports s element
  | makeTypedRef token => exact site.makeTypedRef_reports s token
  | typedRefValue token => exact site.typedRefValue_reports s token
  | typedRefType => exact site.typedRefType_reports s
  | modify _ | remark => exact ⟨.error (proper_about rfl), .error⟩

/-- A directive that tells of an operation is not about a label, a stack or modifiers. -/
theorem Tells.isOperation {site : Site} {operation : Operation} {directive : Directive}
    (h : site.Tells operation directive) : directive.isOperation = true := by
  cases directive with
  | label offset => cases operation <;> simp [Tells] at h
  | refresh slots => cases operation <;> simp [Tells] at h
  | modifiers set constraint => cases operation <;> simp [Tells] at h
  | _ => rfl

end Site

end ManagedCode
