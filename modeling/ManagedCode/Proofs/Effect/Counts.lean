import ManagedCode.Effect
import ManagedCode.Proofs.Effect.Exchange

set_option autoImplicit false

/-! # How many slots each operation takes and makes

`Operation.pops` and `Operation.pushes` list the counts. A call takes its arguments, and its
receiver if it has one, and makes the result, if it has one: its counts come from the signature
that its token stands for. A transfer that leaves nothing behind takes all there is.

`Site.perform_exchanges` says that every operation that is accepted keeps to its counts, and
`Site.perform_ends` that the transfers out of a block or of the method leave an empty stack.
-/

namespace ManagedCode

/-! ## The counts -/

namespace Signature

/-- Number of slots that a call takes: the arguments and the receiver. -/
def argCount (signature : Signature) : Nat :=
  signature.params.length + if signature.hasThis then 1 else 0

/-- Number of slots that a call makes. -/
def resultCount (signature : Signature) : Nat := if signature.ret.isVoid then 0 else 1

/-- The arguments are taken first, and the receiver after them. -/
theorem argCount_eq (signature : Signature) :
    signature.argCount = 0 + (if signature.hasThis then 1 else 0) + signature.params.length := by
  rw [Nat.zero_add, Nat.add_comm]
  rfl

theorem result?_isSome (signature : Signature) :
    (if signature.result?.isSome then 1 else 0) = signature.resultCount := by
  unfold result? resultCount
  split <;> rfl

end Signature

namespace Operation

/-- The signature of what an operation calls. -/
def callee? (world : Universe) : Operation → Option Signature
  | .call _ token | .newObject token => (world.method? token).map (·.signature)
  | .callIndirect token => world.signature? token
  | _ => none

/-- The operation throws away what is on the stack, or makes sure that nothing is. -/
def empties : Operation → Bool
  | .leave _ | .endFinally | .endFilter | .throw | .rethrow | .ret | .jump _ => true
  | _ => false

/-- Number of slots that an operation takes off a stack of a height. -/
def pops (operation : Operation) (callee : Signature) (height : Nat) : Nat :=
  match operation with
  | .nop | .breakpoint | .loadArg _ | .loadArgAddress _ | .loadLocal _ | .loadLocalAddress _
  | .argList | .loadNull | .loadInt32 _ | .loadInt64 _ | .loadFloat32 _ | .loadFloat64 _
  | .loadString _ | .loadToken _ | .branch _ | .jump _ | .loadFunction _ | .sizeOf _
  | .loadStatic _ | .loadStaticAddress _ | .modify _ | .remark => 0
  | .storeArg _ | .storeLocal _ | .dup | .pop | .unary _ | .convert _ | .checkFinite
  | .branchIf _ _ | .switch _ | .endFilter | .loadVirtualFunction _ | .loadIndirect _
  | .loadObject _ | .initObject _ | .localAlloc | .loadField _ | .loadFieldAddress _
  | .storeStatic _ | .castClass _ | .isInstance _ | .box _ | .unbox _ | .unboxAny _ | .newArray _
  | .arrayLength | .makeTypedRef _ | .typedRefValue _ | .typedRefType => 1
  | .binary _ | .shift _ | .compare _ | .branchCompare _ _ | .storeIndirect _ | .storeObject _
  | .copyObject _ | .storeField _ | .loadElement _ | .loadElementAddress _ => 2
  | .copyBlock | .initBlock | .storeElement _ => 3
  | .leave _ | .endFinally | .throw | .rethrow | .ret => height
  | .call _ _ => callee.argCount
  | .callIndirect _ => callee.argCount + 1
  | .newObject _ => callee.params.length

/-- Number of slots that an operation puts on. -/
def pushes (operation : Operation) (callee : Signature) : Nat :=
  match operation with
  | .nop | .breakpoint | .storeArg _ | .storeLocal _ | .pop | .branch _ | .branchIf _ _
  | .branchCompare _ _ | .switch _ | .leave _ | .endFinally | .endFilter | .throw | .rethrow | .ret
  | .jump _ | .storeIndirect _ | .storeObject _ | .copyObject _ | .initObject _ | .copyBlock
  | .initBlock | .storeField _ | .storeStatic _ | .storeElement _ | .modify _ | .remark => 0
  | .dup => 2
  | .call _ _ | .callIndirect _ => callee.resultCount
  | _ => 1

end Operation

/-! ## The operations one by one

Each proof follows the steps of its operation, so that the counts can be read off them: `take` and
`drop` where slots are taken off, `after` and `check` where nothing happens to the stack. -/

namespace Site

variable {site : Site} {s : Stack}

/-! ### Arguments, local variables and constants -/

theorem loadArg_exchanges (index : Nat) : Exchanges 0 1 (site.loadArg index) s :=
  .after fun _ => .after fun _ => pushing_exchanges _ _

theorem storeArg_exchanges (index : Nat) : Exchanges 1 0 (site.storeArg index) s :=
  .after fun _ => .take (popInto_takes _ _) fun _ _ => .ok _ _

theorem loadArgAddress_exchanges (index : Nat) : Exchanges 0 1 (site.loadArgAddress index) s :=
  .after fun _ => .after fun _ => pushing_exchanges _ _

theorem loadLocal_exchanges (index : Nat) : Exchanges 0 1 (site.loadLocal index) s :=
  .after fun _ => .after fun _ => .after fun _ => pushing_exchanges _ _

theorem storeLocal_exchanges (index : Nat) : Exchanges 1 0 (site.storeLocal index) s :=
  .after fun _ => .take (popInto_takes _ _) fun _ _ => .ok _ _

theorem loadLocalAddress_exchanges (index : Nat) :
    Exchanges 0 1 (site.loadLocalAddress index) s :=
  .after fun _ => .after fun _ => pushing_exchanges _ _

theorem argList_exchanges : Exchanges 0 1 site.argList s :=
  .after fun _ => pushing_exchanges _ _

theorem loadString_exchanges (token : Token) : Exchanges 0 1 (site.loadString token) s :=
  .after fun _ => pushing_exchanges _ _

theorem loadToken_exchanges (token : Token) : Exchanges 0 1 (site.loadToken token) s :=
  .after fun _ => .after fun _ => pushing_exchanges _ _

/-- The slot that is looked at stays, and counts as taken and put back. -/
theorem dup_exchanges : Exchanges 1 2 dup s := by
  intro e h
  obtain ⟨slot, hpeek, he⟩ := bind_eq_ok h
  obtain ⟨hstack, hsame⟩ := pushing_exchanges slot (.dup slot) e he
  have hsome : 0 < s.height := by
    unfold Stack.peek at hpeek
    split at hpeek
    · rename_i hget
      exact (List.getElem?_eq_some_iff.mp hget).1
    · cases hpeek
  refine ⟨hstack.deepen hsome, fun bound hle => ?_⟩
  show (s.peek 0 >>= fun slot => _) = _
  rw [hpeek]
  exact hsame bound hle

theorem pop_exchanges : Exchanges 1 0 pop s := .take pop_takes fun _ _ => .ok _ _

/-! ### Numbers -/

theorem binary_exchanges (op : BinaryOp) : Exchanges 2 1 (site.binary op) s :=
  .take pop_takes fun _ _ => .take pop_takes fun _ _ => .after fun _ => pushing_exchanges _ _

theorem shift_exchanges (op : ShiftOp) : Exchanges 2 1 (shift op) s :=
  .take pop_takes fun _ _ => .take pop_takes fun _ _ => .after fun _ => pushing_exchanges _ _

theorem unary_exchanges (op : UnaryOp) : Exchanges 1 1 (unary op) s :=
  .take pop_takes fun _ _ => .after fun _ => pushing_exchanges _ _

theorem convert_exchanges (conversion : Conversion) : Exchanges 1 1 (site.convert conversion) s :=
  .take pop_takes fun _ _ => .after fun _ => pushing_exchanges _ _

theorem checkFinite_exchanges : Exchanges 1 1 checkFinite s :=
  .take (popKind_takes _ _) fun _ _ => pushing_exchanges _ _

theorem compare_exchanges (op : CompareOp) : Exchanges 2 1 (site.compare op) s :=
  .take (popCompared_takes op) fun _ _ => pushing_exchanges _ _

/-! ### Transfers of control -/

theorem branch_exchanges (target : Int) : Exchanges 0 0 (site.branch target) s :=
  .after fun _ => .ok _ _

theorem branchIf_exchanges (condition : Bool) (target : Int) :
    Exchanges 1 0 (site.branchIf condition target) s :=
  .after fun _ => .take pop_takes fun _ _ => .after fun _ => .ok _ _

theorem branchCompare_exchanges (op : CompareOp) (target : Int) :
    Exchanges 2 0 (site.branchCompare op target) s :=
  .after fun _ => .take (popCompared_takes op) fun _ _ => .ok _ _

theorem switch_exchanges (targets : List Int) : Exchanges 1 0 (site.switch targets) s :=
  .after fun _ => .take (popKind_takes _ _) fun _ _ => .ok _ _

theorem endFilter_exchanges : Exchanges 1 0 site.endFilter s :=
  .after fun _ => .take (popKind_takes _ _) fun _ _ => .check (fun _ => rfl) fun _ _ => .ok _ _

theorem jump_exchanges (token : Token) : Exchanges 0 0 (site.jump token) s :=
  .after fun _ => .after fun _ => .after fun _ => .check (fun _ => rfl) fun _ _ => .ok _ _

theorem leave_ends (target : Int) : Ends (site.leave target) s :=
  .after fun _ => .after fun _ => .clear _ _

theorem endFinally_ends : Ends site.endFinally s := .after fun _ => .clear _ _

theorem endFilter_ends : Ends site.endFilter s :=
  .after fun _ => .take (popKind_takes _ _) fun _ _ => .empty _

theorem throw_ends : Ends throw s := .take (popKind_takes _ _) fun _ _ => .clear _ _

theorem rethrow_ends : Ends site.rethrow s := .after fun _ => .clear _ _

theorem ret_ends : Ends site.ret s := by
  obtain ⟨count, hresult⟩ : ∃ count, Takes count site.popResult s := popResult_takes
  exact .after fun _ => .take hresult fun _ _ => .empty _

theorem jump_ends (token : Token) : Ends (site.jump token) s :=
  .after fun _ => .after fun _ => .after fun _ => .empty _

/-! ### Calls -/

/-- What the call of a method with a signature makes. -/
theorem resultOf_count {signature : Signature} {result : Option Slot}
    (h : site.resultOf signature = .ok result) :
    (if result.isSome then 1 else 0) = signature.resultCount := by
  rw [← signature.result?_isSome]
  unfold resultOf at h
  cases hresult : signature.result? with
  | none =>
    rw [hresult] at h
    cases h
    rfl
  | some ty =>
    simp only [hresult] at h
    cases hslot : site.slotOf ty .result with
    | error e =>
      rw [hslot] at h
      cases h
    | ok slot =>
      rw [hslot] at h
      cases h
      rfl

theorem pushResult_exchanges (result : Option Slot) (directive : Directive) :
    Exchanges 0 (if result.isSome then 1 else 0)
      (fun s => site.pushResult s result >>= fun s => .ok ⟨s, directive, []⟩) s := by
  cases result with
  | none =>
    simp only [pushResult, bind_assoc]
    exact .check (fun _ => rfl) fun _ _ => .ok _ _
  | some slot =>
    simp only [pushResult, bind_assoc]
    exact .check (fun _ => rfl) fun _ _ => pushing_exchanges slot directive

/-- The end of a call: the result is made, if there is one. -/
theorem giveResult_exchanges (signature : Signature) (directive : Option Slot → Directive) :
    Exchanges 0 signature.resultCount
      (fun s => site.resultOf signature >>= fun result =>
        site.pushResult s result >>= fun s => .ok ⟨s, directive result, []⟩) s := by
  refine .check (fun _ => rfl) fun result hresult => ?_
  rw [← resultOf_count hresult]
  exact pushResult_exchanges result (directive result)

theorem call_exchanges (isVirtual : Bool) (token : Token) :
    Exchanges (((Operation.call isVirtual token).callee? site.world).getD {}).argCount
      (((Operation.call isVirtual token).callee? site.world).getD {}).resultCount
      (site.call isVirtual token) s := by
  refine .check (fun _ => rfl) fun method hmethod => ?_
  simp only [Operation.callee?, methodAt_eq_ok hmethod, Option.map_some, Option.getD_some]
  rw [method.signature.argCount_eq]
  refine .after fun _ => .take (popArgs_takes _) fun args _ => ?_
  exact .take (popReceiver_takes method) fun receiver _ => giveResult_exchanges _ _

theorem callIndirect_exchanges (token : Token) :
    Exchanges ((((Operation.callIndirect token).callee? site.world).getD {}).argCount + 1)
      (((Operation.callIndirect token).callee? site.world).getD {}).resultCount
      (site.callIndirect token) s := by
  refine .check (fun _ => rfl) fun signature hsignature => ?_
  simp only [Operation.callee?, known_eq_ok hsignature, Option.getD_some]
  rw [signature.argCount_eq]
  refine .take (popKind_takes _ _) fun _ _ => .take (popArgs_takes _) fun args _ => ?_
  exact .take (popAnyReceiver_takes signature) fun receiver _ => giveResult_exchanges _ _

theorem newObject_exchanges (token : Token) :
    Exchanges (((Operation.newObject token).callee? site.world).getD {}).params.length 1
      (site.newObject token) s := by
  refine .check (fun _ => rfl) fun constructor hmethod => ?_
  simp only [Operation.callee?, methodAt_eq_ok hmethod, Option.map_some, Option.getD_some]
  rw [← Nat.zero_add constructor.signature.params.length]
  refine .after fun _ => .after fun _ => .take (popArgs_takes _) fun args _ => ?_
  exact .after fun result => pushing_exchanges _ _

theorem loadFunction_exchanges (token : Token) : Exchanges 0 1 (site.loadFunction token) s :=
  .after fun _ => pushing_exchanges _ _

theorem loadVirtualFunction_exchanges (token : Token) :
    Exchanges 1 1 (site.loadVirtualFunction token) s :=
  .after fun _ => .after fun _ => .take (popKind_takes _ _) fun _ _ => .after fun _ =>
    pushing_exchanges _ _

/-! ### Memory -/

theorem loadIndirect_exchanges (access : Access) : Exchanges 1 1 (site.loadIndirect access) s :=
  .take pop_takes fun _ _ => .after fun _ => .after fun _ => pushing_exchanges _ _

theorem storeIndirect_exchanges (access : Access) :
    Exchanges 2 0 (site.storeIndirect access) s :=
  .take pop_takes fun _ _ => .take pop_takes fun _ _ => .after fun _ => .after fun _ => .ok _ _

theorem loadObject_exchanges (token : Token) : Exchanges 1 1 (site.loadObject token) s :=
  .after fun _ => .take pop_takes fun _ _ => .after fun _ => .after fun _ => pushing_exchanges _ _

theorem storeObject_exchanges (token : Token) : Exchanges 2 0 (site.storeObject token) s :=
  .after fun _ => .take (popInto_takes _ _) fun _ _ => .take pop_takes fun _ _ => .after fun _ =>
    .ok _ _

theorem copyObject_exchanges (token : Token) : Exchanges 2 0 (site.copyObject token) s :=
  .after fun _ => .take pop_takes fun _ _ => .take pop_takes fun _ _ => .after fun _ => .ok _ _

theorem initObject_exchanges (token : Token) : Exchanges 1 0 (site.initObject token) s :=
  .after fun _ => .take pop_takes fun _ _ => .after fun _ => .ok _ _

theorem sizeOf_exchanges (token : Token) : Exchanges 0 1 (site.sizeOf token) s :=
  .after fun _ => pushing_exchanges _ _

theorem localAlloc_exchanges : Exchanges 1 1 site.localAlloc s :=
  .after fun _ => .take (popKind_takes _ _) fun _ _ => .check (fun _ => rfl) fun _ _ =>
    pushing_exchanges _ _

theorem copyBlock_exchanges : Exchanges 3 0 site.copyBlock s :=
  .after fun _ => .take (popKind_takes _ _) fun _ _ => .take (popKind_takes _ _) fun _ _ =>
    .take (popKind_takes _ _) fun _ _ => .ok _ _

theorem initBlock_exchanges : Exchanges 3 0 site.initBlock s :=
  .after fun _ => .take (popKind_takes _ _) fun _ _ => .take (popKind_takes _ _) fun _ _ =>
    .take (popKind_takes _ _) fun _ _ => .ok _ _

theorem loadField_exchanges (token : Token) : Exchanges 1 1 (site.loadField token) s :=
  .after fun _ => .take pop_takes fun _ _ => .after fun _ => .after fun _ => pushing_exchanges _ _

theorem loadFieldAddress_exchanges (token : Token) :
    Exchanges 1 1 (site.loadFieldAddress token) s :=
  .after fun _ => .take pop_takes fun _ _ => .after fun _ => pushing_exchanges _ _

theorem storeField_exchanges (token : Token) : Exchanges 2 0 (site.storeField token) s :=
  .after fun _ => .take (popInto_takes _ _) fun _ _ => .take pop_takes fun _ _ => .after fun _ =>
    .ok _ _

theorem loadStatic_exchanges (token : Token) : Exchanges 0 1 (site.loadStatic token) s :=
  .after fun _ => .after fun _ => pushing_exchanges _ _

theorem loadStaticAddress_exchanges (token : Token) :
    Exchanges 0 1 (site.loadStaticAddress token) s :=
  .after fun _ => pushing_exchanges _ _

theorem storeStatic_exchanges (token : Token) : Exchanges 1 0 (site.storeStatic token) s :=
  .after fun _ => .take (popInto_takes _ _) fun _ _ => .ok _ _

/-! ### Objects -/

theorem cast_exchanges (token : Token) (directive : Ty → Directive) :
    Exchanges 1 1 (fun s => site.cast token s directive) s :=
  .after fun _ => .after fun _ => .take (popKind_takes _ _) fun _ _ => pushing_exchanges _ _

theorem box_exchanges (token : Token) : Exchanges 1 1 (site.box token) s :=
  .after fun _ => .after fun _ => .take (popInto_takes _ _) fun _ _ => pushing_exchanges _ _

theorem unbox_exchanges (token : Token) : Exchanges 1 1 (site.unbox token) s :=
  .after fun _ => .after fun _ => .take (popKind_takes _ _) fun _ _ => pushing_exchanges _ _

theorem unboxAny_exchanges (token : Token) : Exchanges 1 1 (site.unboxAny token) s :=
  .after fun _ => .after fun _ => .take (popKind_takes _ _) fun _ _ => pushing_exchanges _ _

theorem newArray_exchanges (token : Token) : Exchanges 1 1 (site.newArray token) s :=
  .after fun _ => .after fun _ => .take (popKind_takes _ _) fun _ _ => pushing_exchanges _ _

theorem arrayLength_exchanges : Exchanges 1 1 arrayLength s :=
  .take popArray_takes fun _ _ => pushing_exchanges _ _

theorem loadElement_exchanges (element : Element) :
    Exchanges 2 1 (site.loadElement element) s :=
  .after fun _ => .drop popIndex_drops fun _ => .take popArray_takes fun _ _ => .after fun _ =>
    .after fun _ => pushing_exchanges _ _

theorem loadElementAddress_exchanges (token : Token) :
    Exchanges 2 1 (site.loadElementAddress token) s :=
  .after fun _ => .drop popIndex_drops fun _ => .take popArray_takes fun _ _ => .after fun _ =>
    pushing_exchanges _ _

theorem storeElement_exchanges (element : Element) :
    Exchanges 3 0 (site.storeElement element) s :=
  .after fun _ => .take pop_takes fun _ _ => .drop popIndex_drops fun _ =>
    .take popArray_takes fun _ _ => .after fun _ => .after fun _ => .ok _ _

theorem makeTypedRef_exchanges (token : Token) : Exchanges 1 1 (site.makeTypedRef token) s :=
  .after fun _ => .take (popKind_takes _ _) fun _ _ => .after fun _ => pushing_exchanges _ _

theorem typedRefValue_exchanges (token : Token) : Exchanges 1 1 (site.typedRefValue token) s :=
  .after fun _ => .drop popTypedRef_drops fun _ => pushing_exchanges _ _

theorem typedRefType_exchanges : Exchanges 1 1 typedRefType s :=
  .drop popTypedRef_drops fun _ => pushing_exchanges _ _

/-! ## All operations -/

/-- The transfers out of a block or of the method leave an empty stack. -/
theorem perform_ends {operation : Operation} (h : operation.empties = true) :
    Ends (site.perform operation) s := by
  cases operation with
  | leave target => exact leave_ends target
  | endFinally => exact endFinally_ends
  | endFilter => exact endFilter_ends
  | throw => exact throw_ends
  | rethrow => exact rethrow_ends
  | ret => exact ret_ends
  | jump token => exact jump_ends token
  | _ => cases h

/-- Every operation that is accepted keeps to its counts, those of a call being the counts of the
signature that its token stands for. -/
theorem perform_exchanges (operation : Operation) :
    Exchanges (operation.pops ((operation.callee? site.world).getD {}) s.height)
      (operation.pushes ((operation.callee? site.world).getD {})) (site.perform operation) s := by
  cases operation with
  | nop => exact .ok _ _
  | breakpoint => exact .ok _ _
  | loadArg index => exact loadArg_exchanges index
  | loadArgAddress index => exact loadArgAddress_exchanges index
  | storeArg index => exact storeArg_exchanges index
  | loadLocal index => exact loadLocal_exchanges index
  | loadLocalAddress index => exact loadLocalAddress_exchanges index
  | storeLocal index => exact storeLocal_exchanges index
  | argList => exact argList_exchanges
  | loadNull => exact pushing_exchanges _ _
  | loadInt32 value => exact pushing_exchanges _ _
  | loadInt64 value => exact pushing_exchanges _ _
  | loadFloat32 bits => exact pushing_exchanges _ _
  | loadFloat64 bits => exact pushing_exchanges _ _
  | loadString token => exact loadString_exchanges token
  | loadToken token => exact loadToken_exchanges token
  | dup => exact dup_exchanges
  | pop => exact pop_exchanges
  | binary op => exact binary_exchanges op
  | shift op => exact shift_exchanges op
  | unary op => exact unary_exchanges op
  | convert conversion => exact convert_exchanges conversion
  | checkFinite => exact checkFinite_exchanges
  | compare op => exact compare_exchanges op
  | branch target => exact branch_exchanges target
  | branchIf condition target => exact branchIf_exchanges condition target
  | branchCompare op target => exact branchCompare_exchanges op target
  | switch targets => exact switch_exchanges targets
  | leave target => exact (leave_ends target).exchanges
  | endFinally => exact endFinally_ends.exchanges
  | endFilter => exact endFilter_exchanges
  | throw => exact throw_ends.exchanges
  | rethrow => exact rethrow_ends.exchanges
  | ret => exact ret_ends.exchanges
  | jump token => exact jump_exchanges token
  | call isVirtual token => exact call_exchanges isVirtual token
  | callIndirect token => exact callIndirect_exchanges token
  | newObject token => exact newObject_exchanges token
  | loadFunction token => exact loadFunction_exchanges token
  | loadVirtualFunction token => exact loadVirtualFunction_exchanges token
  | loadIndirect access => exact loadIndirect_exchanges access
  | storeIndirect access => exact storeIndirect_exchanges access
  | loadObject token => exact loadObject_exchanges token
  | storeObject token => exact storeObject_exchanges token
  | copyObject token => exact copyObject_exchanges token
  | initObject token => exact initObject_exchanges token
  | sizeOf token => exact sizeOf_exchanges token
  | localAlloc => exact localAlloc_exchanges
  | copyBlock => exact copyBlock_exchanges
  | initBlock => exact initBlock_exchanges
  | loadField token => exact loadField_exchanges token
  | loadFieldAddress token => exact loadFieldAddress_exchanges token
  | storeField token => exact storeField_exchanges token
  | loadStatic token => exact loadStatic_exchanges token
  | loadStaticAddress token => exact loadStaticAddress_exchanges token
  | storeStatic token => exact storeStatic_exchanges token
  | castClass token => exact cast_exchanges token .castClass
  | isInstance token => exact cast_exchanges token .isInstance
  | box token => exact box_exchanges token
  | unbox token => exact unbox_exchanges token
  | unboxAny token => exact unboxAny_exchanges token
  | newArray token => exact newArray_exchanges token
  | arrayLength => exact arrayLength_exchanges
  | loadElement element => exact loadElement_exchanges element
  | loadElementAddress token => exact loadElementAddress_exchanges token
  | storeElement element => exact storeElement_exchanges element
  | makeTypedRef token => exact makeTypedRef_exchanges token
  | typedRefValue token => exact typedRefValue_exchanges token
  | typedRefType => exact typedRefType_exchanges
  | modify modifier => exact .error
  | remark => exact .error

end Site

end ManagedCode
