import ManagedCode.Effect
import ManagedCode.Proofs.Checks

set_option autoImplicit false

/-! # What operations leave behind

An operation takes slots off the stack and pushes slots that it makes itself: numbers, slots for
values of a type, references and pointers. So a property of slots that holds of all these
(`MadeSlots`) holds of the whole stack after an operation if it held before. The stack stays within
its bound, and the operation leads to the offsets it names and nowhere else: `Site.perform_holds`.
-/

namespace ManagedCode

/-- `P` holds of every slot that an operation makes. -/
structure MadeSlots (u : Universe) (P : Slot → Prop) : Prop where
  numeric : ∀ kind : StackKind, kind.isNumeric = true → P (.numeric kind)
  ofType : ∀ ty slot, u.slot? ty = some slot → P slot
  object : ∀ ty : Ty, ty.isReference = true → P (.object ty)
  managed : ∀ pointee, P (.managed pointee)
  transient : ∀ pointee, P (.transient pointee)
  typedRef : P (.value (.primitive .typedRef))
  handle : ∀ c ∈ [WellKnown.typeHandle, .fieldHandle, .methodHandle, .argumentHandle],
    P (.value (.value c.id))

/-- Any slot may be made. -/
theorem madeSlots_true (u : Universe) : MadeSlots u fun _ => True := by
  constructor <;> intros <;> trivial

/-- The stack is within `bound`, and `P` holds of its slots. -/
structure Stack.Holds (P : Slot → Prop) (bound : Nat) (s : Stack) : Prop where
  bound_eq : s.bound = bound
  height_le : s.height ≤ bound
  all : ∀ slot ∈ s.slots, P slot

/-- The offsets that an operation names, in order. -/
def Operation.targets : Operation → List Int
  | .branch target | .branchIf _ target | .branchCompare _ target | .leave target => [target]
  | .switch targets => targets
  | _ => []

/-- What an operation leaves behind is such a stack, and it leads to the given targets. -/
structure Effect.Holds (P : Slot → Prop) (bound : Nat) (targets : List Int) (effect : Effect) :
    Prop where
  stack : effect.stack.Holds P bound
  targets_eq : effect.targets.map Int.ofNat = targets

variable {P : Slot → Prop} {bound : Nat}

theorem known_gives {α : Type} {Q : α → Prop} {value : Option α} {subject : Subject}
    (h : ∀ a, value = some a → Q a) : Gives (known value subject) Q := by
  cases value with
  | none => exact .error
  | some a => exact .ok (h a rfl)

/-! ## Moves of the stack -/

theorem Stack.slots_of_load {s s' : Stack} {slots : Slots} (h : s.load slots = .ok s') :
    s'.slots = slots := by
  unfold Stack.load at h
  split at h
  · cases h
    rfl
  · cases h

namespace Stack.Holds

variable {s : Stack} (hs : s.Holds P bound)
include hs

theorem load {slots : Slots} (h : ∀ slot ∈ slots, P slot) :
    Gives (s.load slots) (Holds P bound) := by
  unfold Stack.load
  split
  · rename_i hle
    exact .ok ⟨hs.bound_eq, hs.bound_eq ▸ hle, h⟩
  · exact .error

theorem push {slot : Slot} (h : P slot) : Gives (s.push slot) (Holds P bound) :=
  hs.load (List.forall_mem_cons.mpr ⟨h, hs.all⟩)

/-- Fewer slots of the same stack. -/
theorem of_suffix {slots : Slots} (h : slots <:+ s.slots) :
    Holds P bound { s with slots := slots } :=
  ⟨hs.bound_eq, Nat.le_trans h.length_le hs.height_le,
    fun slot hslot => hs.all slot (h.mem hslot)⟩

theorem clear : Holds P bound s.clear := hs.of_suffix (List.nil_suffix)

theorem pop : Gives s.pop fun r => P r.1 ∧ r.2.Holds P bound := by
  unfold Stack.pop
  cases hslots : s.slots with
  | nil => exact .error
  | cons slot rest =>
      have hsuffix : rest <:+ s.slots := hslots ▸ List.suffix_cons slot rest
      exact .ok ⟨hs.all slot (hslots ▸ List.mem_cons_self), hs.of_suffix hsuffix⟩

theorem popMany (n : Nat) : Gives (s.popMany n) fun r => r.2.Holds P bound := by
  unfold Stack.popMany
  split
  · exact .ok (hs.of_suffix (List.drop_suffix n s.slots))
  · exact .error

theorem peek (depth : Nat) : Gives (s.peek depth) P := by
  unfold Stack.peek
  cases hslot : s.slots[depth]? with
  | none => exact .error
  | some slot => exact .ok (hs.all slot (List.mem_of_getElem? hslot))

theorem popKind (accepted : List StackKind) (subject : Subject) :
    Gives (s.popKind accepted subject) fun r => P r.1 ∧ r.2.Holds P bound := by
  refine .bind hs.pop ?_
  rintro ⟨slot, s⟩ h
  exact .skip fun _ => .ok h

end Stack.Holds

namespace Site

variable {site : Site} {s : Stack}

/-! ## Operands -/

theorem popInto_holds (hs : s.Holds P bound) (ty : Ty) (subject : Subject) :
    Gives (site.popInto s ty subject) fun r => P r.1 ∧ r.2.Holds P bound := by
  refine .bind hs.pop ?_
  rintro ⟨slot, s⟩ h
  exact .skip fun _ => .ok h

theorem popArgs_holds (hs : s.Holds P bound) (params : List Ty) :
    Gives (site.popArgs s params) fun r => r.2.Holds P bound := by
  refine .bind (hs.popMany params.length) ?_
  rintro ⟨args, s⟩ h
  exact .skip fun _ => .ok h

theorem popReceiver_holds (hs : s.Holds P bound) (method : Method) :
    Gives (site.popReceiver method s) fun r => r.2.Holds P bound := by
  unfold popReceiver
  split
  · refine .bind hs.pop ?_
    rintro ⟨receiver, s⟩ h
    exact .skip fun _ => .ok h.2
  · exact .ok hs

theorem popAnyReceiver_holds (hs : s.Holds P bound) (signature : Signature) :
    Gives (popAnyReceiver signature s) fun r => r.2.Holds P bound := by
  unfold popAnyReceiver
  split
  · refine .bind (hs.popKind _ _) ?_
    rintro ⟨receiver, s⟩ h
    exact .ok h.2
  · exact .ok hs

theorem popResult_holds (hs : s.Holds P bound) :
    Gives (site.popResult s) fun r => r.2.Holds P bound := by
  unfold popResult
  split
  · refine .bind (popInto_holds hs _ _) ?_
    rintro ⟨slot, s⟩ h
    exact .ok h.2
  · exact .ok hs

theorem popCompared_holds (hs : s.Holds P bound) (op : CompareOp) :
    Gives (site.popCompared op s) fun r => r.2.Holds P bound := by
  refine .bind hs.pop ?_
  rintro ⟨right, s⟩ ⟨_, hs⟩
  refine .bind hs.pop ?_
  rintro ⟨left, s⟩ ⟨_, hs⟩
  exact .skip fun _ => .ok hs

theorem popArray_holds (hs : s.Holds P bound) :
    Gives (popArray s) fun r => r.2.Holds P bound := by
  refine .bind (hs.popKind _ _) ?_
  rintro ⟨slot, s⟩ ⟨_, hs⟩
  simp only
  split
  · exact .ok hs
  · exact .ok hs
  · exact .error

theorem popIndex_holds (hs : s.Holds P bound) : Gives (popIndex s) (Stack.Holds P bound) := by
  refine .bind (hs.popKind _ _) ?_
  rintro ⟨_, s⟩ ⟨_, hs⟩
  exact .ok hs

theorem popTypedRef_holds (hs : s.Holds P bound) :
    Gives (popTypedRef s) (Stack.Holds P bound) := by
  refine .bind (hs.popKind _ _) ?_
  rintro ⟨slot, s⟩ ⟨_, hs⟩
  exact .skip fun _ => .ok hs

theorem targetAt_eq (target : Int) :
    Gives (site.targetAt target) fun offset => Int.ofNat offset = target := by
  unfold targetAt
  split
  · rename_i h
    exact .ok (Int.toNat_of_nonneg h.1)
  · exact .error

theorem mapM_targetAt_eq (targets : List Int) :
    Gives (targets.mapM site.targetAt) fun offsets => offsets.map Int.ofNat = targets := by
  induction targets with
  | nil => exact .ok rfl
  | cons target targets ih =>
      rw [List.mapM_cons]
      refine .bind (targetAt_eq target) fun offset hoffset => .bind ih fun offsets hoffsets => ?_
      exact .ok (by rw [List.map_cons, hoffset, hoffsets])

theorem pushing_holds (hs : s.Holds P bound) {slot : Slot} (h : P slot) (directive : Directive) :
    Gives (pushing s slot directive) (Effect.Holds P bound []) :=
  .bind (hs.push h) fun _ hs => .ok ⟨hs, rfl⟩

theorem pushResult_holds (hs : s.Holds P bound) {result : Option Slot}
    (h : ∀ slot, result = some slot → P slot) :
    Gives (site.pushResult s result) (Stack.Holds P bound) := by
  refine .skip fun _ => ?_
  cases result with
  | none => exact .ok hs
  | some slot => exact hs.push (h slot rfl)

/-! ## Operations that make no slots

Nothing is asked of `P` here. -/

/-- Takes a value off that fits a type, and is done. -/
theorem popInto_leaving_holds (hs : s.Holds P bound) (ty : Ty) (subject : Subject)
    (directive : Slot → Directive) :
    Gives (do
      let (slot, s) ← site.popInto s ty subject
      return (⟨s, directive slot, []⟩ : Effect)) (Effect.Holds P bound []) := by
  refine .bind (popInto_holds hs ty subject) ?_
  rintro ⟨_, s⟩ ⟨_, hs⟩
  exact .ok ⟨hs, rfl⟩

theorem storeArg_holds (hs : s.Holds P bound) (index : Nat) :
    Gives (site.storeArg index s) (Effect.Holds P bound []) :=
  .skip fun ty => popInto_leaving_holds hs ty _ _

theorem storeLocal_holds (hs : s.Holds P bound) (index : Nat) :
    Gives (site.storeLocal index s) (Effect.Holds P bound []) :=
  .skip fun ty => popInto_leaving_holds hs ty _ _

theorem dup_holds (hs : s.Holds P bound) : Gives (dup s) (Effect.Holds P bound []) :=
  .bind (hs.peek 0) fun _ hslot => pushing_holds hs hslot _

theorem pop_holds (hs : s.Holds P bound) : Gives (pop s) (Effect.Holds P bound []) := by
  refine .bind hs.pop ?_
  rintro ⟨_, s⟩ ⟨_, hs⟩
  exact .ok ⟨hs, rfl⟩

theorem branch_holds (hs : s.Holds P bound) (target : Int) :
    Gives (site.branch target s) (Effect.Holds P bound [target]) :=
  .bind (targetAt_eq target) fun _ htarget => .ok ⟨hs, congrArg (fun t => [t]) htarget⟩

theorem branchIf_holds (hs : s.Holds P bound) (condition : Bool) (target : Int) :
    Gives (site.branchIf condition target s) (Effect.Holds P bound [target]) := by
  refine .bind (targetAt_eq target) fun _ htarget => .bind hs.pop ?_
  rintro ⟨_, s⟩ ⟨_, hs⟩
  exact .skip fun _ => .ok ⟨hs, congrArg (fun t => [t]) htarget⟩

theorem branchCompare_holds (hs : s.Holds P bound) (op : CompareOp) (target : Int) :
    Gives (site.branchCompare op target s) (Effect.Holds P bound [target]) := by
  refine .bind (targetAt_eq target) fun _ htarget => .bind (popCompared_holds hs op) ?_
  rintro ⟨_, s⟩ hs
  exact .ok ⟨hs, congrArg (fun t => [t]) htarget⟩

theorem switch_holds (hs : s.Holds P bound) (targets : List Int) :
    Gives (site.switch targets s) (Effect.Holds P bound targets) := by
  refine .bind (mapM_targetAt_eq targets) fun _ htargets => .bind (hs.popKind _ _) ?_
  rintro ⟨_, s⟩ ⟨_, hs⟩
  exact .ok ⟨hs, htargets⟩

theorem leave_holds (hs : s.Holds P bound) (target : Int) :
    Gives (site.leave target s) (Effect.Holds P bound [target]) :=
  .bind (targetAt_eq target) fun _ htarget =>
    .skip fun _ => .ok ⟨hs.clear, congrArg (fun t => [t]) htarget⟩

theorem endFinally_holds (hs : s.Holds P bound) :
    Gives (site.endFinally s) (Effect.Holds P bound []) := .skip fun _ => .ok ⟨hs.clear, rfl⟩

theorem endFilter_holds (hs : s.Holds P bound) :
    Gives (site.endFilter s) (Effect.Holds P bound []) := by
  refine .skip fun _ => .bind (hs.popKind _ _) ?_
  rintro ⟨_, s⟩ ⟨_, hs⟩
  exact .skip fun _ => .ok ⟨hs, rfl⟩

theorem throw_holds (hs : s.Holds P bound) : Gives (throw s) (Effect.Holds P bound []) := by
  refine .bind (hs.popKind _ _) ?_
  rintro ⟨_, s⟩ ⟨_, hs⟩
  exact .ok ⟨hs.clear, rfl⟩

theorem rethrow_holds (hs : s.Holds P bound) :
    Gives (site.rethrow s) (Effect.Holds P bound []) := .skip fun _ => .ok ⟨hs.clear, rfl⟩

theorem ret_holds (hs : s.Holds P bound) : Gives (site.ret s) (Effect.Holds P bound []) := by
  refine .skip fun _ => .bind (popResult_holds hs) ?_
  rintro ⟨_, s⟩ hs
  exact .skip fun _ => .ok ⟨hs, rfl⟩

theorem jump_holds (hs : s.Holds P bound) (token : Token) :
    Gives (site.jump token s) (Effect.Holds P bound []) :=
  .skip fun _ => .skip fun _ => .skip fun _ => .skip fun _ => .ok ⟨hs, rfl⟩

theorem storeIndirect_holds (hs : s.Holds P bound) (access : Access) :
    Gives (site.storeIndirect access s) (Effect.Holds P bound []) := by
  refine .bind hs.pop ?_
  rintro ⟨_, s⟩ ⟨_, hs⟩
  refine .bind hs.pop ?_
  rintro ⟨_, s⟩ ⟨_, hs⟩
  exact .skip fun _ => .skip fun _ => .ok ⟨hs, rfl⟩

theorem storeObject_holds (hs : s.Holds P bound) (token : Token) :
    Gives (site.storeObject token s) (Effect.Holds P bound []) := by
  refine .skip fun ty => .bind (popInto_holds hs ty _) ?_
  rintro ⟨_, s⟩ ⟨_, hs⟩
  refine .bind hs.pop ?_
  rintro ⟨_, s⟩ ⟨_, hs⟩
  exact .skip fun _ => .ok ⟨hs, rfl⟩

theorem copyObject_holds (hs : s.Holds P bound) (token : Token) :
    Gives (site.copyObject token s) (Effect.Holds P bound []) := by
  refine .skip fun _ => .bind hs.pop ?_
  rintro ⟨_, s⟩ ⟨_, hs⟩
  refine .bind hs.pop ?_
  rintro ⟨_, s⟩ ⟨_, hs⟩
  exact .skip fun _ => .ok ⟨hs, rfl⟩

theorem initObject_holds (hs : s.Holds P bound) (token : Token) :
    Gives (site.initObject token s) (Effect.Holds P bound []) := by
  refine .skip fun _ => .bind hs.pop ?_
  rintro ⟨_, s⟩ ⟨_, hs⟩
  exact .skip fun _ => .ok ⟨hs, rfl⟩

/-- Three operands of given kinds are taken off. -/
theorem popKinds_holds (hs : s.Holds P bound) (first second third : List StackKind)
    (a b c : Subject) (directive : Directive) :
    Gives (do
      let (_, s) ← s.popKind first a
      let (_, s) ← s.popKind second b
      let (_, s) ← s.popKind third c
      return (⟨s, directive, []⟩ : Effect)) (Effect.Holds P bound []) := by
  refine .bind (hs.popKind _ _) ?_
  rintro ⟨_, s⟩ ⟨_, hs⟩
  refine .bind (hs.popKind _ _) ?_
  rintro ⟨_, s⟩ ⟨_, hs⟩
  refine .bind (hs.popKind _ _) ?_
  rintro ⟨_, s⟩ ⟨_, hs⟩
  exact .ok ⟨hs, rfl⟩

theorem copyBlock_holds (hs : s.Holds P bound) :
    Gives (site.copyBlock s) (Effect.Holds P bound []) :=
  .skip fun _ => popKinds_holds hs _ _ _ _ _ _ _

theorem initBlock_holds (hs : s.Holds P bound) :
    Gives (site.initBlock s) (Effect.Holds P bound []) :=
  .skip fun _ => popKinds_holds hs _ _ _ _ _ _ _

theorem storeField_holds (hs : s.Holds P bound) (token : Token) :
    Gives (site.storeField token s) (Effect.Holds P bound []) := by
  refine .skip fun field => .bind (popInto_holds hs field.ty _) ?_
  rintro ⟨_, s⟩ ⟨_, hs⟩
  refine .bind hs.pop ?_
  rintro ⟨_, s⟩ ⟨_, hs⟩
  exact .skip fun _ => .ok ⟨hs, rfl⟩

theorem storeStatic_holds (hs : s.Holds P bound) (token : Token) :
    Gives (site.storeStatic token s) (Effect.Holds P bound []) :=
  .skip fun field => popInto_leaving_holds hs field.ty _ _

theorem storeElement_holds (hs : s.Holds P bound) (element : Element) :
    Gives (site.storeElement element s) (Effect.Holds P bound []) := by
  refine .skip fun _ => .bind hs.pop ?_
  rintro ⟨_, s⟩ ⟨_, hs⟩
  refine .bind (popIndex_holds hs) fun s hs => .bind (popArray_holds hs) ?_
  rintro ⟨_, s⟩ hs
  exact .skip fun _ => .skip fun _ => .ok ⟨hs, rfl⟩

/-! ## Operations that make slots -/

variable (hP : MadeSlots site.world P)
include hP

theorem slotOf_made (ty : Ty) (subject : Subject) : Gives (site.slotOf ty subject) P :=
  known_gives fun slot h => hP.ofType ty slot h

/-- Pushes a slot for a value of a type. -/
theorem slotOf_pushing_holds (hs : s.Holds P bound) (ty : Ty) (subject : Subject)
    (directive : Slot → Directive) :
    Gives (site.slotOf ty subject >>= fun slot => pushing s slot (directive slot))
      (Effect.Holds P bound []) :=
  .bind (slotOf_made hP ty subject) fun _ hslot => pushing_holds hs hslot _

theorem resultOf_made (signature : Signature) :
    Gives (site.resultOf signature) fun result => ∀ slot, result = some slot → P slot := by
  unfold resultOf
  split
  · rename_i ty _
    intro result h
    cases hslot : site.slotOf ty .result with
    | error fault =>
        rw [hslot] at h
        cases h
    | ok slot =>
        rw [hslot] at h
        cases h
        intro slot' heq
        cases heq
        exact slotOf_made hP ty _ slot hslot
  · exact .ok fun slot h => nomatch h

omit hP in
/-- Takes a slot of a given kind off and pushes another. -/
theorem popKind_pushing_holds (hs : s.Holds P bound) (accepted : List StackKind)
    (subject : Subject) {slot : Slot} (h : P slot) (directive : Directive) :
    Gives (do
      let (_, s) ← s.popKind accepted subject
      pushing s slot directive) (Effect.Holds P bound []) := by
  refine .bind (hs.popKind _ _) ?_
  rintro ⟨_, s⟩ ⟨_, hs⟩
  exact pushing_holds hs h directive

theorem loadArg_holds (hs : s.Holds P bound) (index : Nat) :
    Gives (site.loadArg index s) (Effect.Holds P bound []) :=
  .skip fun _ => slotOf_pushing_holds hP hs _ _ _

theorem loadArgAddress_holds (hs : s.Holds P bound) (index : Nat) :
    Gives (site.loadArgAddress index s) (Effect.Holds P bound []) :=
  .skip fun ty => .skip fun _ => pushing_holds hs (hP.managed ty) _

theorem loadLocal_holds (hs : s.Holds P bound) (index : Nat) :
    Gives (site.loadLocal index s) (Effect.Holds P bound []) :=
  .skip fun _ => .skip fun _ => slotOf_pushing_holds hP hs _ _ _

theorem loadLocalAddress_holds (hs : s.Holds P bound) (index : Nat) :
    Gives (site.loadLocalAddress index s) (Effect.Holds P bound []) :=
  .skip fun ty => .skip fun _ => pushing_holds hs (hP.managed ty) _

theorem argList_holds (hs : s.Holds P bound) :
    Gives (site.argList s) (Effect.Holds P bound []) :=
  .skip fun _ => pushing_holds hs (hP.handle _ (by decide)) _

theorem loadString_holds (hs : s.Holds P bound) (token : Token) :
    Gives (site.loadString token s) (Effect.Holds P bound []) :=
  .skip fun _ => pushing_holds hs (hP.object _ rfl) _

theorem loadToken_holds (hs : s.Holds P bound) (token : Token) :
    Gives (site.loadToken token s) (Effect.Holds P bound []) := by
  refine .skip fun entity => .skip fun _ => pushing_holds hs (hP.handle _ ?_) _
  cases entity with
  | type _ | field _ | method _ => simp [handleClass]

end Site

/-- An operator that is not about pointers makes a number. -/
theorem OperatorTable.isNumeric_lookup {table : OperatorTable} (htable : table ≠ .pointer)
    {left right : StackKind} (h : table.lookup left right ≠ .invalid) :
    (table.lookup left right).isNumeric = true := by
  cases table with
  | pointer => exact absurd rfl htable
  | numeric | integer | shift | ordered | equality =>
      revert h
      cases left <;> cases right <;> decide

/-- What an arithmetic operator makes is a pointer only if an operand is one of that kind. -/
theorem OperatorTable.arithmetic_cases {table : OperatorTable} (htable : table ≠ .pointer)
    {left right : StackKind} {pointers : Bool}
    (h : table.arithmetic left right pointers ≠ .invalid) :
    (table.arithmetic left right pointers).isNumeric = true ∨
      (table.arithmetic left right pointers).isPointer = true := by
  unfold arithmetic at h ⊢
  split
  · rename_i hlookup
    simp only [hlookup] at h
    cases pointers with
    | false => exact absurd rfl h
    | true =>
        revert h
        cases left <;> cases right <;> decide
  · exact .inl (isNumeric_lookup htable (by assumption))

namespace Site

variable {site : Site} {s : Stack} (hP : MadeSlots site.world P)
include hP

theorem binary_holds (hs : s.Holds P bound) (op : BinaryOp) :
    Gives (site.binary op s) (Effect.Holds P bound []) := by
  have htable : op.table ≠ .pointer := by cases op <;> decide
  refine .bind hs.pop ?_
  rintro ⟨right, s⟩ ⟨hright, hs⟩
  refine .bind hs.pop ?_
  rintro ⟨left, s⟩ ⟨hleft, hs⟩
  refine .bind .require fun _ hvalid => pushing_holds hs ?_ _
  split
  · split
    · exact hleft
    · exact hright
  · rename_i hpointer
    rcases OperatorTable.arithmetic_cases htable (of_decide_eq_true hvalid) with h | h
    · exact hP.numeric _ h
    · exact absurd h hpointer

theorem shift_holds (hs : s.Holds P bound) (op : ShiftOp) :
    Gives (shift op s) (Effect.Holds P bound []) := by
  refine .bind hs.pop ?_
  rintro ⟨_, s⟩ ⟨_, hs⟩
  refine .bind hs.pop ?_
  rintro ⟨_, s⟩ ⟨_, hs⟩
  refine .bind .require fun _ hvalid => pushing_holds hs (hP.numeric _ ?_) _
  exact OperatorTable.isNumeric_lookup (by decide) (of_decide_eq_true hvalid)

theorem unary_holds (hs : s.Holds P bound) (op : UnaryOp) :
    Gives (unary op s) (Effect.Holds P bound []) := by
  have htable : op.table ≠ .pointer := by cases op <;> decide
  refine .bind hs.pop ?_
  rintro ⟨_, s⟩ ⟨_, hs⟩
  refine .bind .require fun _ hvalid => pushing_holds hs (hP.numeric _ ?_) _
  exact OperatorTable.isNumeric_lookup htable (of_decide_eq_true hvalid)

omit hP in
theorem convert_holds (hs : s.Holds P bound) (conversion : Conversion)
    (h : P (.numeric conversion.target.kind)) :
    Gives (site.convert conversion s) (Effect.Holds P bound []) := by
  refine .bind hs.pop ?_
  rintro ⟨_, s⟩ ⟨_, hs⟩
  exact .skip fun _ => pushing_holds hs h _

theorem checkFinite_holds (hs : s.Holds P bound) :
    Gives (checkFinite s) (Effect.Holds P bound []) :=
  popKind_pushing_holds hs _ _ (hP.numeric .float rfl) _

theorem compare_holds (hs : s.Holds P bound) (op : CompareOp) :
    Gives (site.compare op s) (Effect.Holds P bound []) := by
  refine .bind (popCompared_holds hs op) ?_
  rintro ⟨_, s⟩ hs
  exact pushing_holds hs (hP.numeric .int32 rfl) _

theorem call_holds (hs : s.Holds P bound) (isVirtual : Bool) (token : Token) :
    Gives (site.call isVirtual token s) (Effect.Holds P bound []) := by
  refine .skip fun method => .skip fun _ => .bind (popArgs_holds hs method.signature.params) ?_
  rintro ⟨_, s⟩ hs
  refine .bind (popReceiver_holds hs method) ?_
  rintro ⟨_, s⟩ hs
  refine .bind (resultOf_made hP method.signature) fun _ hresult => ?_
  exact .bind (pushResult_holds hs hresult) fun _ hs => .ok ⟨hs, rfl⟩

theorem callIndirect_holds (hs : s.Holds P bound) (token : Token) :
    Gives (site.callIndirect token s) (Effect.Holds P bound []) := by
  refine .skip fun signature => .bind (hs.popKind _ _) ?_
  rintro ⟨_, s⟩ ⟨_, hs⟩
  refine .bind (popArgs_holds hs signature.params) ?_
  rintro ⟨_, s⟩ hs
  refine .bind (popAnyReceiver_holds hs signature) ?_
  rintro ⟨_, s⟩ hs
  refine .bind (resultOf_made hP signature) fun _ hresult => ?_
  exact .bind (pushResult_holds hs hresult) fun _ hs => .ok ⟨hs, rfl⟩

theorem newObject_holds (hs : s.Holds P bound) (token : Token) :
    Gives (site.newObject token s) (Effect.Holds P bound []) := by
  refine .skip fun constructor => .skip fun _ => .skip fun _ => .bind (popArgs_holds hs _) ?_
  rintro ⟨_, s⟩ hs
  exact slotOf_pushing_holds hP hs _ _ _

theorem loadFunction_holds (hs : s.Holds P bound) (token : Token) :
    Gives (site.loadFunction token s) (Effect.Holds P bound []) :=
  .skip fun _ => pushing_holds hs (hP.numeric .nativeInt rfl) _

theorem loadVirtualFunction_holds (hs : s.Holds P bound) (token : Token) :
    Gives (site.loadVirtualFunction token s) (Effect.Holds P bound []) := by
  refine .skip fun _ => .skip fun _ => .bind (hs.popKind _ _) ?_
  rintro ⟨_, s⟩ ⟨_, hs⟩
  exact .skip fun _ => pushing_holds hs (hP.numeric .nativeInt rfl) _

theorem loadIndirect_holds (hs : s.Holds P bound) (access : Access) :
    Gives (site.loadIndirect access s) (Effect.Holds P bound []) := by
  refine .bind hs.pop ?_
  rintro ⟨_, s⟩ ⟨_, hs⟩
  exact .skip fun _ => slotOf_pushing_holds hP hs _ _ _

theorem loadObject_holds (hs : s.Holds P bound) (token : Token) :
    Gives (site.loadObject token s) (Effect.Holds P bound []) := by
  refine .skip fun _ => .bind hs.pop ?_
  rintro ⟨_, s⟩ ⟨_, hs⟩
  exact .skip fun _ => slotOf_pushing_holds hP hs _ _ _

theorem sizeOf_holds (hs : s.Holds P bound) (token : Token) :
    Gives (site.sizeOf token s) (Effect.Holds P bound []) :=
  .skip fun _ => pushing_holds hs (hP.numeric .int32 rfl) _

theorem localAlloc_holds (hs : s.Holds P bound) :
    Gives (site.localAlloc s) (Effect.Holds P bound []) := by
  refine .skip fun _ => .bind (hs.popKind _ _) ?_
  rintro ⟨_, s⟩ ⟨_, hs⟩
  exact .skip fun _ => pushing_holds hs (hP.transient _) _

theorem loadField_holds (hs : s.Holds P bound) (token : Token) :
    Gives (site.loadField token s) (Effect.Holds P bound []) := by
  refine .skip fun _ => .bind hs.pop ?_
  rintro ⟨_, s⟩ ⟨_, hs⟩
  exact .skip fun _ => slotOf_pushing_holds hP hs _ _ _

theorem loadFieldAddress_holds (hs : s.Holds P bound) (token : Token) :
    Gives (site.loadFieldAddress token s) (Effect.Holds P bound []) := by
  refine .skip fun _ => .bind hs.pop ?_
  rintro ⟨_, s⟩ ⟨_, hs⟩
  exact .skip fun _ => pushing_holds hs (hP.managed _) _

theorem loadStatic_holds (hs : s.Holds P bound) (token : Token) :
    Gives (site.loadStatic token s) (Effect.Holds P bound []) :=
  .skip fun _ => slotOf_pushing_holds hP hs _ _ _

theorem loadStaticAddress_holds (hs : s.Holds P bound) (token : Token) :
    Gives (site.loadStaticAddress token s) (Effect.Holds P bound []) :=
  .skip fun _ => pushing_holds hs (hP.managed _) _

omit hP in
/-- A box is an object. -/
theorem boxed_isReference (ty : Ty) : Gives (boxed ty) fun target => target.isReference = true := by
  unfold boxed
  cases ty with
  | ref id | array element | value id => exact .ok rfl
  | primitive p =>
      refine known_gives fun target h => ?_
      obtain ⟨id, _, rfl⟩ := Option.map_eq_some_iff.mp h
      rfl
  | byRef pointee | pointer pointee | null => exact .error

theorem cast_holds (hs : s.Holds P bound) (token : Token) (directive : Ty → Directive) :
    Gives (site.cast token s directive) (Effect.Holds P bound []) := by
  refine .skip fun ty => .bind (boxed_isReference ty) fun target htarget => ?_
  exact popKind_pushing_holds hs _ _ (hP.object target htarget) _

theorem box_holds (hs : s.Holds P bound) (token : Token) :
    Gives (site.box token s) (Effect.Holds P bound []) := by
  refine .skip fun ty => .bind (boxed_isReference ty) fun target htarget => ?_
  refine .bind (popInto_holds hs ty _) ?_
  rintro ⟨_, s⟩ ⟨_, hs⟩
  exact pushing_holds hs (hP.object target htarget) _

theorem unbox_holds (hs : s.Holds P bound) (token : Token) :
    Gives (site.unbox token s) (Effect.Holds P bound []) :=
  .skip fun _ => .skip fun _ => popKind_pushing_holds hs _ _ (hP.managed _) _

theorem unboxAny_holds (hs : s.Holds P bound) (token : Token) :
    Gives (site.unboxAny token s) (Effect.Holds P bound []) :=
  .skip fun ty => .bind (slotOf_made hP ty _) fun _ hslot => popKind_pushing_holds hs _ _ hslot _

theorem newArray_holds (hs : s.Holds P bound) (token : Token) :
    Gives (site.newArray token s) (Effect.Holds P bound []) :=
  .skip fun _ => .skip fun _ => popKind_pushing_holds hs _ _ (hP.object _ rfl) _

theorem arrayLength_holds (hs : s.Holds P bound) :
    Gives (arrayLength s) (Effect.Holds P bound []) := by
  refine .bind (popArray_holds hs) ?_
  rintro ⟨_, s⟩ hs
  exact pushing_holds hs (hP.numeric .nativeInt rfl) _

theorem loadElement_holds (hs : s.Holds P bound) (element : Element) :
    Gives (site.loadElement element s) (Effect.Holds P bound []) := by
  refine .skip fun _ => .bind (popIndex_holds hs) fun s hs => .bind (popArray_holds hs) ?_
  rintro ⟨_, s⟩ hs
  exact .skip fun _ => slotOf_pushing_holds hP hs _ _ _

theorem loadElementAddress_holds (hs : s.Holds P bound) (token : Token) :
    Gives (site.loadElementAddress token s) (Effect.Holds P bound []) := by
  refine .skip fun _ => .bind (popIndex_holds hs) fun s hs => .bind (popArray_holds hs) ?_
  rintro ⟨_, s⟩ hs
  exact .skip fun _ => pushing_holds hs (hP.managed _) _

theorem makeTypedRef_holds (hs : s.Holds P bound) (token : Token) :
    Gives (site.makeTypedRef token s) (Effect.Holds P bound []) := by
  refine .skip fun _ => .bind (hs.popKind _ _) ?_
  rintro ⟨_, s⟩ ⟨_, hs⟩
  exact .skip fun _ => pushing_holds hs hP.typedRef _

theorem typedRefValue_holds (hs : s.Holds P bound) (token : Token) :
    Gives (site.typedRefValue token s) (Effect.Holds P bound []) :=
  .skip fun _ => .bind (popTypedRef_holds hs) fun _ hs => pushing_holds hs (hP.managed _) _

theorem typedRefType_holds (hs : s.Holds P bound) :
    Gives (typedRefType s) (Effect.Holds P bound []) :=
  .bind (popTypedRef_holds hs) fun _ hs => pushing_holds hs (hP.handle _ (by decide)) _

/-! ## All operations -/

/-- **Every operation keeps a property of slots that holds of those it makes**, and keeps the stack
within its bound. What a conversion makes depends on its target, which need not be a number. -/
theorem perform_holds (hs : s.Holds P bound) (operation : Operation)
    (hconvert : ∀ conversion, operation = .convert conversion →
      P (.numeric conversion.target.kind)) :
    Gives (site.perform operation s) (Effect.Holds P bound operation.targets) := by
  have hnumber : ∀ kind : StackKind, kind.isNumeric = true → ∀ directive,
      Gives (pushing s (.numeric kind) directive) (Effect.Holds P bound []) :=
    fun kind h directive => pushing_holds hs (hP.numeric kind h) directive
  cases operation with
  | nop | breakpoint => exact .ok ⟨hs, rfl⟩
  | loadArg index => exact loadArg_holds hP hs index
  | loadArgAddress index => exact loadArgAddress_holds hP hs index
  | storeArg index => exact storeArg_holds hs index
  | loadLocal index => exact loadLocal_holds hP hs index
  | loadLocalAddress index => exact loadLocalAddress_holds hP hs index
  | storeLocal index => exact storeLocal_holds hs index
  | argList => exact argList_holds hP hs
  | loadNull => exact pushing_holds hs (hP.object .null rfl) _
  | loadInt32 value => exact hnumber .int32 rfl _
  | loadInt64 value => exact hnumber .int64 rfl _
  | loadFloat32 bits => exact hnumber .float rfl _
  | loadFloat64 bits => exact hnumber .float rfl _
  | loadString token => exact loadString_holds hP hs token
  | loadToken token => exact loadToken_holds hP hs token
  | dup => exact dup_holds hs
  | pop => exact pop_holds hs
  | binary op => exact binary_holds hP hs op
  | shift op => exact shift_holds hP hs op
  | unary op => exact unary_holds hP hs op
  | convert conversion => exact convert_holds hs conversion (hconvert conversion rfl)
  | checkFinite => exact checkFinite_holds hP hs
  | compare op => exact compare_holds hP hs op
  | branch target => exact branch_holds hs target
  | branchIf condition target => exact branchIf_holds hs condition target
  | branchCompare op target => exact branchCompare_holds hs op target
  | switch targets => exact switch_holds hs targets
  | leave target => exact leave_holds hs target
  | endFinally => exact endFinally_holds hs
  | endFilter => exact endFilter_holds hs
  | throw => exact throw_holds hs
  | rethrow => exact rethrow_holds hs
  | ret => exact ret_holds hs
  | jump token => exact jump_holds hs token
  | call isVirtual token => exact call_holds hP hs isVirtual token
  | callIndirect token => exact callIndirect_holds hP hs token
  | newObject token => exact newObject_holds hP hs token
  | loadFunction token => exact loadFunction_holds hP hs token
  | loadVirtualFunction token => exact loadVirtualFunction_holds hP hs token
  | loadIndirect access => exact loadIndirect_holds hP hs access
  | storeIndirect access => exact storeIndirect_holds hs access
  | loadObject token => exact loadObject_holds hP hs token
  | storeObject token => exact storeObject_holds hs token
  | copyObject token => exact copyObject_holds hs token
  | initObject token => exact initObject_holds hs token
  | sizeOf token => exact sizeOf_holds hP hs token
  | localAlloc => exact localAlloc_holds hP hs
  | copyBlock => exact copyBlock_holds hs
  | initBlock => exact initBlock_holds hs
  | loadField token => exact loadField_holds hP hs token
  | loadFieldAddress token => exact loadFieldAddress_holds hP hs token
  | storeField token => exact storeField_holds hs token
  | loadStatic token => exact loadStatic_holds hP hs token
  | loadStaticAddress token => exact loadStaticAddress_holds hP hs token
  | storeStatic token => exact storeStatic_holds hs token
  | castClass token | isInstance token => exact cast_holds hP hs token _
  | box token => exact box_holds hP hs token
  | unbox token => exact unbox_holds hP hs token
  | unboxAny token => exact unboxAny_holds hP hs token
  | newArray token => exact newArray_holds hP hs token
  | arrayLength => exact arrayLength_holds hP hs
  | loadElement element => exact loadElement_holds hP hs element
  | loadElementAddress token => exact loadElementAddress_holds hP hs token
  | storeElement element => exact storeElement_holds hs element
  | makeTypedRef token => exact makeTypedRef_holds hP hs token
  | typedRefValue token => exact typedRefValue_holds hP hs token
  | typedRefType => exact typedRefType_holds hP hs
  | modify _ | remark => exact .error

end Site

end ManagedCode
