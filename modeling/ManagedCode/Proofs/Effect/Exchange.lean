import ManagedCode.Effect
import ManagedCode.Proofs.Checks

set_option autoImplicit false

/-! # What operations take off the stack and put on it

An operation replaces some slots on top of the stack by others and leaves the slots below as they
are; `Stack.Exchanged taken made s t` says so with the two counts. The bound of the stack matters
only where a slot is put on: under every bound that leaves room for it, the operation does the same.
`Exchanges` says both of an operation on a stack, and follows its steps like `Gives` does. The
transfers that end a block or the method throw away what is left instead (`Ends`).

The counts of all operations are `Operation.pops` and `Operation.pushes`, and
`Site.perform_exchanges` says that they are right.
-/

namespace ManagedCode

/-! ## Stacks -/

namespace Stack

/-- The same stack under another bound. -/
def withBound (s : Stack) (bound : Nat) : Stack := { s with bound }

/-- `t` is what is left of `s` without its top `taken` slots. -/
structure Taken (taken : Nat) (s t : Stack) : Prop where
  enough : taken ≤ s.height
  eq_drop : t = { s with slots := s.slots.drop taken }

/-- `t` is what becomes of `s` when its top `taken` slots are replaced by `made` others. The slots
below are kept, and the greatest height is kept up to date. -/
structure Exchanged (taken made : Nat) (s t : Stack) : Prop where
  enough : taken ≤ s.height
  height_eq : t.height = s.height - taken + made
  below_eq : t.slots.drop made = s.slots.drop taken
  bound_eq : t.bound = s.bound
  highWater_mono : s.highWater ≤ t.highWater
  highWater_le : t.highWater ≤ max s.highWater t.bound

variable {s t : Stack} {slot : Slot} {n taken made : Nat}

theorem Taken.refl (s : Stack) : Taken 0 s s := ⟨Nat.zero_le _, rfl⟩

theorem Taken.trans {r : Stack} (hst : Taken n s t) (htr : Taken taken t r) :
    Taken (taken + n) s r := by
  obtain ⟨hn, rfl⟩ := hst
  obtain ⟨htaken, rfl⟩ := htr
  have hheight : ({ s with slots := s.slots.drop n } : Stack).height = s.height - n :=
    List.length_drop
  rw [hheight] at htaken
  refine ⟨by omega, ?_⟩
  simp only [List.drop_drop, Nat.add_comm]

theorem Taken.exchanged {r : Stack} (hst : Taken n s t) (htr : Exchanged taken made t r) :
    Exchanged (taken + n) made s r := by
  obtain ⟨hn, rfl⟩ := hst
  have hheight : ({ s with slots := s.slots.drop n } : Stack).height = s.height - n :=
    List.length_drop
  have henough := htr.enough
  have heq := htr.height_eq
  rw [hheight] at henough heq
  refine ⟨by omega, by omega, ?_, htr.bound_eq, htr.highWater_mono, htr.highWater_le⟩
  rw [htr.below_eq, List.drop_drop, Nat.add_comm]

theorem Taken.clear_eq (h : Taken n s t) : t.clear = s.clear := by
  rw [h.eq_drop]
  rfl

theorem exchanged_self (s : Stack) : Exchanged 0 0 s s :=
  ⟨Nat.zero_le _, rfl, rfl, rfl, Nat.le_refl _, Nat.le_max_left _ _⟩

theorem exchanged_clear (s : Stack) : Exchanged s.height 0 s s.clear := by
  refine ⟨Nat.le_refl _, ?_, ?_, rfl, Nat.le_refl _, Nat.le_max_left _ _⟩
  · simp [height, clear]
  · simp [height, clear]

theorem exchanged_push (h : s.push slot = .ok t) : Exchanged 0 1 s t := by
  unfold push load at h
  split at h
  · rename_i hle
    cases h
    refine ⟨Nat.zero_le _, rfl, rfl, rfl, Nat.le_max_left _ _, ?_⟩
    exact Nat.max_le.mpr ⟨Nat.le_max_left _ _, Nat.le_trans hle (Nat.le_max_right _ _)⟩
  · cases h

/-- A slot that stays in its place can be counted as replaced by itself. -/
theorem Exchanged.deepen (h : Exchanged taken made s t) (hlt : taken < s.height) :
    Exchanged (taken + 1) (made + 1) s t := by
  have hheight := h.height_eq
  refine ⟨hlt, by omega, ?_, h.bound_eq, h.highWater_mono, h.highWater_le⟩
  rw [← List.drop_drop, ← List.drop_drop, h.below_eq]

/-- A slot is put on under every bound that leaves room for it. -/
theorem push_withBound (h : s.push slot = .ok t) {bound : Nat} (hbound : t.highWater ≤ bound) :
    (s.withBound bound).push slot = .ok (t.withBound bound) := by
  unfold push load at h
  split at h
  · cases h
    have hle : (slot :: s.slots).length ≤ bound := Nat.le_trans (Nat.le_max_right _ _) hbound
    exact if_pos hle
  · cases h

end Stack

/-- The same effect, with the stack under another bound. -/
def Effect.withBound (e : Effect) (bound : Nat) : Effect :=
  { e with stack := e.stack.withBound bound }

/-! ## Computations on the stack -/

variable {α : Type}

/-- On `s`, the computation takes `taken` slots off, and it does the same under every bound. -/
def Takes (taken : Nat) (f : Stack → Except Fault (α × Stack)) (s : Stack) : Prop :=
  ∀ a t, f s = .ok (a, t) →
    s.Taken taken t ∧ ∀ bound, f (s.withBound bound) = .ok (a, t.withBound bound)

/-- The same of a computation that gives nothing but the stack. -/
def Drops (taken : Nat) (f : Stack → Except Fault Stack) (s : Stack) : Prop :=
  ∀ t, f s = .ok t → s.Taken taken t ∧ ∀ bound, f (s.withBound bound) = .ok (t.withBound bound)

/-- On `s`, the operation replaces `taken` slots by `made` others, and it does the same under every
bound that leaves room for what it makes. -/
def Exchanges (taken made : Nat) (f : Stack → Except Fault Effect) (s : Stack) : Prop :=
  ∀ e, f s = .ok e → s.Exchanged taken made e.stack ∧
    ∀ bound, e.stack.highWater ≤ bound → f (s.withBound bound) = .ok (e.withBound bound)

/-- On `s`, the operation leaves an empty stack behind, and it does the same under every bound. -/
def Ends (f : Stack → Except Fault Effect) (s : Stack) : Prop :=
  ∀ e, f s = .ok e → e.stack = s.clear ∧
    ∀ bound, f (s.withBound bound) = .ok (e.withBound bound)

variable {s : Stack} {n taken made : Nat}

namespace Takes

theorem ok {a : α} : Takes 0 (fun s => .ok (a, s)) s := by
  intro b t h
  cases h
  exact ⟨.refl s, fun _ => rfl⟩

/-- More slots are taken off, and something is checked that has nothing to do with the stack. -/
theorem bind {β : Type} {f : Stack → Except Fault (α × Stack)}
    {g : α × Stack → Except Fault (β × Stack)} (hf : Takes n f s)
    (hg : ∀ a t, Takes taken (fun s => g (a, s)) t) :
    Takes (taken + n) (fun s => f s >>= g) s := by
  intro b r h
  obtain ⟨⟨a, t⟩, ha, hb⟩ := bind_eq_ok h
  obtain ⟨htaken, hsame⟩ := hf a t ha
  obtain ⟨hrest, hsame'⟩ := hg a t b r hb
  refine ⟨htaken.trans hrest, fun bound => ?_⟩
  simp only [hsame bound]
  exact hsame' bound

theorem after {β : Type} {x : Except Fault α} {g : α → Stack → Except Fault (β × Stack)}
    (hg : ∀ a, Takes taken (g a) s) : Takes taken (fun s => x >>= fun a => g a s) s := by
  intro b t h
  obtain ⟨a, ha, hb⟩ := bind_eq_ok h
  obtain ⟨htaken, hsame⟩ := hg a b t hb
  refine ⟨htaken, fun bound => ?_⟩
  simp only [ha]
  exact hsame bound

end Takes

/-- Nothing but the stack is kept of the result. -/
theorem Drops.bind {f : Stack → Except Fault (α × Stack)} {g : α × Stack → Except Fault Stack}
    (hf : Takes n f s) (hg : ∀ a t r, g (a, t) = .ok r →
      r = t ∧ ∀ bound, g (a, t.withBound bound) = .ok (t.withBound bound)) :
    Drops n (fun s => f s >>= g) s := by
  intro r h
  obtain ⟨⟨a, t⟩, ha, hr⟩ := bind_eq_ok h
  obtain ⟨htaken, hsame⟩ := hf a t ha
  obtain ⟨rfl, hsame'⟩ := hg a t r hr
  refine ⟨htaken, fun bound => ?_⟩
  simp only [hsame bound]
  exact hsame' bound

namespace Exchanges

theorem ok (directive : Directive) (targets : List Nat) :
    Exchanges 0 0 (fun s => .ok ⟨s, directive, targets⟩) s := by
  intro e h
  cases h
  exact ⟨s.exchanged_self, fun _ _ => rfl⟩

theorem error {fault : Fault} : Exchanges taken made (fun _ => .error fault) s := by
  intro e h
  cases h

/-- A check that does not look at the bound. -/
theorem check {f : Stack → Except Fault α} {g : α → Stack → Except Fault Effect}
    (hf : ∀ bound, f (s.withBound bound) = f s)
    (hg : ∀ a, f s = .ok a → Exchanges taken made (g a) s) :
    Exchanges taken made (fun s => f s >>= fun a => g a s) s := by
  intro e h
  obtain ⟨a, ha, he⟩ := bind_eq_ok h
  obtain ⟨hstack, hsame⟩ := hg a ha e he
  refine ⟨hstack, fun bound hle => ?_⟩
  simp only [hf bound, ha]
  exact hsame bound hle

/-- A check of something else than the stack. -/
theorem after {x : Except Fault α} {g : α → Stack → Except Fault Effect}
    (hg : ∀ a, Exchanges taken made (g a) s) :
    Exchanges taken made (fun s => x >>= fun a => g a s) s :=
  check (fun _ => rfl) fun a _ => hg a

/-- Slots are taken off before the operation goes on. -/
theorem take {f : Stack → Except Fault (α × Stack)} {g : α × Stack → Except Fault Effect}
    (hf : Takes n f s) (hg : ∀ a t, Exchanges taken made (fun s => g (a, s)) t) :
    Exchanges (taken + n) made (fun s => f s >>= g) s := by
  intro e h
  obtain ⟨⟨a, t⟩, ha, he⟩ := bind_eq_ok h
  obtain ⟨htaken, hsame⟩ := hf a t ha
  obtain ⟨hstack, hsame'⟩ := hg a t e he
  refine ⟨htaken.exchanged hstack, fun bound hle => ?_⟩
  simp only [hsame bound]
  exact hsame' bound hle

theorem drop {f : Stack → Except Fault Stack} {g : Stack → Except Fault Effect}
    (hf : Drops n f s) (hg : ∀ t, Exchanges taken made g t) :
    Exchanges (taken + n) made (fun s => f s >>= g) s := by
  intro e h
  obtain ⟨t, ht, he⟩ := bind_eq_ok h
  obtain ⟨htaken, hsame⟩ := hf t ht
  obtain ⟨hstack, hsame'⟩ := hg t e he
  refine ⟨htaken.exchanged hstack, fun bound hle => ?_⟩
  simp only [hsame bound]
  exact hsame' bound hle

end Exchanges

namespace Ends

theorem clear (directive : Directive) (targets : List Nat) :
    Ends (fun s => .ok ⟨s.clear, directive, targets⟩) s := by
  intro e h
  cases h
  exact ⟨rfl, fun _ => rfl⟩

/-- Nothing was left on the stack anyway. -/
theorem empty (directive : Directive) :
    Ends (fun s => s.expectEmpty >>= fun _ => .ok ⟨s, directive, []⟩) s := by
  intro e h
  obtain ⟨u, hempty, he⟩ := bind_eq_ok h
  cases he
  have hslots : s.slots = [] := List.isEmpty_iff.mp (require_eq_ok hempty)
  refine ⟨?_, fun bound => ?_⟩
  · simp only [Stack.clear, ← hslots]
  · show (s.expectEmpty >>= fun _ => _) = _
    rw [hempty]
    rfl

theorem after {x : Except Fault α} {g : α → Stack → Except Fault Effect}
    (hg : ∀ a, Ends (g a) s) : Ends (fun s => x >>= fun a => g a s) s := by
  intro e h
  obtain ⟨a, ha, he⟩ := bind_eq_ok h
  obtain ⟨hstack, hsame⟩ := hg a e he
  refine ⟨hstack, fun bound => ?_⟩
  simp only [ha]
  exact hsame bound

theorem take {f : Stack → Except Fault (α × Stack)} {g : α × Stack → Except Fault Effect}
    (hf : Takes n f s) (hg : ∀ a t, Ends (fun s => g (a, s)) t) :
    Ends (fun s => f s >>= g) s := by
  intro e h
  obtain ⟨⟨a, t⟩, ha, he⟩ := bind_eq_ok h
  obtain ⟨htaken, hsame⟩ := hf a t ha
  obtain ⟨hstack, hsame'⟩ := hg a t e he
  refine ⟨hstack.trans htaken.clear_eq, fun bound => ?_⟩
  simp only [hsame bound]
  exact hsame' bound

theorem exchanges {f : Stack → Except Fault Effect} (hf : Ends f s) :
    Exchanges s.height 0 f s := by
  intro e h
  obtain ⟨hstack, hsame⟩ := hf e h
  refine ⟨?_, fun bound _ => hsame bound⟩
  rw [hstack]
  exact s.exchanged_clear

end Ends

namespace Site

variable {site : Site}

/-! ## Operands -/

theorem pop_takes : Takes 1 Stack.pop s := by
  intro slot t h
  unfold Stack.pop at h
  split at h
  · cases h
  · rename_i rest hslots
    cases h
    refine ⟨⟨?_, ?_⟩, fun bound => ?_⟩
    · simp [Stack.height, hslots]
    · simp [hslots]
    · simp only [Stack.pop, Stack.withBound, hslots]

theorem popMany_takes (count : Nat) : Takes count (fun s => s.popMany count) s := by
  intro args t h
  simp only [Stack.popMany] at h
  split at h
  · rename_i henough
    cases h
    exact ⟨⟨henough, rfl⟩, fun bound => if_pos henough⟩
  · cases h

theorem popKind_takes (accepted : List StackKind) (subject : Subject) :
    Takes 1 (fun s => s.popKind accepted subject) s :=
  .bind pop_takes fun _ _ => .after fun _ => .ok

theorem popInto_takes (ty : Ty) (subject : Subject) :
    Takes 1 (fun s => site.popInto s ty subject) s :=
  .bind pop_takes fun _ _ => .after fun _ => .ok

theorem popCompared_takes (op : CompareOp) : Takes 2 (site.popCompared op) s :=
  .bind pop_takes fun _ _ => .bind pop_takes fun _ _ => .after fun _ => .ok

theorem popArgs_takes (params : List Ty) :
    Takes params.length (fun s => site.popArgs s params) s := by
  have h : Takes (0 + params.length) (fun s => site.popArgs s params) s :=
    .bind (popMany_takes params.length) fun _ _ => .after fun _ => .ok
  rwa [Nat.zero_add] at h

theorem popReceiver_takes (method : Method) :
    Takes (if method.signature.hasThis then 1 else 0) (site.popReceiver method) s := by
  unfold popReceiver
  split
  · exact .bind pop_takes fun _ _ => .after fun _ => .ok
  · exact .ok

theorem popAnyReceiver_takes (signature : Signature) :
    Takes (if signature.hasThis then 1 else 0) (popAnyReceiver signature) s := by
  unfold popAnyReceiver
  split
  · exact .bind (popKind_takes _ _) fun _ _ => .ok
  · exact .ok

theorem popResult_takes :
    ∃ count, Takes count site.popResult s := by
  cases h : site.body.signature.result? with
  | some ty =>
    refine ⟨1, ?_⟩
    unfold popResult
    simp only [h]
    exact .bind (popInto_takes _ _) fun _ _ => .ok
  | none =>
    refine ⟨0, ?_⟩
    unfold popResult
    simp only [h]
    exact .ok

theorem popArray_takes : Takes 1 popArray s := by
  refine .bind (popKind_takes _ _) fun slot t => ?_
  simp only
  split
  · exact .ok
  · exact .ok
  · intro a r h
    cases h

theorem popIndex_drops : Drops 1 popIndex s := by
  refine .bind (popKind_takes [.int32, .nativeInt] .index) fun slot t r h => ?_
  cases h
  exact ⟨rfl, fun _ => rfl⟩

theorem popTypedRef_drops : Drops 1 popTypedRef s := by
  refine .bind (popKind_takes [.value] .value) fun slot t r h => ?_
  obtain ⟨_, hcheck, hr⟩ := bind_eq_ok h
  cases hr
  refine ⟨rfl, fun bound => ?_⟩
  simp only [hcheck]
  rfl

theorem pushing_exchanges (slot : Slot) (directive : Directive) :
    Exchanges 0 1 (fun s => pushing s slot directive) s := by
  intro e h
  obtain ⟨t, ht, he⟩ := bind_eq_ok h
  cases he
  refine ⟨Stack.exchanged_push ht, fun bound hle => ?_⟩
  show ((s.withBound bound).push slot >>= fun s => _) = _
  rw [Stack.push_withBound ht hle]
  rfl

end Site

end ManagedCode
