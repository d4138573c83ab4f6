import ManagedCode.Proofs.Labels.Store

set_option autoImplicit false

/-! # The history of a label store

Over any sequence of calls, successful or not, labels stay where they are and only their object
slots widen; a label that was visited, or made by an exception region, does not change its
snapshot at all. So what fitted a label once fits it for ever: `LabelStore.history` says this for
every store that calls can lead to.
-/

namespace ManagedCode

/-! ## How a label develops -/

/-- `l'` is `l` at a later time: what is fixed is the same, and so is the snapshot if it was
frozen. -/
structure Label.Keeps (l l' : Label) : Prop where
  id_eq : l'.id = l.id
  offset_eq : l'.offset = l.offset
  seeded_eq : l'.seeded = l.seeded
  visited_of_visited : l.visited = true → l'.visited = true
  snapshot_eq : l.frozen = true → l'.snapshot = l.snapshot

/-- `l'` is `l` at a later time, and its snapshot has only widened. -/
structure Label.Evolves (u : Universe) (l l' : Label) : Prop extends Label.Keeps l l' where
  widen : Slots.Widen u l.snapshot l'.snapshot

namespace Label

theorem Keeps.refl (l : Label) : l.Keeps l := ⟨rfl, rfl, rfl, fun h => h, fun _ => rfl⟩

theorem Keeps.frozen {l l' : Label} (h : l.Keeps l') (hl : l.frozen = true) :
    l'.frozen = true := by
  rw [Label.frozen, Bool.or_eq_true] at hl ⊢
  rcases hl with hvisited | hseeded
  · exact .inl (h.visited_of_visited hvisited)
  · exact .inr (h.seeded_eq.trans hseeded)

theorem Keeps.trans {a b c : Label} (hab : a.Keeps b) (hbc : b.Keeps c) : a.Keeps c where
  id_eq := hbc.id_eq.trans hab.id_eq
  offset_eq := hbc.offset_eq.trans hab.offset_eq
  seeded_eq := hbc.seeded_eq.trans hab.seeded_eq
  visited_of_visited h := hbc.visited_of_visited (hab.visited_of_visited h)
  snapshot_eq h := (hbc.snapshot_eq (hab.frozen h)).trans (hab.snapshot_eq h)

theorem keeps_visited (l : Label) : l.Keeps { l with visited := true } :=
  ⟨rfl, rfl, rfl, fun _ => rfl, fun _ => rfl⟩

theorem keeps_unify (u : Universe) (l : Label) (incoming : Slots) :
    l.Keeps { l with snapshot := (Slots.unify u l.frozen l.snapshot incoming).1 } := by
  refine ⟨rfl, rfl, rfl, fun h => h, ?_⟩
  intro hfrozen
  rw [hfrozen]
  exact Slots.unify_frozen u l.snapshot incoming

theorem Evolves.refl (u : Universe) (l : Label) : l.Evolves u l := ⟨.refl l, .refl u _⟩

theorem Evolves.trans {u : Universe} (hu : u.Orderly) {a b c : Label} (hab : a.Evolves u b)
    (hbc : b.Evolves u c) : a.Evolves u c :=
  ⟨hab.toKeeps.trans hbc.toKeeps, hab.widen.trans hu hbc.widen⟩

end Label

namespace LabelStore

/-! ## What holds of all snapshots -/

/-- `P` holds of all slots of all snapshots. -/
def Holds (P : Slot → Prop) (s : LabelStore) : Prop := ∀ l ∈ s.labels, ∀ slot ∈ l.snapshot, P slot

section Holds

variable {P : Slot → Prop} {s : LabelStore} (hs : s.Holds P)
include hs

theorem holds_push {l : Label} (hl : ∀ slot ∈ l.snapshot, P slot) : (s.push l).Holds P := by
  intro l' hl'
  rcases mem_push.mp hl' with hold | rfl
  · exact hs l' hold
  · exact hl

theorem holds_modify {id : Nat} {f : Label → Label}
    (hf : ∀ l ∈ s.labels, l.id = id → ∀ slot ∈ (f l).snapshot, P slot) :
    (s.modify id f).Holds P := by
  intro l' hl'
  obtain ⟨l, hl, rfl⟩ := mem_modify.mp hl'
  split
  · rename_i hid
    exact hf l hl hid
  · exact hs l hl

theorem holds_create (offset : Nat) {snapshot : Slots} (h : ∀ slot ∈ snapshot, P slot)
    (seeded : Bool) : (s.create offset snapshot seeded).2.Holds P := by
  unfold create
  split
  · exact holds_push hs h
  · exact hs

theorem holds_seed (offset : Nat) {snapshot : Slots} (h : ∀ slot ∈ snapshot, P slot) :
    (s.seed offset snapshot).2.Holds P := by
  unfold seed
  split
  · exact holds_create hs offset h true
  · split <;> exact hs

theorem holds_reload (offset : Nat) : (s.reload offset).2.Holds P := by
  unfold reload
  split
  · exact hs
  · exact holds_create hs offset (by simp) false

theorem holds_observe {u : Universe} (hP : Slot.Unifies u P) (hc : s.Coherent) (offset : Nat)
    {incoming : Slots} (h : ∀ slot ∈ incoming, P slot) :
    (s.observe u offset incoming).2.Holds P := by
  unfold observe
  split
  · exact holds_create hs offset h false
  · rename_i l hfind
    have hl := (hc.label?_eq_some_iff.mp hfind).1
    split
    · exact holds_modify hs fun _ _ _ => Slots.unify_all hP _ (hs l hl) h
    · exact hs

theorem holds_markVisited (id : Nat) : (s.markVisited id).Holds P :=
  holds_modify hs fun l hl _ => hs l hl

end Holds

theorem Holds.of_observe {P : Slot → Prop} {s s' : LabelStore} (hs : s.Holds P) {u : Universe}
    (hP : Slot.Unifies u P) (hc : s.Coherent) {offset : Nat} {incoming : Slots}
    {result : Except Rejection Nat} (h : ∀ slot ∈ incoming, P slot)
    (hobserve : s.observe u offset incoming = (result, s')) : s'.Holds P := by
  have hholds := holds_observe hs hP hc offset h
  rwa [hobserve] at hholds

/-! ## Observing -/

/-- What fits a label may arrive there again and again. -/
theorem observe_of_fit {s : LabelStore} (hs : s.Coherent) {u : Universe} {l : Label}
    (hl : l ∈ s.labels) {incoming : Slots} (hfit : Slots.Fit u incoming l.snapshot) :
    s.observe u l.offset incoming = (.ok l.id, s) := by
  have hlabel : s.label? l.offset = some l := hs.label?_eq_some_iff.mpr ⟨hl, rfl⟩
  have hlength : l.snapshot.length = incoming.length := (List.Forall₂.length_eq hfit).symm
  unfold observe
  rw [hlabel]
  simp only [hlength, if_true, Slots.unify_of_fit hfit]
  rw [modify_eq_self hs hl rfl]

/-- What was observed fits the label it was observed at. -/
theorem fit_of_observe {s s' : LabelStore} (hc : s.Coherent) (hs : s.Holds Slot.Typed)
    {u : Universe} {offset id : Nat} {incoming : Slots} (hincoming : Slots.Typed incoming)
    (h : s.observe u offset incoming = (.ok id, s')) :
    ∃ l ∈ s'.labels, l.id = id ∧ l.offset = offset ∧ Slots.Fit u incoming l.snapshot := by
  rcases observe_eq_ok h with ⟨l, hid, hoffset, rfl, rfl⟩ | ⟨l, hfind, rfl, hlength, hagree, rfl⟩
  · exact ⟨l, mem_push.mpr (.inr rfl), hid, hoffset, .refl u hincoming⟩
  · obtain ⟨hl, hoffset⟩ := hc.label?_eq_some_iff.mp hfind
    refine ⟨_, mem_modify.mpr ⟨l, hl, if_pos rfl⟩, rfl, hoffset, ?_⟩
    exact (Slots.unify_spec _ (hs l hl) hincoming).2.2 hlength hagree

/-! ## Calls -/

/-- A call on a label store. -/
inductive Call where
  | seed (offset : Nat) (snapshot : Slots)
  | observe (offset : Nat) (incoming : Slots)
  | reload (offset : Nat)
  | markVisited (id : Nat)

/-- `P` holds of the slots that the call brings. -/
def Call.Holds (P : Slot → Prop) : Call → Prop
  | .seed _ snapshot => ∀ slot ∈ snapshot, P slot
  | .observe _ incoming => ∀ slot ∈ incoming, P slot
  | .reload _ | .markVisited _ => True

/-- The label is as the call makes it. -/
def Call.Makes (l : Label) : Call → Prop
  | .seed offset snapshot =>
      l.offset = offset ∧ l.snapshot = snapshot ∧ l.seeded = true ∧ l.visited = false
  | .observe offset incoming =>
      l.offset = offset ∧ l.snapshot = incoming ∧ l.seeded = false ∧ l.visited = false
  | .reload offset => l.offset = offset ∧ l.snapshot = [] ∧ l.seeded = false ∧ l.visited = false
  | .markVisited _ => False

/-- `l'` is `l` after the call, and visited if it was or if the call marks it. -/
def Call.Marks (c : Call) (l l' : Label) : Prop :=
  l'.id = l.id ∧ (l'.visited = true ↔ l.visited = true ∨ c = .markVisited l.id)

/-- The label is the one that the call is about. -/
def Call.Concerns (l : Label) : Call → Prop
  | .seed offset _ | .observe offset _ | .reload offset => l.offset = offset
  | .markVisited id => l.id = id

/-- Carries out a call. -/
def call (s : LabelStore) (u : Universe) : Call → Except Rejection Nat × LabelStore
  | .seed offset snapshot => s.seed offset snapshot
  | .observe offset incoming => s.observe u offset incoming
  | .reload offset => s.reload offset
  | .markVisited id => (.ok id, s.markVisited id)

/-- The store after calls, each of which may have succeeded or failed. -/
def after (s : LabelStore) (u : Universe) (calls : List Call) : LabelStore :=
  calls.foldl (fun s c => (s.call u c).2) s

theorem coherent_call {s : LabelStore} (hs : s.Coherent) (u : Universe) (c : Call) :
    (s.call u c).2.Coherent := by
  cases c with
  | seed offset snapshot => exact coherent_seed hs offset snapshot
  | observe offset incoming => exact coherent_observe hs u offset incoming
  | reload offset => exact coherent_reload hs offset
  | markVisited id => exact coherent_markVisited hs id

theorem holds_call {P : Slot → Prop} {s : LabelStore} {u : Universe} (hP : Slot.Unifies u P)
    (hc : s.Coherent) (hs : s.Holds P) {c : Call} (h : c.Holds P) : (s.call u c).2.Holds P := by
  cases c with
  | seed offset snapshot => exact holds_seed hs offset h
  | observe offset incoming => exact holds_observe hs hP hc offset h
  | reload offset => exact holds_reload hs offset
  | markVisited id => exact holds_markVisited hs id

theorem bound_create (s : LabelStore) (offset : Nat) (snapshot : Slots) (seeded : Bool) :
    (s.create offset snapshot seeded).2.bound = s.bound := by
  unfold create
  split <;> rfl

theorem bound_call (s : LabelStore) (u : Universe) (c : Call) :
    (s.call u c).2.bound = s.bound := by
  cases c with
  | seed offset snapshot =>
      simp only [call, seed]
      split
      · exact bound_create s _ _ _
      · split <;> rfl
  | observe offset incoming =>
      simp only [call, observe]
      split
      · exact bound_create s _ _ _
      · split <;> rfl
  | reload offset =>
      simp only [call, reload]
      split
      · rfl
      · exact bound_create s _ _ _
  | markVisited id => rfl

theorem keeps_call {s : LabelStore} (hs : s.Coherent) (u : Universe) (c : Call) :
    s.Carries Label.Keeps (s.call u c).2 := by
  have hrefl := Label.Keeps.refl
  cases c with
  | seed offset snapshot => exact carries_seed hrefl s offset snapshot
  | observe offset incoming =>
      exact carries_observe hrefl hs u offset incoming fun l _ => l.keeps_unify u incoming
  | reload offset => exact carries_reload hrefl s offset
  | markVisited id => exact carries_markVisited hrefl s id fun l _ => l.keeps_visited

theorem evolves_call {s : LabelStore} (hc : s.Coherent) (hs : s.Holds Slot.Typed) (u : Universe)
    {c : Call} (h : c.Holds Slot.Typed) : s.Carries (Label.Evolves u) (s.call u c).2 := by
  have hrefl := Label.Evolves.refl u
  cases c with
  | seed offset snapshot => exact carries_seed hrefl s offset snapshot
  | observe offset incoming =>
      refine carries_observe hrefl hc u offset incoming fun l hl => ?_
      exact ⟨l.keeps_unify u incoming, (Slots.unify_spec _ (hs l hl) h).1⟩
  | reload offset => exact carries_reload hrefl s offset
  | markVisited id =>
      exact carries_markVisited hrefl s id fun l _ => ⟨l.keeps_visited, .refl u _⟩

theorem mem_create_iff {s : LabelStore} {offset : Nat} {snapshot : Slots} {seeded : Bool}
    {l : Label} (h : l.offset ≠ offset) :
    l ∈ (s.create offset snapshot seeded).2.labels ↔ l ∈ s.labels := by
  unfold create
  split
  · refine mem_push.trans ⟨?_, .inl⟩
    rintro (hold | rfl)
    · exact hold
    · exact absurd rfl h
  · rfl

theorem mem_modify_iff {s : LabelStore} {id : Nat} {f : Label → Label} {l : Label}
    (h : ∀ a ∈ s.labels, a.id = id → l ≠ a ∧ l ≠ f a) :
    l ∈ (s.modify id f).labels ↔ l ∈ s.labels := by
  rw [mem_modify]
  constructor
  · rintro ⟨a, ha, heq⟩
    split at heq
    · rename_i hid
      exact absurd heq.symm (h a ha hid).2
    · rw [← heq]
      exact ha
  · intro hl
    exact ⟨l, hl, if_neg fun hid => (h l hl hid).1 rfl⟩

/-- **A call leaves every label alone that it is not about**, and makes no other. -/
theorem mem_call_iff {s : LabelStore} (hs : s.Coherent) (u : Universe) {c : Call} {l : Label}
    (h : ¬c.Concerns l) : l ∈ (s.call u c).2.labels ↔ l ∈ s.labels := by
  cases c with
  | seed offset snapshot =>
      simp only [call, seed]
      split
      · exact mem_create_iff h
      · split <;> rfl
  | observe offset incoming =>
      simp only [call, observe]
      split
      · exact mem_create_iff h
      · rename_i l' hfind
        obtain ⟨hl', hoffset⟩ := hs.label?_eq_some_iff.mp hfind
        split
        · refine mem_modify_iff fun a ha hid => ?_
          have hconcerns : a.offset = offset := hs.id_inj ha hl' hid ▸ hoffset
          constructor
          · rintro rfl
            exact h hconcerns
          · rintro rfl
            exact h hconcerns
        · rfl
  | reload offset =>
      simp only [call, reload]
      split
      · rfl
      · exact mem_create_iff h
  | markVisited id =>
      refine mem_modify_iff fun a ha hid => ?_
      constructor
      · rintro rfl
        exact h hid
      · rintro rfl
        exact h hid

/-- A label where there was none is the one that is created. -/
theorem eq_of_mem_create {s : LabelStore} {offset : Nat} {snapshot : Slots} {seeded : Bool}
    {l : Label} (hl : l ∈ (s.create offset snapshot seeded).2.labels)
    (hnew : s.label? l.offset = none) :
    l.offset = offset ∧ l.snapshot = snapshot ∧ l.seeded = seeded ∧ l.visited = false := by
  have hold : l ∉ s.labels := fun hmem => label?_eq_none_iff.mp hnew l hmem rfl
  unfold create at hl
  split at hl
  · rcases mem_push.mp hl with hmem | rfl
    · exact absurd hmem hold
    · exact ⟨rfl, rfl, rfl, rfl⟩
  · exact absurd hl hold

/-- **A label is made as the call says**: seeded by an exception region only, with the stack that is
required, observed or taken for granted there. -/
theorem makes_of_mem_call {s : LabelStore} {u : Universe} {c : Call} {l : Label}
    (hl : l ∈ (s.call u c).2.labels) (hnew : s.label? l.offset = none) : c.Makes l := by
  have hold : ∀ l' ∈ s.labels, l'.offset ≠ l.offset := label?_eq_none_iff.mp hnew
  have hmodify : ∀ {id : Nat} {f : Label → Label}, (∀ l', (f l').offset = l'.offset) →
      l ∉ (s.modify id f).labels := by
    intro id f hf hmem
    obtain ⟨l', hl', rfl⟩ := mem_modify.mp hmem
    refine hold l' hl' ?_
    split
    · exact (hf l').symm
    · rfl
  cases c with
  | seed offset snapshot =>
      simp only [call, seed] at hl
      split at hl
      · exact eq_of_mem_create hl hnew
      · split at hl <;> exact absurd rfl (hold l hl)
  | observe offset incoming =>
      simp only [call, observe] at hl
      split at hl
      · exact eq_of_mem_create hl hnew
      · split at hl
        · exact absurd hl (hmodify fun _ => rfl)
        · exact absurd rfl (hold l hl)
  | reload offset =>
      simp only [call, reload] at hl
      split at hl
      · exact absurd rfl (hold l hl)
      · exact eq_of_mem_create hl hnew
  | markVisited id => exact absurd hl (hmodify fun _ => rfl)

/-- **A label is visited from the call on that marks it**, and no other call marks it. -/
theorem marks_call {s : LabelStore} (hs : s.Coherent) (u : Universe) (c : Call) :
    s.Carries c.Marks (s.call u c).2 := by
  have hrefl : (∀ id, c ≠ .markVisited id) → ∀ l : Label, c.Marks l l :=
    fun hother l => ⟨rfl, .inl, fun h => h.resolve_right (hother l.id)⟩
  cases c with
  | seed offset snapshot => exact carries_seed (hrefl nofun) s offset snapshot
  | observe offset incoming =>
      exact carries_observe (hrefl nofun) hs u offset incoming fun l _ => hrefl nofun l
  | reload offset => exact carries_reload (hrefl nofun) s offset
  | markVisited id =>
      intro l hl
      refine ⟨if l.id = id then { l with visited := true } else l, mem_modify.mpr ⟨l, hl, rfl⟩, ?_⟩
      by_cases hid : l.id = id
      · rw [if_pos hid]
        exact ⟨rfl, fun _ => .inr (congrArg _ hid.symm), fun _ => rfl⟩
      · rw [if_neg hid]
        exact ⟨rfl, .inl, fun h => h.resolve_right fun heq => hid (Call.markVisited.inj heq).symm⟩

/-- The snapshot that an exception region requires is the one that the label has. -/
theorem exists_of_seed {s s' : LabelStore} (hs : s.Coherent) {offset id : Nat} {snapshot : Slots}
    (h : s.seed offset snapshot = (.ok id, s')) :
    ∃ l ∈ s'.labels, l.id = id ∧ l.offset = offset ∧ l.snapshot = snapshot := by
  unfold seed at h
  split at h
  · unfold create at h
    split at h
    · cases h
      exact ⟨_, Array.mem_push_self, rfl, rfl, rfl⟩
    · cases h
  · rename_i l hfind
    obtain ⟨hl, hoffset⟩ := hs.label?_eq_some_iff.mp hfind
    split at h
    · rename_i hsnapshot
      cases h
      exact ⟨l, hl, rfl, hoffset, hsnapshot⟩
    · cases h

/-! ## Runs -/

theorem coherent_after {s : LabelStore} (hs : s.Coherent) (u : Universe) (calls : List Call) :
    (s.after u calls).Coherent := by
  induction calls generalizing s with
  | nil => exact hs
  | cons c calls ih => exact ih (coherent_call hs u c)

theorem bound_after (s : LabelStore) (u : Universe) (calls : List Call) :
    (s.after u calls).bound = s.bound := by
  induction calls generalizing s with
  | nil => rfl
  | cons c calls ih => exact (ih _).trans (bound_call s u c)

theorem holds_after {P : Slot → Prop} {u : Universe} (hP : Slot.Unifies u P) {s : LabelStore}
    (hc : s.Coherent) (hs : s.Holds P) {calls : List Call} (h : ∀ c ∈ calls, c.Holds P) :
    (s.after u calls).Holds P := by
  induction calls generalizing s with
  | nil => exact hs
  | cons c calls ih =>
      obtain ⟨hcall, hcalls⟩ := List.forall_mem_cons.mp h
      exact ih (coherent_call hc u c) (holds_call hP hc hs hcall) hcalls

theorem keeps_after {s : LabelStore} (hs : s.Coherent) (u : Universe) (calls : List Call) :
    s.Carries Label.Keeps (s.after u calls) := by
  induction calls generalizing s with
  | nil => exact carries_refl Label.Keeps.refl s
  | cons c calls ih =>
      exact (keeps_call hs u c).trans (fun _ _ _ => .trans) (ih (coherent_call hs u c))

theorem evolves_after {u : Universe} (hu : u.Orderly) {s : LabelStore} (hc : s.Coherent)
    (hs : s.Holds Slot.Typed) {calls : List Call} (h : ∀ c ∈ calls, c.Holds Slot.Typed) :
    s.Carries (Label.Evolves u) (s.after u calls) := by
  induction calls generalizing s with
  | nil => exact carries_refl (Label.Evolves.refl u) s
  | cons c calls ih =>
      obtain ⟨hcall, hcalls⟩ := List.forall_mem_cons.mp h
      exact (evolves_call hc hs u hcall).trans (fun _ _ _ => .trans hu)
        (ih (coherent_call hc u c) (holds_call (Slot.unifies_typed u) hc hs hcall) hcalls)

/-- **What holds of a label store over any run of calls**, successful or not. Offsets and numbers
tell labels apart, and there are never more than allowed. A call is about one label only. A label
that a call makes is as the call says; it is seeded if an exception region requires it, and then has
the snapshot that is required. It is visited from the call on that marks it. Whatever calls follow,
labels stay and only widen, and not even that once they are frozen. What was observed at a label
keeps fitting it, and can be observed there again with no effect, as can the snapshot itself. -/
theorem history {u : Universe} (hu : u.WellBuilt) (maxLabels : Nat) (calls : List Call)
    (hcalls : ∀ c ∈ calls, c.Holds Slot.Typed) :
    let s := after { bound := maxLabels } u calls
    s.Coherent ∧ s.size ≤ maxLabels ∧
      (∀ (c : Call) (l : Label), ¬c.Concerns l →
        (l ∈ (s.call u c).2.labels ↔ l ∈ s.labels)) ∧
      (∀ (c : Call) (l : Label), l ∈ (s.call u c).2.labels → s.label? l.offset = none →
        c.Makes l) ∧
      (∀ (offset : Nat) (snapshot : Slots) (id : Nat) (s' : LabelStore),
        s.seed offset snapshot = (.ok id, s') →
        ∃ l ∈ s'.labels, l.id = id ∧ l.offset = offset ∧ l.snapshot = snapshot) ∧
      (∀ c : Call, s.Carries c.Marks (s.call u c).2) ∧
      (∀ later : List Call, (∀ c ∈ later, c.Holds Slot.Typed) →
        s.Carries (Label.Evolves u) (s.after u later)) ∧
      (∀ l ∈ s.labels, s.observe u l.offset l.snapshot = (.ok l.id, s)) ∧
      ∀ (offset : Nat) (incoming : Slots) (id : Nat) (s' : LabelStore), Slots.Typed incoming →
        s.observe u offset incoming = (.ok id, s') →
        ∀ later : List Call, (∀ c ∈ later, c.Holds Slot.Typed) →
          let t := s'.after u later
          ∃ l ∈ t.labels, l.id = id ∧ l.offset = offset ∧ Slots.Fit u incoming l.snapshot ∧
            t.observe u offset incoming = (.ok id, t) ∧
            t.observe u offset l.snapshot = (.ok id, t) := by
  intro s
  have hc : s.Coherent := coherent_after (coherent_empty maxLabels) u calls
  have hP := Slot.unifies_typed u
  have ht : s.Holds Slot.Typed :=
    holds_after hP (coherent_empty maxLabels) (fun l hl => by simp at hl) hcalls
  have hbound : s.bound = maxLabels := bound_after _ u calls
  -- A snapshot fits itself, in this store and in every later one.
  have hself : ∀ {r : LabelStore}, r.Coherent → r.Holds Slot.Typed → ∀ l ∈ r.labels,
      r.observe u l.offset l.snapshot = (.ok l.id, r) :=
    fun hr hr' l hl => observe_of_fit hr hl (.refl u (hr' l hl))
  refine ⟨hc, hbound ▸ hc.size_le, fun c l h => mem_call_iff hc u h,
    fun c l => makes_of_mem_call, fun offset snapshot id s' => exists_of_seed hc, marks_call hc u,
    fun later hlater => evolves_after hu.orderly hc ht hlater, hself hc ht, ?_⟩
  intro offset incoming id s' hincoming hobserve later hlater t
  have hs' : (s.observe u offset incoming).2 = s' := congrArg Prod.snd hobserve
  have hc' : s'.Coherent := hs' ▸ coherent_observe hc u offset incoming
  have ht' : s'.Holds Slot.Typed := ht.of_observe hP hc hincoming hobserve
  obtain ⟨l, hl, rfl, rfl, hfit⟩ := fit_of_observe hc ht hincoming hobserve
  obtain ⟨l', hl', hevolves⟩ := evolves_after hu.orderly hc' ht' hlater l hl
  have hct : t.Coherent := coherent_after hc' u later
  have htt : t.Holds Slot.Typed := holds_after hP hc' ht' hlater
  have hfit' : Slots.Fit u incoming l'.snapshot := hfit.widen hu.orderly hevolves.widen
  refine ⟨l', hl', hevolves.id_eq, hevolves.offset_eq, hfit', ?_, ?_⟩
  · rw [← hevolves.offset_eq, ← hevolves.id_eq]
    exact observe_of_fit hct hl' hfit'
  · rw [← hevolves.offset_eq, ← hevolves.id_eq]
    exact hself hct htt l' hl'

/-- A dog arrives at a label, then a cat. The label widens to the class of both, is visited, and a
dog can still arrive. -/
theorem history_of_zoo :
    Universe.zoo.WellBuilt ∧
      let s : LabelStore := (observe { bound := 1 } .zoo 8 [.object (.ref ⟨23⟩)]).2
      let t := s.after .zoo [.observe 8 [.object (.ref ⟨24⟩)], .markVisited 0]
      (∃ l ∈ t.labels, l.offset = 8 ∧ Slots.Fit .zoo [.object (.ref ⟨23⟩)] l.snapshot) ∧
        t.observe .zoo 8 [.object (.ref ⟨23⟩)] = (.ok 0, t) := by
  have hslot : ∀ id, (Slot.object (.ref id)).Typed := fun id => Slot.typed_object rfl
  have htyped : ∀ id, Slots.Typed [.object (.ref id)] :=
    fun id => Slots.typed_cons.mpr ⟨hslot id, Slots.typed_nil⟩
  have hlater : ∀ c ∈ [Call.observe 8 [.object (.ref ⟨24⟩)], .markVisited 0],
      c.Holds Slot.Typed := by
    simpa [Call.Holds] using hslot ⟨24⟩
  obtain ⟨_, _, _, _, _, _, _, _, hobserve⟩ := history Universe.wellBuilt_zoo 1 [] (by simp)
  obtain ⟨l, hl, _, hoffset, hfit, hagain, _⟩ :=
    hobserve 8 [.object (.ref ⟨23⟩)] 0 _ (htyped ⟨23⟩) rfl _ hlater
  exact ⟨Universe.wellBuilt_zoo, ⟨l, hl, hoffset, hfit⟩, hagain⟩

end LabelStore

end ManagedCode
