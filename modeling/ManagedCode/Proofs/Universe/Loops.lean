import ManagedCode.Proofs.Universe.Reachability
import Mathlib.Data.Finset.Card

set_option autoImplicit false

/-! # Queries on the hierarchy as loops

The two queries can be asked by plain loops. One climbs from parent to parent with nothing that
bounds it (`Universe.climb`). The other keeps a stack of classes to look at and remembers every
class that was ever put on it (`Universe.explore`). Here both come to an end, and the answers are
those of `isSubclass` and `implements`. For the climb that takes parents with smaller numbers, which
`KnownParents` gives. The search ends in every universe, as each turn finishes one of the finitely
many classes that anything names.

With the answers known to be reachability, `KnownParents.hierarchy` says all of it at once.
-/

namespace ManagedCode

/-! ## Loops -/

/-- A loop from a state on comes to an end with an answer. A turn leads to a new state, or it stops
with the answer. -/
inductive Halts {σ : Type} (turn : σ → σ ⊕ Bool) : σ → Bool → Prop where
  | stop {s : σ} {answer : Bool} (hturn : turn s = .inr answer) : Halts turn s answer
  | next {s s' : σ} {answer : Bool} (hturn : turn s = .inl s') (hrest : Halts turn s' answer) :
      Halts turn s answer

/-- A loop whose turns keep an invariant and make a number smaller comes to an end, and where it
stops the invariant holds. -/
theorem Halts.of_measure {σ : Type} (turn : σ → σ ⊕ Bool) {P : σ → Prop} (measure : σ → Nat)
    (hturn : ∀ s s', P s → turn s = .inl s' → P s' ∧ measure s' < measure s) {s : σ} (hs : P s) :
    ∃ last answer, P last ∧ turn last = .inr answer ∧ Halts turn s answer := by
  induction hn : measure s using Nat.strong_induction_on generalizing s with
  | _ n ih =>
      subst hn
      cases hstep : turn s with
      | inr answer => exact ⟨s, answer, hs, hstep, .stop hstep⟩
      | inl s' =>
          obtain ⟨hs', hless⟩ := hturn s s' hs hstep
          obtain ⟨last, answer, hlast, hstop, hhalts⟩ := ih _ hless hs' rfl
          exact ⟨last, answer, hlast, hstop, .next hstep hhalts⟩

namespace Universe

open Relation

/-! ## Climbing -/

/-- A turn of the climb to `ancestor`: it has been reached, or there is a parent to go on with, or
there is none. -/
def climb (u : Universe) (ancestor : ClassId) : Option ClassId → Option ClassId ⊕ Bool
  | none => .inr false
  | some id => if id = ancestor then .inr true else .inl (u.parent? id)

theorem isSubclass_refl (u : Universe) (id : ClassId) : u.isSubclass id id = true :=
  (isSubclass_iff u id id).mpr .refl

/-- Another class is an ancestor if it is one of the parent. -/
theorem isSubclass_of_ne {u : Universe} {id ancestor : ClassId} (h : id ≠ ancestor) :
    u.isSubclass id ancestor = (u.parent? id).any (u.isSubclass · ancestor) := by
  rw [Bool.eq_iff_iff, isSubclass_iff, Option.any_eq_true]
  constructor
  · intro hpath
    rcases ReflTransGen.cases_head hpath with heq | ⟨parent, hstep, hrest⟩
    · exact absurd heq h
    · exact ⟨parent, hstep, (isSubclass_iff u parent ancestor).mpr hrest⟩
  · rintro ⟨parent, hparent, hrest⟩
    exact .head hparent ((isSubclass_iff u parent ancestor).mp hrest)

/-- A bound on the classes that are still to be climbed, where parents have smaller numbers. -/
def height : Option ClassId → Nat
  | none => 0
  | some id => id.index + 1

/-- On the way the answer stays what it is, and the numbers of the classes fall. -/
theorem climb_next {u : Universe}
    (hu : ∀ id parent, u.parent? id = some parent → parent.index < id.index) {ancestor : ClassId}
    {s s' : Option ClassId} (h : u.climb ancestor s = .inl s') :
    s.any (u.isSubclass · ancestor) = s'.any (u.isSubclass · ancestor) ∧ height s' < height s := by
  cases s with
  | none => cases h
  | some id =>
      simp only [climb] at h
      split at h
      · cases h
      · rename_i hne
        cases h
        refine ⟨isSubclass_of_ne hne, ?_⟩
        cases hparent : u.parent? id with
        | none => exact Nat.succ_pos _
        | some parent => exact Nat.succ_lt_succ (hu id parent hparent)

/-- Where a climb stops its answer is right. -/
theorem climb_stop {u : Universe} {ancestor : ClassId} {s : Option ClassId} {answer : Bool}
    (h : u.climb ancestor s = .inr answer) : answer = s.any (u.isSubclass · ancestor) := by
  cases s with
  | none =>
      cases h
      rfl
  | some id =>
      simp only [climb] at h
      split at h
      · rename_i heq
        cases h
        rw [heq, Option.any_some, isSubclass_refl]
      · cases h

/-- **A climb comes to an end where parents have smaller numbers**, with the answer of
`isSubclass`. -/
theorem halts_climb {u : Universe}
    (hu : ∀ id parent, u.parent? id = some parent → parent.index < id.index) (a b : ClassId) :
    Halts (u.climb b) (some a) (u.isSubclass a b) := by
  obtain ⟨last, answer, hlast, hstop, hhalts⟩ := Halts.of_measure (u.climb b)
    (P := fun s => u.isSubclass a b = s.any (u.isSubclass · b)) height
    (fun s s' hs hnext => ⟨hs.trans (climb_next hu hnext).1, (climb_next hu hnext).2⟩)
    (s := some a) rfl
  rw [hlast, ← climb_stop hstop]
  exact hhalts

/-! ## Exploring -/

/-- Where a search stands: the classes to look at, the next one first, and all that were ever among
them. -/
structure Exploration where
  pending : List ClassId
  seen : List ClassId

namespace Exploration

/-- A class that is seen for the first time is put on top. -/
def discover (x : Exploration) (id : ClassId) : Exploration :=
  if id ∈ x.seen then x else ⟨id :: x.pending, id :: x.seen⟩

/-- The number of classes out of `known` that are still to be looked at, or to be seen at all. -/
def work (known : Finset ClassId) (x : Exploration) : Nat :=
  (known \ x.seen.toFinset).card + x.pending.length

/-- What a discovery, or a series of them, makes of a search. -/
structure Discovers (x : Exploration) (ids : List ClassId) (x' : Exploration) : Prop where
  seen_iff : ∀ id, id ∈ x'.seen ↔ id ∈ x.seen ∨ id ∈ ids
  pending_subset : x.pending ⊆ x'.pending
  pending_seen : ∀ id ∈ x'.pending, id ∈ x.pending ∨ id ∈ x'.seen
  /-- What is seen for the first time is still to be looked at. -/
  pending_of_new : ∀ id ∈ x'.seen, id ∉ x.seen → id ∈ x'.pending
  /-- A class that is seen for the first time is pending from then on: the work stays the same. -/
  work_eq : ∀ known : Finset ClassId, (∀ id ∈ ids, id ∈ known) → x'.work known = x.work known

theorem Discovers.refl (x : Exploration) : x.Discovers [] x where
  seen_iff := by simp
  pending_subset := List.Subset.refl _
  pending_seen := fun _ h => .inl h
  pending_of_new := fun _ h hnew => absurd h hnew
  work_eq := fun _ _ => rfl

theorem Discovers.trans {x y z : Exploration} {ids ids' : List ClassId} (h : x.Discovers ids y)
    (h' : y.Discovers ids' z) : x.Discovers (ids ++ ids') z where
  seen_iff := by
    intro id
    rw [h'.seen_iff, h.seen_iff, List.mem_append, or_assoc]
  pending_subset := List.Subset.trans h.pending_subset h'.pending_subset
  pending_seen := by
    intro id hid
    rcases h'.pending_seen id hid with hy | hz
    · rcases h.pending_seen id hy with hx | hseen
      · exact .inl hx
      · exact .inr ((h'.seen_iff id).mpr (.inl hseen))
    · exact .inr hz
  pending_of_new := by
    intro id hid hnew
    by_cases hy : id ∈ y.seen
    · exact h'.pending_subset (h.pending_of_new id hy hnew)
    · exact h'.pending_of_new id hid hy
  work_eq := by
    intro known hknown
    have hfirst := h.work_eq known fun id hid => hknown id (List.mem_append_left _ hid)
    have hsecond := h'.work_eq known fun id hid => hknown id (List.mem_append_right _ hid)
    exact hsecond.trans hfirst

theorem discovers_discover (x : Exploration) (id : ClassId) : x.Discovers [id] (x.discover id) := by
  unfold discover
  by_cases hseen : id ∈ x.seen
  · rw [if_pos hseen]
    refine ⟨?_, List.Subset.refl _, fun _ h => .inl h, fun _ h hnew => absurd h hnew,
      fun _ _ => rfl⟩
    intro id'
    rw [List.mem_singleton]
    exact ⟨.inl, fun h => h.elim (fun h => h) fun heq => heq ▸ hseen⟩
  · rw [if_neg hseen]
    refine ⟨?_, List.subset_cons_self _ _, ?_, ?_, ?_⟩
    · intro id'
      rw [List.mem_cons, List.mem_singleton, or_comm]
    · intro id' hid'
      rcases List.mem_cons.mp hid' with rfl | hrest
      · exact .inr List.mem_cons_self
      · exact .inl hrest
    · intro id' hid' hnew
      rcases List.mem_cons.mp hid' with rfl | hold
      · exact List.mem_cons_self
      · exact absurd hold hnew
    · intro known hknown
      have hmem : id ∈ known \ x.seen.toFinset :=
        Finset.mem_sdiff.mpr ⟨hknown id (List.mem_singleton.mpr rfl), by simpa using hseen⟩
      have hcard := Finset.card_erase_add_one hmem
      simp only [work, List.toFinset_cons, Finset.sdiff_insert, List.length_cons]
      omega

theorem discovers_foldl (ids : List ClassId) (x : Exploration) :
    x.Discovers ids (ids.foldl discover x) := by
  induction ids generalizing x with
  | nil => exact .refl x
  | cons id rest ih => exact (x.discovers_discover id).trans (ih (x.discover id))

/-- A search from `start` for `target` is on its way: all that was seen can be reached, and what is
not pending any more has been looked at, is not the target, and has had all above it seen. -/
structure Searching (u : Universe) (start target : ClassId) (x : Exploration) : Prop where
  start_seen : start ∈ x.seen
  pending_seen : ∀ id ∈ x.pending, id ∈ x.seen
  reached : ∀ id ∈ x.seen, ReflTransGen u.SuperStep start id
  finished : ∀ id ∈ x.seen, id ∉ x.pending → id ≠ target ∧ ∀ next ∈ u.supers id, next ∈ x.seen

theorem searching_start (u : Universe) (start target : ClassId) :
    Searching u start target ⟨[start], [start]⟩ where
  start_seen := List.mem_singleton.mpr rfl
  pending_seen := fun _ h => h
  reached := fun _ h => List.mem_singleton.mp h ▸ .refl
  finished := fun _ h hnot => absurd h hnot

/-- A class that is not the target is taken from the top, and all above it is discovered. -/
theorem Searching.expand {u : Universe} {start target id : ClassId} {rest seen : List ClassId}
    (h : Searching u start target ⟨id :: rest, seen⟩) (hne : id ≠ target) :
    Searching u start target ((u.supers id).foldl discover ⟨rest, seen⟩) := by
  have hnew := discovers_foldl (u.supers id) ⟨rest, seen⟩
  have hkeep : ∀ k ∈ seen, k ∈ ((u.supers id).foldl discover ⟨rest, seen⟩).seen :=
    fun k hk => (hnew.seen_iff k).mpr (.inl hk)
  have hid : id ∈ seen := h.pending_seen id List.mem_cons_self
  refine ⟨hkeep start h.start_seen, ?_, ?_, ?_⟩
  · intro k hk
    rcases hnew.pending_seen k hk with hrest | hseen
    · exact hkeep k (h.pending_seen k (List.mem_cons_of_mem id hrest))
    · exact hseen
  · intro k hk
    rcases (hnew.seen_iff k).mp hk with hseen | habove
    · exact h.reached k hseen
    · exact (h.reached id hid).tail habove
  · -- What is not pending now was seen before, and was finished then unless it is `id` itself.
    intro k hk hnot
    have hseen : k ∈ seen := by
      by_contra hunseen
      exact hnot (hnew.pending_of_new k hk hunseen)
    by_cases hkid : k = id
    · subst hkid
      exact ⟨hne, fun next hnext => (hnew.seen_iff next).mpr (.inr hnext)⟩
    · have hdone : k ∉ id :: rest := by
        intro hmem
        rcases List.mem_cons.mp hmem with heq | hrest
        · exact hkid heq
        · exact hnot (hnew.pending_subset hrest)
      obtain ⟨hother, hsupers⟩ := h.finished k hseen hdone
      exact ⟨hother, fun next hnext => hkeep next (hsupers next hnext)⟩

/-- A search with nothing to look at has seen all that can be reached, and not the target. -/
theorem Searching.not_reached {u : Universe} {start target : ClassId} {seen : List ClassId}
    (h : Searching u start target ⟨[], seen⟩) : ¬ ReflTransGen u.SuperStep start target := by
  have hclosed : ∀ id, ReflTransGen u.SuperStep start id → id ∈ seen := by
    intro id hpath
    induction hpath with
    | refl => exact h.start_seen
    | tail _ hstep ih => exact (h.finished _ ih List.not_mem_nil).2 _ hstep
  intro hpath
  exact (h.finished target (hclosed target hpath) List.not_mem_nil).1 rfl

end Exploration

/-- A turn of the search for `target`: the next class is the target, or what is above it is
discovered, or there is no class left. -/
def explore (u : Universe) (target : ClassId) (x : Exploration) : Exploration ⊕ Bool :=
  match x.pending with
  | [] => .inr false
  | id :: rest =>
      if id = target then .inr true
      else .inl ((u.supers id).foldl Exploration.discover ⟨rest, x.seen⟩)

/-- The classes that some class names as its parent or as an interface. -/
def named (u : Universe) : Finset ClassId := (u.classIds.flatMap u.supers).toFinset

/-- Only classes with an entry name others, so there are finitely many to discover. -/
theorem mem_named {u : Universe} {id next : ClassId} (h : next ∈ u.supers id) :
    next ∈ u.named := by
  have hid : id ∈ u.classIds := SuperStep.mem_classIds h
  exact List.mem_toFinset.mpr (List.mem_flatMap.mpr ⟨id, hid, h⟩)

/-- A search stays on its way, and every turn finishes a class. -/
theorem explore_next {u : Universe} {start target : ClassId} {x x' : Exploration}
    (hx : x.Searching u start target) (h : u.explore target x = .inl x') :
    x'.Searching u start target ∧ x'.work u.named < x.work u.named := by
  obtain ⟨pending, seen⟩ := x
  cases pending with
  | nil => cases h
  | cons id rest =>
      simp only [explore] at h
      split at h
      · cases h
      · rename_i hne
        cases h
        refine ⟨hx.expand hne, ?_⟩
        rw [(Exploration.discovers_foldl _ _).work_eq u.named fun _ => mem_named]
        exact Nat.lt_succ_self _

/-- Where a search stops its answer is right. -/
theorem explore_stop {u : Universe} {start target : ClassId} {x : Exploration} {answer : Bool}
    (hx : x.Searching u start target) (h : u.explore target x = .inr answer) :
    answer = u.implements start target := by
  obtain ⟨pending, seen⟩ := x
  cases pending with
  | nil =>
      cases h
      have hnever := mt (implements_iff u start target).mp hx.not_reached
      exact (Bool.eq_false_iff.mpr hnever).symm
  | cons id rest =>
      simp only [explore] at h
      split at h
      · rename_i heq
        cases h
        subst heq
        have hreached := hx.reached id (hx.pending_seen id List.mem_cons_self)
        exact ((implements_iff u start id).mpr hreached).symm
      · cases h

/-- **A search comes to an end in every universe**, with the answer of `implements`. -/
theorem halts_explore (u : Universe) (a b : ClassId) :
    Halts (u.explore b) ⟨[a], [a]⟩ (u.implements a b) := by
  obtain ⟨last, answer, hlast, hstop, hhalts⟩ := Halts.of_measure (u.explore b)
    (Exploration.work u.named) (fun _ _ hx hnext => explore_next hx hnext)
    (Exploration.searching_start u a b)
  rw [← explore_stop hlast hstop]
  exact hhalts

/-! ## The hierarchy -/

theorem implements_trans {u : Universe} {a b c : ClassId} (hab : u.implements a b = true)
    (hbc : u.implements b c = true) : u.implements a c = true := by
  rw [implements_iff] at hab hbc ⊢
  exact hab.trans hbc

/-- **Queries on the hierarchy compute reachability.** In a universe that is built with known
parents, parents have smaller numbers. The climb from parent to parent comes to an end and finds
exactly the ancestors, which makes deriving a partial order. Whatever interfaces are attached, in
circles or to ids without an entry, the search comes to an end and finds exactly what parents and
interfaces lead to, so that it finds every ancestor, and all that lies behind what it finds. -/
theorem KnownParents.hierarchy {u : Universe} (hu : u.KnownParents) :
    (∀ id parent, u.parent? id = some parent → parent.index < id.index) ∧
      (∀ a b, Halts (u.climb b) (some a) (u.isSubclass a b)) ∧
      (∀ a b, u.isSubclass a b = true ↔ ReflTransGen u.ParentStep a b) ∧
      (∀ a, u.isSubclass a a = true) ∧
      (∀ a b, u.isSubclass a b = true → u.isSubclass b a = true → a = b) ∧
      (∀ a b c, u.isSubclass a b = true → u.isSubclass b c = true → u.isSubclass a c = true) ∧
      (∀ a b, Halts (u.explore b) ⟨[a], [a]⟩ (u.implements a b)) ∧
      (∀ a b, u.implements a b = true ↔ ReflTransGen u.SuperStep a b) ∧
      (∀ a b, u.isSubclass a b = true → u.implements a b = true) ∧
      ∀ a b c, u.implements a b = true → u.implements b c = true → u.implements a c = true := by
  have hacyclic : u.Acyclic := .of_parent_lt hu.parent_lt
  exact ⟨hu.parent_lt, halts_climb hu.parent_lt, isSubclass_iff u, u.isSubclass_refl,
    fun _ _ => hacyclic.isSubclass_antisymm, fun _ _ _ => isSubclass_trans, u.halts_explore,
    implements_iff u, fun _ _ => implements_of_isSubclass, fun _ _ _ => implements_trans⟩

/-- A universe with two interfaces, `⟨22⟩` and `⟨23⟩`, that extend each other, one of them itself
and the other an id without an entry, and with a class, `⟨25⟩`, that derives from one, `⟨24⟩`, that
implements the first. -/
def tangle : Universe :=
  ((((((((core.extend (.interface "Source")).extend (.interface "Stream")).extend
    (.reference "File" WellKnown.object.id)).extend (.reference "Log" ⟨24⟩)).extend
    (.implementation ⟨22⟩ ⟨23⟩)).extend (.implementation ⟨23⟩ ⟨22⟩)).extend
    (.implementation ⟨22⟩ ⟨22⟩)).extend (.implementation ⟨23⟩ ⟨99⟩)).extend
    (.implementation ⟨24⟩ ⟨22⟩)

theorem knownParents_tangle : tangle.KnownParents := by
  have hfile : (0 : Nat) < 24 := by decide
  have hlog : (24 : Nat) < 25 := by decide
  exact .extend (.extend (.extend (.extend (.extend (.extend (.extend (.extend (.extend .core _
    trivial) _ trivial) _ hfile) _ hlog) _ trivial) _ trivial) _ trivial) _ trivial) _ trivial

/-- From a class the search gets through the circle of interfaces to the id without an entry, and
it comes to an end as well where there is nothing to find. -/
theorem hierarchy_tangle :
    tangle.KnownParents ∧ Halts (tangle.climb WellKnown.object.id) (some ⟨25⟩) true ∧
      Halts (tangle.climb ⟨25⟩) (some ⟨24⟩) false ∧
      Halts (tangle.explore ⟨99⟩) ⟨[⟨25⟩], [⟨25⟩]⟩ true ∧
      Halts (tangle.explore ⟨25⟩) ⟨[⟨23⟩], [⟨23⟩]⟩ false := by
  obtain ⟨_, hclimb, _, _, _, _, hexplore, _⟩ := knownParents_tangle.hierarchy
  have hobject : tangle.isSubclass ⟨25⟩ WellKnown.object.id = true := by decide
  have hbelow : tangle.isSubclass ⟨24⟩ ⟨25⟩ = false := by decide
  have hmissing : tangle.implements ⟨25⟩ ⟨99⟩ = true := by
    have hsteps : tangle.SuperStep ⟨25⟩ ⟨24⟩ ∧ tangle.SuperStep ⟨24⟩ ⟨22⟩ ∧
        tangle.SuperStep ⟨22⟩ ⟨23⟩ ∧ tangle.SuperStep ⟨23⟩ ⟨99⟩ := by
      unfold SuperStep
      decide
    obtain ⟨hlog, hfile, hsource, hstream⟩ := hsteps
    exact (implements_iff _ _ _).mpr (.head hlog (.head hfile (.head hsource (.single hstream))))
  have hnothing : tangle.implements ⟨23⟩ ⟨25⟩ = false := by
    -- The circle leads to no class.
    have hcircle : ∀ id ∈ [⟨22⟩, ⟨23⟩, ⟨99⟩], ∀ next ∈ tangle.supers id,
        next ∈ [(⟨22⟩ : ClassId), ⟨23⟩, ⟨99⟩] := by decide
    have hstays : ∀ id, ReflTransGen tangle.SuperStep ⟨23⟩ id →
        id ∈ [(⟨22⟩ : ClassId), ⟨23⟩, ⟨99⟩] := by
      intro id hpath
      induction hpath with
      | refl => decide
      | tail _ hstep ih => exact hcircle _ ih _ hstep
    refine Bool.eq_false_iff.mpr fun h => ?_
    exact absurd (hstays ⟨25⟩ ((implements_iff _ _ _).mp h)) (by decide)
  exact ⟨knownParents_tangle, hobject ▸ hclimb ⟨25⟩ WellKnown.object.id, hbelow ▸ hclimb ⟨24⟩ ⟨25⟩,
    hmissing ▸ hexplore ⟨25⟩ ⟨99⟩, hnothing ▸ hexplore ⟨23⟩ ⟨25⟩⟩

end Universe

end ManagedCode
