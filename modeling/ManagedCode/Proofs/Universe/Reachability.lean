import ManagedCode.Proofs.Universe.Building
import Mathlib.Logic.Relation

set_option autoImplicit false

/-! # Queries on the hierarchy as reachability

`isSubclass` walks a chain of parents that is cut after a number of classes, and `implements`
searches a graph with a list of the classes still to expand. Here both are shown to be what they
compute: reachability over parents (`isSubclass_iff`), and over parents and interfaces
(`implements_iff`). Neither needs an order among classes, for a path need not expand a class twice.
Where parents lead in no circle (`Acyclic`), two classes never derive from each other.
-/

namespace ManagedCode.Universe

open Relation

/-! ## Steps -/

/-- `b` is the class that `a` derives from directly. -/
def ParentStep (u : Universe) (a b : ClassId) : Prop := u.parent? a = some b

/-- `b` is the parent of `a` or an interface that `a` names. -/
def SuperStep (u : Universe) (a b : ClassId) : Prop := b ∈ u.supers a

/-- A step of `r` from a class in `fresh`. -/
def FreshStep (r : ClassId → ClassId → Prop) (fresh : List ClassId) (a b : ClassId) : Prop :=
  a ∈ fresh ∧ r a b

theorem ParentStep.superStep {u : Universe} {a b : ClassId} (h : u.ParentStep a b) :
    u.SuperStep a b := by
  obtain ⟨info, hinfo, hp⟩ := Option.bind_eq_some_iff.mp h
  simp [SuperStep, supers, hinfo, hp]

theorem SuperStep.mem_classIds {u : Universe} {a b : ClassId} (h : u.SuperStep a b) :
    a ∈ u.classIds := by
  unfold SuperStep supers at h
  cases hinfo : u.class? a with
  | none => simp [hinfo] at h
  | some info =>
      refine List.mem_map.mpr ⟨a.index, ?_, rfl⟩
      exact List.mem_range.mpr (index_lt_of_class? hinfo)

/-- A path either avoids `id` or leads through it, and then avoids it from its last visit on. -/
theorem reflTransGen_erase {r : ClassId → ClassId → Prop} {fresh : List ClassId} (id : ClassId)
    {target a : ClassId} (h : ReflTransGen (FreshStep r fresh) a target) :
    ReflTransGen (FreshStep r (fresh.erase id)) a target ∨
      ∃ b, r id b ∧ ReflTransGen (FreshStep r (fresh.erase id)) b target := by
  induction h using ReflTransGen.head_induction_on with
  | refl => exact .inl .refl
  | @head a b hstep _ ih =>
      rcases ih with hpath | hthrough
      · by_cases hid : a = id
        · subst hid
          exact .inr ⟨b, hstep.2, hpath⟩
        · have hmem : a ∈ fresh.erase id := (List.mem_erase_of_ne hid).mpr hstep.1
          exact .inl (.head ⟨hmem, hstep.2⟩ hpath)
      · exact .inr hthrough

/-! ## The chain of parents -/

theorem reflTransGen_of_mem_ancestryUpTo {u : Universe} {limit : Nat} {a b : ClassId}
    (h : b ∈ u.ancestryUpTo limit a) : ReflTransGen u.ParentStep a b := by
  induction limit generalizing a with
  | zero => cases h
  | succ limit ih =>
      rcases List.mem_cons.mp h with rfl | hrest
      · exact .refl
      · cases hp : u.parent? a with
        | none => simp [hp] at hrest
        | some parent =>
            rw [hp] at hrest
            exact .head hp (ih hrest)

/-- A chain with one entry more than there are classes to expand is not cut too early. The induction
is on the number of these, and each step takes one of them out. -/
theorem mem_ancestryUpTo_of_fresh {u : Universe} {n : Nat} {fresh : List ClassId} {a b : ClassId}
    (hlength : fresh.length = n) (h : ReflTransGen (FreshStep u.ParentStep fresh) a b) :
    b ∈ u.ancestryUpTo (n + 1) a := by
  induction n generalizing fresh a with
  | zero =>
      rcases ReflTransGen.cases_head h with rfl | ⟨_, hstep, _⟩
      · exact List.mem_cons_self
      · rw [List.eq_nil_of_length_eq_zero hlength] at hstep
        cases hstep.1
  | succ n ih =>
      rcases ReflTransGen.cases_head h with rfl | ⟨parent, hstep, hpath⟩
      · exact List.mem_cons_self
      · have hless : (fresh.erase a).length = n := by
          rw [List.length_erase_of_mem hstep.1, hlength]
          rfl
        obtain ⟨parent, hparent, hrest⟩ : ∃ parent, u.ParentStep a parent ∧
            ReflTransGen (FreshStep u.ParentStep (fresh.erase a)) parent b := by
          rcases reflTransGen_erase a hpath with havoids | hthrough
          · exact ⟨parent, hstep.2, havoids⟩
          · exact hthrough
        refine List.mem_cons_of_mem _ ?_
        rw [show u.parent? a = some parent from hparent]
        exact ih hless hrest

/-- **A class derives from the classes that its parents lead to**, itself included. -/
theorem isSubclass_iff (u : Universe) (a b : ClassId) :
    u.isSubclass a b = true ↔ ReflTransGen u.ParentStep a b := by
  unfold isSubclass ancestry
  rw [decide_eq_true_iff]
  constructor
  · exact reflTransGen_of_mem_ancestryUpTo
  · intro h
    have hlength : u.classIds.length = u.classes.size := by simp [classIds]
    refine mem_ancestryUpTo_of_fresh hlength ?_
    exact ReflTransGen.mono (fun c d hstep => ⟨hstep.superStep.mem_classIds, hstep⟩) a b h

theorem isSubclass_trans {u : Universe} {a b c : ClassId} (hab : u.isSubclass a b = true)
    (hbc : u.isSubclass b c = true) : u.isSubclass a c = true := by
  rw [isSubclass_iff] at hab hbc ⊢
  exact hab.trans hbc

/-! ## Chains without circles -/

/-- Parents lead in no circle. -/
def Acyclic (u : Universe) : Prop := ∀ id, ¬ TransGen u.ParentStep id id

/-- It is enough that the classes from which others derive have smaller numbers. -/
theorem Acyclic.of_parent_lt {u : Universe}
    (h : ∀ id parent, u.parent? id = some parent → parent.index < id.index) : u.Acyclic := by
  have hlt : ∀ a b, TransGen u.ParentStep a b → b.index < a.index := by
    intro a b hab
    induction hab with
    | single hstep => exact h _ _ hstep
    | tail _ hstep ih => exact Nat.lt_trans (h _ _ hstep) ih
  intro id hcircle
  exact Nat.lt_irrefl _ (hlt id id hcircle)

theorem Acyclic.isSubclass_antisymm {u : Universe} (hu : u.Acyclic) {a b : ClassId}
    (hab : u.isSubclass a b = true) (hba : u.isSubclass b a = true) : a = b := by
  rw [isSubclass_iff] at hab hba
  rcases ReflTransGen.cases_head hab with heq | ⟨c, hstep, hrest⟩
  · exact heq
  · exact absurd (TransGen.head' hstep (hrest.trans hba)) (hu a)

/-! ## The graph of parents and interfaces -/

theorem search_sound {u : Universe} {target : ClassId} {fresh frontier : List ClassId}
    (h : u.search target fresh frontier = true) :
    ∃ a ∈ frontier, ReflTransGen u.SuperStep a target := by
  induction fresh, frontier using search.induct u target with
  | case1 fresh => simp [search] at h
  | case2 fresh rest => exact ⟨target, List.mem_cons_self, .refl⟩
  | case3 fresh id rest hne hfresh ih =>
      rw [search, if_neg hne, if_pos hfresh] at h
      obtain ⟨a, ha, hreach⟩ := ih h
      rcases List.mem_append.mp ha with hsuper | hrest
      · exact ⟨id, List.mem_cons_self, .head hsuper hreach⟩
      · exact ⟨a, List.mem_cons_of_mem _ hrest, hreach⟩
  | case4 fresh id rest hne hfresh ih =>
      rw [search, if_neg hne, if_neg hfresh] at h
      obtain ⟨a, ha, hreach⟩ := ih h
      exact ⟨a, List.mem_cons_of_mem _ ha, hreach⟩

theorem search_complete {u : Universe} {target : ClassId} {fresh frontier : List ClassId}
    (h : ∃ a ∈ frontier, ReflTransGen (FreshStep u.SuperStep fresh) a target) :
    u.search target fresh frontier = true := by
  induction fresh, frontier using search.induct u target with
  | case1 fresh =>
      obtain ⟨a, ha, _⟩ := h
      cases ha
  | case2 fresh rest => rw [search, if_pos rfl]
  | case3 fresh id rest hne hfresh ih =>
      rw [search, if_neg hne, if_pos hfresh]
      apply ih
      obtain ⟨a, ha, hreach⟩ := h
      rcases reflTransGen_erase id hreach with hpath | ⟨b, hb, hpath⟩
      · rcases List.mem_cons.mp ha with rfl | hrest
        · rcases ReflTransGen.cases_head hpath with rfl | ⟨c, hstep, hcpath⟩
          · exact absurd rfl hne
          · exact ⟨c, List.mem_append.mpr (.inl hstep.2), hcpath⟩
        · exact ⟨a, List.mem_append.mpr (.inr hrest), hpath⟩
      · exact ⟨b, List.mem_append.mpr (.inl hb), hpath⟩
  | case4 fresh id rest hne hfresh ih =>
      rw [search, if_neg hne, if_neg hfresh]
      apply ih
      obtain ⟨a, ha, hreach⟩ := h
      rcases List.mem_cons.mp ha with rfl | hrest
      · rcases ReflTransGen.cases_head hreach with rfl | ⟨b, hstep, _⟩
        · exact absurd rfl hne
        · exact absurd hstep.1 hfresh
      · exact ⟨a, hrest, hreach⟩

/-- **The search finds exactly what parents and interfaces lead to.** No order among classes is
needed: circles of interfaces and ids without an entry are searched as well. -/
theorem implements_iff (u : Universe) (a b : ClassId) :
    u.implements a b = true ↔ ReflTransGen u.SuperStep a b := by
  constructor
  · intro h
    obtain ⟨c, hc, hreach⟩ := search_sound h
    rw [List.mem_singleton.mp hc] at hreach
    exact hreach
  · intro h
    refine search_complete ⟨a, List.mem_singleton.mpr rfl, ?_⟩
    exact ReflTransGen.mono (fun c d hstep => ⟨SuperStep.mem_classIds hstep, hstep⟩) a b h

theorem implements_of_isSubclass {u : Universe} {a b : ClassId} (h : u.isSubclass a b = true) :
    u.implements a b = true := by
  rw [implements_iff]
  exact ReflTransGen.mono (fun c d hstep => ParentStep.superStep hstep) a b
    ((isSubclass_iff u a b).mp h)

/-- Nothing but `Object` stands above `Object`. -/
theorem Rooted.eq_object_of_implements {u : Universe} (hu : u.Rooted) {b : ClassId}
    (h : u.implements WellKnown.object.id b = true) : b = WellKnown.object.id := by
  rw [implements_iff] at h
  rcases ReflTransGen.cases_head h with heq | ⟨c, hstep, _⟩
  · exact heq.symm
  · rw [SuperStep, hu.object_supers] at hstep
    cases hstep

/-- An interface derives from no other class. -/
theorem Rooted.eq_of_isSubclass_interface {u : Universe} (hu : u.Rooted) {a b : ClassId}
    (ha : u.isInterface a = true) (h : u.isSubclass a b = true) : a = b := by
  rcases ReflTransGen.cases_head ((isSubclass_iff u a b).mp h) with heq | ⟨c, hstep, _⟩
  · exact heq
  · rw [ParentStep, hu.parent?_interface ha] at hstep
    cases hstep

end ManagedCode.Universe
