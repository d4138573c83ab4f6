import ManagedCode.Proofs.Effect.SlotForms
import ManagedCode.Proofs.Labels.Gathering
import ManagedCode.Proofs.Labels.History
import ManagedCode.Proofs.Typing.Ancestors

set_option autoImplicit false

/-! # Widening does not depend on the order of arrival

A label widens by one arrival after the other, and each time a common ancestor is looked for that is
not symmetric in the two types. In the tree of classes the outcome is symmetric all the same: what
is recorded in the end is the least stack that all arrivals fit (`Slots.joined?_eq_some_iff`), and
there is one exactly if there is any stack that they all fit. Neither depends on the order
(`LabelStore.observeAll_perm`).
-/

namespace ManagedCode

/-! ## Slots with plain objects -/

namespace Slot

/-- The slot is well formed, and an object in it is of a class in the tree, or null. -/
structure Plain (u : Universe) (slot : Slot) : Prop where
  wellFormed : slot.WellFormed u
  ty_plain : ∀ ty, slot = .object ty → u.Plain ty

variable {u : Universe} {a b c : Slot}

theorem plain_object {ty : Ty} (h : u.Plain ty) : Plain u (.object ty) := by
  refine ⟨.object h.isReference, ?_⟩
  rintro _ ⟨⟩
  exact h

theorem Plain.exists_object (h : a.Plain u) (hkind : a.kind = .object) :
    ∃ ty, a = .object ty ∧ u.Plain ty := by
  obtain ⟨kind, ty⟩ := a
  obtain ⟨ty, rfl, _⟩ := h.wellFormed.typed.exists_ty hkind
  obtain rfl : kind = .object := hkind
  exact ⟨ty, rfl, h.ty_plain ty rfl⟩

/-- Slots that fit each other are objects, or one and the same: the kind of a number is all there is
to it, and other slots fit only themselves. -/
theorem Plain.eq_or_objects (ha : a.Plain u) (hb : b.Plain u) (h : a.Fits u b) :
    a = b ∨ ∃ s t, a = .object s ∧ b = .object t ∧ u.Plain s ∧ u.Plain t ∧
      u.objectAssignable s t = true := by
  obtain ⟨hkind, hty⟩ := h
  by_cases hobject : a.kind = .object
  · obtain ⟨s, rfl, hs⟩ := ha.exists_object hobject
    obtain ⟨t, rfl, ht⟩ := hb.exists_object (hkind.symm.trans hobject)
    exact .inr ⟨s, t, rfl, rfl, hs, ht, hty⟩
  · have hform := ha.wellFormed
    have hform' := hb.wellFormed
    cases hform with
    | numeric hnumeric =>
        obtain ⟨kind', ty'⟩ := b
        obtain rfl : _ = kind' := hkind
        cases hform' with
        | numeric => exact .inl rfl
        | _ => cases hnumeric
    | object => exact absurd rfl hobject
    | _ =>
        obtain ⟨kind', ty'⟩ := b
        obtain rfl : _ = kind' := hkind
        obtain rfl : _ = ty' := hty
        exact .inl rfl

theorem Plain.fits_trans (hu : u.Forest) (ha : a.Plain u) (hb : b.Plain u) (hc : c.Plain u)
    (hab : a.Fits u b) (hbc : b.Fits u c) : a.Fits u c := by
  rcases ha.eq_or_objects hb hab with rfl | ⟨r, s, rfl, rfl, hr, hs, hrs⟩
  · exact hbc
  · rcases hb.eq_or_objects hc hbc with rfl | ⟨_, t, ⟨⟩, rfl, _, ht, hst⟩
    · exact hab
    · exact ⟨rfl, hu.objectAssignable_trans_plain hr hs ht hrs hst⟩

theorem Plain.fits_antisymm (hu : u.Forest) (ha : a.Plain u) (hb : b.Plain u)
    (hab : a.Fits u b) (hba : b.Fits u a) : a = b := by
  rcases ha.eq_or_objects hb hab with rfl | ⟨s, t, rfl, rfl, hs, ht, hst⟩
  · rfl
  · rw [hu.objectAssignable_antisymm hs ht hst hba.2]

/-- Where two slots agree, the least slot that both fit is recorded. -/
theorem Plain.unify?_least (hu : u.Forest) (ha : a.Plain u) (hb : b.Plain u)
    (h : a.unify? u false b = some c) :
    c.Plain u ∧ a.Fits u c ∧ b.Fits u c ∧ ∀ t : Slot, t.Plain u → a.Fits u t → b.Fits u t →
      c.Fits u t := by
  rcases unify?_cases h ha.wellFormed.typed hb.wellFormed.typed with
    ⟨rfl, hfits⟩ | ⟨_, known, arriving, rfl, rfl, href, href', rfl⟩
  · exact ⟨ha, .refl u ha.wellFormed.typed, hfits, fun _ _ hat _ => hat⟩
  · have hknown := ha.ty_plain known rfl
    have harriving := hb.ty_plain arriving rfl
    obtain ⟨hleft, hright⟩ := u.objectAssignable_commonAncestor href href'
    have hplain := hu.plain_commonAncestor hknown harriving
    refine ⟨plain_object hplain, ⟨rfl, hleft⟩, ⟨rfl, hright⟩, ?_⟩
    intro t ht hat hbt
    obtain ⟨ty, rfl, hty⟩ := ht.exists_object hat.1.symm
    exact ⟨rfl, hknown.commonAncestor_least hty hat.2 hbt.2⟩

/-- Two slots agree if there is one that both fit. -/
theorem Plain.exists_unify? (ha : a.Plain u) (hb : b.Plain u) {t : Slot} (hat : a.Fits u t)
    (hbt : b.Fits u t) : ∃ c, a.unify? u false b = some c := by
  have hkind : a.kind = b.kind := hat.1.trans hbt.1.symm
  have hty := hat.2
  have hty' := hbt.2
  unfold unify?
  rw [if_pos hkind]
  rw [← hkind] at hty'
  cases hk : a.kind with
  | object =>
      obtain ⟨s, rfl, _⟩ := ha.exists_object hk
      obtain ⟨s', rfl, _⟩ := hb.exists_object (hkind.symm.trans hk)
      by_cases hfits : ((object s').isNull || u.objectAssignable s' s) = true
      · exact ⟨_, if_pos hfits⟩
      · exact ⟨_, if_neg hfits⟩
  | managed | transient | value =>
      rw [hk] at hty hty'
      exact ⟨a, if_pos (hty.trans hty'.symm)⟩
  | _ => exact ⟨a, rfl⟩

end Slot

/-! ## Stacks with plain objects -/

namespace Slots

/-- All slots are plain. -/
def Plain (u : Universe) (slots : Slots) : Prop := ∀ slot ∈ slots, slot.Plain u

/-- The least stack that all of the stacks fit. -/
structure LeastBound (u : Universe) (arrivals : List Slots) (bound : Slots) : Prop where
  plain : bound.Plain u
  fit : ∀ stack ∈ arrivals, Fit u stack bound
  least : ∀ other : Slots, other.Plain u → (∀ stack ∈ arrivals, Fit u stack other) →
    Fit u bound other

variable {u : Universe} {a b c : Slots}

theorem plain_cons {slot : Slot} {slots : Slots} :
    Plain u (slot :: slots) ↔ slot.Plain u ∧ slots.Plain u := List.forall_mem_cons

theorem Plain.typed (h : a.Plain u) : Typed a := fun slot hslot => (h slot hslot).wellFormed.typed

theorem Plain.fit_trans (hu : u.Forest) (ha : a.Plain u) (hb : b.Plain u) (hc : c.Plain u)
    (hab : Fit u a b) (hbc : Fit u b c) : Fit u a c := by
  induction hab generalizing c with
  | nil => exact hbc
  | cons hslot _ ih =>
      cases hbc with
      | cons hslot' hrest =>
          obtain ⟨ha, has⟩ := plain_cons.mp ha
          obtain ⟨hb, hbs⟩ := plain_cons.mp hb
          obtain ⟨hc, hcs⟩ := plain_cons.mp hc
          exact .cons (ha.fits_trans hu hb hc hslot hslot') (ih has hbs hcs hrest)

theorem Plain.fit_antisymm (hu : u.Forest) (ha : a.Plain u) (hb : b.Plain u) (hab : Fit u a b)
    (hba : Fit u b a) : a = b := by
  induction hab with
  | nil => rfl
  | cons hslot _ ih =>
      cases hba with
      | cons hslot' hrest =>
          obtain ⟨ha, has⟩ := plain_cons.mp ha
          obtain ⟨hb, hbs⟩ := plain_cons.mp hb
          rw [ha.fits_antisymm hu hb hslot hslot', ih has hbs hrest]

theorem LeastBound.unique (hu : u.Forest) {arrivals : List Slots} (hb : LeastBound u arrivals b)
    (hc : LeastBound u arrivals c) : b = c :=
  hb.plain.fit_antisymm hu hc.plain (hb.least c hc.plain hc.fit) (hc.least b hb.plain hb.fit)

/-- Stacks are unified from the bottom up, one slot after the other. -/
theorem unified?_cons (slot arriving : Slot) (recorded incoming : Slots) :
    unified? u (slot :: recorded) (arriving :: incoming) =
      (unified? u recorded incoming).bind fun below =>
        (slot.unify? u false arriving).map (· :: below) := by
  unfold unified?
  by_cases hlength : recorded.length = incoming.length
  · have hlength' : (slot :: recorded).length = (arriving :: incoming).length :=
      congrArg Nat.succ hlength
    rw [if_pos hlength, if_pos hlength', unify]
    cases unify u false recorded incoming with
    | mk below agree =>
        cases agree with
        | false => rfl
        | true => cases slot.unify? u false arriving <;> rfl
  · have hlength' : (slot :: recorded).length ≠ (arriving :: incoming).length :=
      fun h => hlength (Nat.succ.inj h)
    rw [if_neg hlength, if_neg hlength']
    rfl

/-- What is recorded where a stack arrives is the least stack that both fit. -/
theorem Plain.unified?_least (hu : u.Forest) (ha : a.Plain u) (hb : b.Plain u)
    (h : unified? u a b = some c) : LeastBound u [a, b] c := by
  suffices c.Plain u ∧ Fit u a c ∧ Fit u b c ∧
      ∀ t : Slots, t.Plain u → Fit u a t → Fit u b t → Fit u c t by
    obtain ⟨hc, hac, hbc, hleast⟩ := this
    refine ⟨hc, by simpa using ⟨hac, hbc⟩, fun t ht hall => ?_⟩
    exact hleast t ht (hall a (by simp)) (hall b (by simp))
  induction a generalizing b c with
  | nil =>
      cases b with
      | nil =>
          cases h
          exact ⟨hb, .nil, .nil, fun t _ hat _ => hat⟩
      | cons arriving incoming => cases h
  | cons slot recorded ih =>
      cases b with
      | nil => cases h
      | cons arriving incoming =>
          rw [unified?_cons] at h
          obtain ⟨below, hbelow, h⟩ := Option.bind_eq_some_iff.mp h
          obtain ⟨top, htop, rfl⟩ := Option.map_eq_some_iff.mp h
          obtain ⟨ha, has⟩ := plain_cons.mp ha
          obtain ⟨hb, hbs⟩ := plain_cons.mp hb
          obtain ⟨hplain, hleft, hright, hleast⟩ := ha.unify?_least hu hb htop
          obtain ⟨hplains, hlefts, hrights, hleasts⟩ := ih has hbs hbelow
          refine ⟨plain_cons.mpr ⟨hplain, hplains⟩, .cons hleft hlefts, .cons hright hrights, ?_⟩
          intro t ht hat hbt
          cases hat with
          | cons hat hats =>
              cases hbt with
              | cons hbt hbts =>
                  obtain ⟨ht, hts⟩ := plain_cons.mp ht
                  exact .cons (hleast _ ht hat hbt) (hleasts _ hts hats hbts)

/-- Two stacks agree if there is one that both fit. -/
theorem Plain.exists_unified? (ha : a.Plain u) (hb : b.Plain u) {t : Slots} (hat : Fit u a t)
    (hbt : Fit u b t) : ∃ c, unified? u a b = some c := by
  induction hat generalizing b with
  | nil =>
      cases hbt
      exact ⟨[], rfl⟩
  | cons hat _ ih =>
      cases hbt with
      | cons hbt hbts =>
          obtain ⟨ha, has⟩ := plain_cons.mp ha
          obtain ⟨hb, hbs⟩ := plain_cons.mp hb
          obtain ⟨below, hbelow⟩ := ih has hbs hbts
          obtain ⟨top, htop⟩ := ha.exists_unify? hb hat hbt
          rw [unified?_cons, hbelow]
          exact ⟨top :: below, by simp [htop]⟩

/-! ## Arrivals one after the other -/

/-- A bound of what was unified is a bound of the two stacks, and the other way round. -/
theorem LeastBound.forall_fit_iff (hu : u.Forest) {rest : List Slots} {t : Slots}
    (ha : a.Plain u) (hb : b.Plain u) (ht : t.Plain u) (h : LeastBound u [a, b] c) :
    (∀ stack ∈ a :: b :: rest, Fit u stack t) ↔ ∀ stack ∈ c :: rest, Fit u stack t := by
  simp only [List.forall_mem_cons]
  constructor
  · rintro ⟨hat, hbt, hrest⟩
    exact ⟨h.least t ht (by simpa using ⟨hat, hbt⟩), hrest⟩
  · rintro ⟨hct, hrest⟩
    exact ⟨ha.fit_trans hu h.plain ht (h.fit a (by simp)) hct,
      hb.fit_trans hu h.plain ht (h.fit b (by simp)) hct, hrest⟩

/-- The induction is on the stacks that are still to arrive: the first two are replaced by their
least bound, and that changes no bound of all. -/
theorem leastBound_of_foldlM (hu : u.Forest) {rest : List Slots} (ha : a.Plain u)
    (hrest : ∀ stack ∈ rest, stack.Plain u) (h : rest.foldlM (unified? u) a = some c) :
    LeastBound u (a :: rest) c := by
  induction rest generalizing a with
  | nil =>
      cases h
      exact ⟨ha, by simpa using Fit.refl u ha.typed, fun t _ hall => hall c (by simp)⟩
  | cons b rest ih =>
      obtain ⟨m, hm, hfold⟩ := Option.bind_eq_some_iff.mp h
      obtain ⟨hb, hrest⟩ := List.forall_mem_cons.mp hrest
      have hleast := ha.unified?_least hu hb hm
      have hbound := ih hleast.plain hrest hfold
      refine ⟨hbound.plain, (hleast.forall_fit_iff hu ha hb hbound.plain).mpr hbound.fit, ?_⟩
      intro t ht hall
      exact hbound.least t ht ((hleast.forall_fit_iff hu ha hb ht).mp hall)

theorem exists_foldlM (hu : u.Forest) {rest : List Slots} {t : Slots} (ha : a.Plain u)
    (hrest : ∀ stack ∈ rest, stack.Plain u) (ht : t.Plain u)
    (hall : ∀ stack ∈ a :: rest, Fit u stack t) : ∃ c, rest.foldlM (unified? u) a = some c := by
  induction rest generalizing a with
  | nil => exact ⟨a, rfl⟩
  | cons b rest ih =>
      obtain ⟨hb, hrest⟩ := List.forall_mem_cons.mp hrest
      obtain ⟨m, hm⟩ := ha.exists_unified? hb (hall a (by simp)) (hall b (by simp))
      have hleast := ha.unified?_least hu hb hm
      obtain ⟨c, hc⟩ :=
        ih hleast.plain hrest ((hleast.forall_fit_iff hu ha hb ht).mp hall)
      exact ⟨c, by simp [List.foldlM_cons, hm, hc]⟩

/-- **What stacks are joined to is the least stack that they all fit**, and they can be joined if
there is one. -/
theorem joined?_eq_some_iff (hu : u.Forest) {arrivals : List Slots} (hne : arrivals ≠ [])
    (hplain : ∀ stack ∈ arrivals, stack.Plain u) :
    joined? u arrivals = some c ↔ LeastBound u arrivals c := by
  cases arrivals with
  | nil => exact absurd rfl hne
  | cons first rest =>
      obtain ⟨hfirst, hrest⟩ := List.forall_mem_cons.mp hplain
      constructor
      · exact leastBound_of_foldlM hu hfirst hrest
      · intro hbound
        obtain ⟨c', hc'⟩ := exists_foldlM hu hfirst hrest hbound.plain hbound.fit
        have hbound' := leastBound_of_foldlM hu hfirst hrest hc'
        rw [hbound.unique hu hbound']
        exact hc'

theorem LeastBound.perm {arrivals arrivals' : List Slots} (hperm : arrivals.Perm arrivals')
    (h : LeastBound u arrivals c) : LeastBound u arrivals' c where
  plain := h.plain
  fit stack hstack := h.fit stack (hperm.mem_iff.mpr hstack)
  least other hother hall :=
    h.least other hother fun stack hstack => hall stack (hperm.mem_iff.mp hstack)

/-- The order of the stacks does not matter. -/
theorem joined?_perm (hu : u.Forest) {arrivals arrivals' : List Slots}
    (hperm : arrivals.Perm arrivals') (hplain : ∀ stack ∈ arrivals, stack.Plain u) :
    joined? u arrivals = joined? u arrivals' := by
  by_cases hne : arrivals = []
  · subst hne
    rw [hperm.nil_eq]
  · have hne' : arrivals' ≠ [] := by
      rintro rfl
      exact hne hperm.eq_nil
    have hplain' : ∀ stack ∈ arrivals', stack.Plain u :=
      fun stack hstack => hplain stack (hperm.mem_iff.mpr hstack)
    ext c
    rw [joined?_eq_some_iff hu hne hplain, joined?_eq_some_iff hu hne' hplain']
    exact ⟨.perm hperm, .perm hperm.symm⟩

end Slots

/-! ## Arrivals at a label -/

namespace LabelStore

/-- Control arrives at an offset with one stack after the other, up to the first that does not
agree. -/
def observeAll (u : Universe) (offset : Nat) : List Slots → LabelStore →
    Except Rejection LabelStore
  | [], s => .ok s
  | stack :: rest, s =>
      match s.observe u offset stack with
      | (.ok _, s) => observeAll u offset rest s
      | (.error e, _) => .error e

variable {u : Universe} {s t : LabelStore} {offset : Nat}

/-- To change the label that was made last is to make another one. -/
theorem Coherent.modify_push (hs : s.Coherent) {l : Label} (hid : l.id = s.size)
    (f : Label → Label) : (s.push l).modify l.id f = s.push (f l) := by
  have hkeep : ∀ l' ∈ s.labels, (if l'.id = l.id then f l' else l') = l' := by
    intro l' hl'
    obtain ⟨i, hi, rfl⟩ := Array.mem_iff_getElem.mp hl'
    refine if_neg ?_
    rw [hs.id_eq i hi, hid]
    exact Nat.ne_of_lt hi
  unfold modify push
  rw [Array.map_push, if_pos rfl, Array.map_congr_left hkeep, Array.map_id']

/-- An arrival at the label that was made last is unified with it. -/
theorem Coherent.observe_push_fresh (hs : s.Coherent) (hnew : s.label? offset = none)
    (recorded incoming : Slots) :
    (∃ slots, Slots.unified? u recorded incoming = some slots ∧
      (s.push (s.fresh offset recorded false)).observe u offset incoming =
        (.ok s.size, s.push (s.fresh offset slots false))) ∨
      Slots.unified? u recorded incoming = none ∧
        ∃ e s', (s.push (s.fresh offset recorded false)).observe u offset incoming =
          (.error e, s') := by
  have hlabel : (s.push (s.fresh offset recorded false)).label? offset =
      some (s.fresh offset recorded false) :=
    (label?_push_fresh hnew recorded false offset).trans (if_pos rfl)
  unfold observe Slots.unified?
  rw [hlabel]
  by_cases hlength : recorded.length = incoming.length
  · simp only [fresh, hlength, if_true, Bool.or_self]
    cases hunify : Slots.unify u false recorded incoming with
    | mk slots agree =>
        cases agree with
        | false => exact .inr ⟨rfl, _, _, rfl⟩
        | true =>
            refine .inl ⟨slots, rfl, Prod.ext rfl ?_⟩
            exact hs.modify_push (l := s.fresh offset recorded false) rfl
              fun l => { l with snapshot := slots }
  · simp only [fresh, hlength, if_false]
    exact .inr ⟨trivial, _, _, rfl⟩

/-- Arrivals at the label that was made last are unified with it in turn. -/
theorem Coherent.observeAll_push_fresh (hs : s.Coherent) (hnew : s.label? offset = none)
    (recorded : Slots) (rest : List Slots) :
    observeAll u offset rest (s.push (s.fresh offset recorded false)) = .ok t ↔
      ∃ slots, rest.foldlM (Slots.unified? u) recorded = some slots ∧
        t = s.push (s.fresh offset slots false) := by
  induction rest generalizing recorded with
  | nil =>
      constructor
      · rintro ⟨⟩
        exact ⟨recorded, rfl, rfl⟩
      · rintro ⟨_, ⟨⟩, rfl⟩
        rfl
  | cons incoming rest ih =>
      rw [observeAll, List.foldlM_cons]
      rcases hs.observe_push_fresh hnew recorded incoming (u := u) with
        ⟨slots, hunified, hobserve⟩ | ⟨hunified, e, s', hobserve⟩
      · rw [hobserve, hunified]
        exact ih slots
      · rw [hobserve, hunified]
        exact ⟨fun h => (nomatch h), fun ⟨_, h, _⟩ => (nomatch h)⟩

/-- Where there is no label, arrivals make one, if there is room for it, and it records what they
are joined to. -/
theorem Coherent.observeAll_eq_ok_iff (hs : s.Coherent) (hnew : s.label? offset = none)
    {arrivals : List Slots} (hne : arrivals ≠ []) :
    observeAll u offset arrivals s = .ok t ↔
      s.size < s.bound ∧ ∃ slots, Slots.joined? u arrivals = some slots ∧
        t = s.push (s.fresh offset slots false) := by
  cases arrivals with
  | nil => exact absurd rfl hne
  | cons first rest =>
      rw [observeAll, observe, hnew, create_eq]
      by_cases hroom : s.size < s.bound
      · simp only [hroom, if_true, true_and]
        exact hs.observeAll_push_fresh hnew first rest
      · simp only [hroom, if_false, false_and, iff_false]
        intro h
        cases h

/-- **The order of arrivals at a new label does not matter**, in a universe in which parents lead in
no circle. Let no label be at an offset, in a store that any calls have led to, and let stacks
arrive there whose objects are null or of classes in the tree. In every other order they are
accepted as well, or rejected as well, and the store in the end is the same. The label then records
the least stack that all of them fit. -/
theorem observeAll_perm {u : Universe} (hu : u.Built) (hacyclic : u.Acyclic) (maxLabels : Nat)
    (calls : List Call) {offset : Nat}
    (hnew : (after { bound := maxLabels } u calls).label? offset = none)
    {arrivals arrivals' : List Slots} (hperm : arrivals.Perm arrivals')
    (hplain : ∀ stack ∈ arrivals, ∀ slot ∈ stack, slot.Plain u) :
    let s := after { bound := maxLabels } u calls
    (∀ t, observeAll u offset arrivals s = .ok t ↔ observeAll u offset arrivals' s = .ok t) ∧
      ∀ t, observeAll u offset arrivals s = .ok t → arrivals ≠ [] →
        ∃ l, t.label? offset = some l ∧ l.frozen = false ∧
          Slots.LeastBound u arrivals l.snapshot := by
  intro s
  have hforest := hu.forest hacyclic
  have hs : s.Coherent := coherent_after (coherent_empty maxLabels) u calls
  by_cases hne : arrivals = []
  · subst hne
    rw [hperm.nil_eq]
    exact ⟨fun _ => Iff.rfl, fun _ _ h => absurd rfl h⟩
  · have hne' : arrivals' ≠ [] := by
      rintro rfl
      exact hne hperm.eq_nil
    constructor
    · intro t
      rw [hs.observeAll_eq_ok_iff hnew hne, hs.observeAll_eq_ok_iff hnew hne',
        Slots.joined?_perm hforest hperm hplain]
    · intro t ht _
      obtain ⟨_, slots, hjoined, rfl⟩ := (hs.observeAll_eq_ok_iff hnew hne).mp ht
      refine ⟨_, (label?_push_fresh hnew slots false offset).trans (if_pos rfl), rfl, ?_⟩
      exact (Slots.joined?_eq_some_iff hforest hne hplain).mp hjoined

end LabelStore

/-- A kennel in which all objects have names: an interface, `⟨27⟩`, is attached to `Object`. -/
def Universe.namedKennel : Universe :=
  (kennel.extend (.interface "Named")).extend (.implementation WellKnown.object.id ⟨27⟩)

theorem Universe.built_namedKennel : namedKennel.Built := by
  have hkennel : kennel.Built :=
    (wellBuilt_zoo.built.extend (.reference "Puppy" ⟨23⟩) trivial).extend _ trivial
  exact (hkennel.extend (.interface "Named") trivial).extend _ trivial

theorem Universe.acyclic_namedKennel : namedKennel.Acyclic := by
  have hall : ∀ i : Fin namedKennel.classes.size, ∀ parent ∈ namedKennel.parent? ⟨i⟩,
      parent.index < i := by
    decide +kernel
  refine .of_parent_lt fun id parent hparent => ?_
  obtain ⟨info, hinfo, _⟩ := Option.bind_eq_some_iff.mp hparent
  exact hall ⟨id.index, index_lt_of_class? hinfo⟩ parent hparent

/-- An animal above a number. -/
def petAbove (id : ClassId) : Slots := [.object (.ref id), .int32]

theorem plain_petAbove {id : ClassId} (hid : id ∈ [⟨24⟩, ⟨25⟩, (⟨26⟩ : ClassId)]) :
    Slots.Plain .namedKennel (petAbove id) := by
  have hall : ∀ id ∈ [⟨24⟩, ⟨25⟩, (⟨26⟩ : ClassId)],
      (Universe.namedKennel.ancestry id).length ≤ Universe.ancestorLimit ∧
        ∀ k ∈ Universe.namedKennel.ancestry id, Universe.namedKennel.isInterface k = false := by
    decide +kernel
  refine Slots.plain_cons.mpr ⟨Slot.plain_object (hall id hid), ?_⟩
  exact List.forall_mem_singleton.mpr ⟨.numeric rfl, fun _ h => (nomatch h)⟩

/-- Puppies, poodles and cats are animals, in whatever order they arrive. Puppies and poodles meet
at dogs first, or either of them meets the cat. -/
theorem LabelStore.observeAll_perm_namedKennel :
    Universe.namedKennel.Built ∧ Universe.namedKennel.Acyclic ∧
      ∃ t l,
        observeAll .namedKennel 8 [petAbove ⟨25⟩, petAbove ⟨26⟩, petAbove ⟨24⟩] { bound := 1 } =
          .ok t ∧
        observeAll .namedKennel 8 [petAbove ⟨24⟩, petAbove ⟨26⟩, petAbove ⟨25⟩] { bound := 1 } =
          .ok t ∧
        t.label? 8 = some l ∧ l.snapshot = petAbove ⟨22⟩ := by
  have hrecorded : (observeAll .namedKennel 8 [petAbove ⟨25⟩, petAbove ⟨26⟩, petAbove ⟨24⟩]
      { bound := 1 }).toOption.map (fun t => (t.label? 8).map (·.snapshot)) =
        some (some (petAbove ⟨22⟩)) := by
    decide +kernel
  have hplain : ∀ stack ∈ [petAbove ⟨25⟩, petAbove ⟨26⟩, petAbove ⟨24⟩],
      Slots.Plain .namedKennel stack :=
    List.forall_mem_cons.mpr ⟨plain_petAbove (by decide), List.forall_mem_cons.mpr
      ⟨plain_petAbove (by decide), List.forall_mem_singleton.mpr (plain_petAbove (by decide))⟩⟩
  have hnew : (after { bound := 1 } .namedKennel []).label? 8 = none := rfl
  obtain ⟨hsame, _⟩ := observeAll_perm Universe.built_namedKennel Universe.acyclic_namedKennel 1 []
    hnew (List.reverse_perm [petAbove ⟨25⟩, petAbove ⟨26⟩, petAbove ⟨24⟩]).symm hplain
  cases haccepted : observeAll .namedKennel 8 [petAbove ⟨25⟩, petAbove ⟨26⟩, petAbove ⟨24⟩]
      { bound := 1 } with
  | error e =>
      rw [haccepted] at hrecorded
      cases hrecorded
  | ok t =>
      rw [haccepted] at hrecorded
      obtain ⟨l, hl, hsnapshot⟩ := Option.map_eq_some_iff.mp (Option.some.inj hrecorded)
      exact ⟨Universe.built_namedKennel, Universe.acyclic_namedKennel, t, l, rfl,
        (hsame t).mp haccepted, hl, hsnapshot⟩

end ManagedCode
