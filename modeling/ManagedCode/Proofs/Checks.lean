import ManagedCode.Effect.Site

set_option autoImplicit false

/-! # Computations that check as they go

Operations are checked in `Except`: one condition after the other, up to the first that does not
hold. The ways to speak about such a computation that are used throughout all follow its steps.

* `Gives x P`: if `x` succeeds, its value satisfies `P`.
* `Fails x P`: if `x` fails, its error satisfies `P`.
* `Allows x y`: if `x` succeeds, `y` succeeds with the same value.
* `AllowsUpTo R x y`: if `x` succeeds, `y` succeeds with a value that `R` relates.
* `Agree R x y`: both succeed, with values that `R` relates, or both fail.
-/

namespace ManagedCode

variable {ε α β : Type}

/-- Both steps of a computation that succeeds have succeeded. -/
theorem bind_eq_ok {first : Except ε α} {next : α → Except ε β} {b : β}
    (h : first >>= next = .ok b) : ∃ a, first = .ok a ∧ next a = .ok b :=
  match first, h with
  | .ok a, h => ⟨a, rfl, h⟩

/-- One of the steps of a computation that fails has failed. -/
theorem bind_eq_error {first : Except ε α} {next : α → Except ε β} {e : ε}
    (h : first >>= next = .error e) :
    first = .error e ∨ ∃ a, first = .ok a ∧ next a = .error e := by
  cases first with
  | error e' =>
      cases h
      exact .inl rfl
  | ok a => exact .inr ⟨a, rfl, h⟩

theorem bind_of_ok {first : Except ε α} {next : α → Except ε β} {a : α} {x : Except ε β}
    (hfirst : first = .ok a) (hnext : next a = x) : first >>= next = x := by
  rw [hfirst]
  exact hnext

theorem mapM_of_ok {f : α → Except ε β} {g : α → β} {xs : List α} (h : ∀ x ∈ xs, f x = .ok (g x)) :
    xs.mapM f = .ok (xs.map g) := by
  induction xs with
  | nil => rfl
  | cons x xs ih =>
      obtain ⟨hx, hxs⟩ := List.forall_mem_cons.mp h
      rw [List.mapM_cons]
      exact bind_of_ok hx (bind_of_ok (ih hxs) rfl)

theorem exists_of_toBool {x : Except ε α} (h : x.toBool = true) : ∃ a, x = .ok a := by
  cases x with
  | error e => cases h
  | ok a => exact ⟨a, rfl⟩

theorem require_eq_ok {condition : Bool} {failure : ε} {u : Unit}
    (h : require condition failure = .ok u) : condition = true := by
  unfold require at h
  split at h
  · assumption
  · cases h

theorem require_of_true {condition : Bool} (h : condition = true) (failure : ε) :
    require condition failure = .ok () := if_pos h

theorem require_eq_ok_iff {condition : Bool} {failure : ε} :
    require condition failure = .ok () ↔ condition = true :=
  ⟨require_eq_ok, fun h => require_of_true h failure⟩

/-- A computation that begins with a check. -/
theorem require_bind_eq_ok_iff {condition : Bool} {failure : ε} {next : Unit → Except ε β} {b : β} :
    require condition failure >>= next = .ok b ↔ condition = true ∧ next () = .ok b := by
  constructor
  · intro h
    obtain ⟨_, hcondition, hnext⟩ := bind_eq_ok h
    exact ⟨require_eq_ok hcondition, hnext⟩
  · rintro ⟨hcondition, hnext⟩
    exact bind_of_ok (require_of_true hcondition failure) hnext

theorem known_eq_ok {value : Option α} {subject : Subject} {a : α}
    (h : known value subject = .ok a) : value = some a := by
  unfold known at h
  split at h
  · cases h
    rfl
  · cases h

namespace Site

variable {site : Site} {token : Token}

theorem typeAt_eq_ok {ty : Ty} (h : site.typeAt token = .ok ty) :
    site.world.type? token = some ty := (Option.filter_eq_some_iff.mp (known_eq_ok h)).1

theorem fieldAt_eq_ok {field : Field} (h : site.fieldAt token = .ok field) :
    site.world.field? token = some field := (Option.filter_eq_some_iff.mp (known_eq_ok h)).1

theorem methodAt_eq_ok {method : Method} (h : site.methodAt token = .ok method) :
    site.world.method? token = some method := (Option.filter_eq_some_iff.mp (known_eq_ok h)).1

end Site

/-! ## What a computation gives -/

/-- The value satisfies `P`, if there is one. -/
def Gives (x : Except ε α) (P : α → Prop) : Prop := ∀ a, x = .ok a → P a

namespace Gives

variable {P : α → Prop} {Q : β → Prop}

theorem ok {a : α} (h : P a) : Gives (.ok a : Except ε α) P := by
  intro b hb
  cases hb
  exact h

theorem error {e : ε} : Gives (.error e : Except ε α) P := by
  intro a h
  cases h

theorem bind {x : Except ε α} {f : α → Except ε β} (hx : Gives x P)
    (hf : ∀ a, P a → Gives (f a) Q) : Gives (x >>= f) Q := by
  intro b h
  obtain ⟨a, ha, hb⟩ := bind_eq_ok h
  exact hf a (hx a ha) b hb

/-- A step of which nothing is to be known. -/
theorem skip {x : Except ε α} {f : α → Except ε β} (hf : ∀ a, Gives (f a) Q) :
    Gives (x >>= f) Q :=
  bind (P := fun _ => True) (fun _ _ => trivial) fun a _ => hf a

theorem require {condition : Bool} {failure : ε} :
    Gives (ManagedCode.require condition failure) fun _ => condition = true :=
  fun _ h => require_eq_ok h

end Gives

/-! ## What a computation fails with -/

/-- The error satisfies `P`, if there is one. -/
def Fails (x : Except ε α) (P : ε → Prop) : Prop := ∀ e, x = .error e → P e

namespace Fails

variable {P Q : ε → Prop}

theorem ok {a : α} : Fails (.ok a : Except ε α) P := by
  intro e h
  cases h

theorem error {e : ε} (h : P e) : Fails (.error e : Except ε α) P := by
  intro e' h'
  cases h'
  exact h

theorem bind {x : Except ε α} {f : α → Except ε β} (hx : Fails x P) (hf : ∀ a, Fails (f a) P) :
    Fails (x >>= f) P := by
  intro e h
  rcases bind_eq_error h with h | ⟨a, _, h⟩
  · exact hx e h
  · exact hf a e h

theorem map {x : Except ε α} (f : α → β) (hx : Fails x P) : Fails (x.map f) P := by
  cases x with
  | ok a => exact ok
  | error e => exact error (hx e rfl)

theorem require {condition : Bool} {failure : ε} (h : P failure) :
    Fails (ManagedCode.require condition failure) P := by
  unfold ManagedCode.require
  split
  · exact ok
  · exact error h

end Fails

/-! ## What one computation allows and another allows too -/

/-- Whatever `x` gives, `y` gives as well. -/
def Allows (x y : Except ε α) : Prop := ∀ a, x = .ok a → y = .ok a

namespace Allows

theorem refl (x : Except ε α) : Allows x x := fun _ h => h

theorem bind {x y : Except ε α} {f g : α → Except ε β} (hxy : Allows x y)
    (hfg : ∀ a, Allows (f a) (g a)) : Allows (x >>= f) (y >>= g) := by
  intro b h
  obtain ⟨a, ha, hb⟩ := bind_eq_ok h
  rw [hxy a ha]
  exact hfg a b hb

/-- The first step is the same. -/
theorem after {x : Except ε α} {f g : α → Except ε β} (hfg : ∀ a, Allows (f a) (g a)) :
    Allows (x >>= f) (x >>= g) := bind (refl x) hfg

theorem require {weak strong : Bool} {failure : ε} (h : strong = true → weak = true) :
    Allows (ManagedCode.require strong failure) (ManagedCode.require weak failure) := by
  intro u hu
  rw [require_of_true (h (require_eq_ok hu))]

end Allows

/-- Where `x` gives a value, `y` gives one that is related to it. -/
def AllowsUpTo (R : α → β → Prop) (x : Except ε α) (y : Except ε β) : Prop :=
  ∀ a, x = .ok a → ∃ b, y = .ok b ∧ R a b

namespace AllowsUpTo

variable {γ δ : Type} {R : α → β → Prop} {S : γ → δ → Prop}

theorem ok {a : α} {b : β} (h : R a b) : AllowsUpTo R (.ok a : Except ε α) (.ok b) := by
  intro a' ha
  cases ha
  exact ⟨b, rfl, h⟩

theorem error {e : ε} {y : Except ε β} : AllowsUpTo R (.error e : Except ε α) y := by
  intro a ha
  cases ha

/-- The second steps may use what the first ones gave. -/
theorem bind_of_eq {x : Except ε α} {y : Except ε β} {f : α → Except ε γ} {g : β → Except ε δ}
    (hxy : AllowsUpTo R x y)
    (hfg : ∀ a b, x = .ok a → y = .ok b → R a b → AllowsUpTo S (f a) (g b)) :
    AllowsUpTo S (x >>= f) (y >>= g) := by
  intro c h
  obtain ⟨a, ha, hc⟩ := bind_eq_ok h
  obtain ⟨b, hb, hab⟩ := hxy a ha
  obtain ⟨d, hd, hcd⟩ := hfg a b ha hb hab c hc
  exact ⟨d, bind_of_ok hb hd, hcd⟩

theorem bind {x : Except ε α} {y : Except ε β} {f : α → Except ε γ} {g : β → Except ε δ}
    (hxy : AllowsUpTo R x y) (hfg : ∀ a b, R a b → AllowsUpTo S (f a) (g b)) :
    AllowsUpTo S (x >>= f) (y >>= g) :=
  bind_of_eq hxy fun a b _ _ hab => hfg a b hab

/-- The first step is the same. -/
theorem after {x : Except ε α} {f : α → Except ε γ} {g : α → Except ε δ}
    (hfg : ∀ a, AllowsUpTo S (f a) (g a)) : AllowsUpTo S (x >>= f) (x >>= g) := by
  refine bind (R := Eq) (fun a ha => ⟨a, ha, rfl⟩) ?_
  rintro a _ rfl
  exact hfg a

/-- A condition that holds where another does comes first. -/
theorem require {weak strong : Bool} {failure : ε} {f : Unit → Except ε γ} {g : Unit → Except ε δ}
    (h : strong = true → weak = true) (hfg : AllowsUpTo S (f ()) (g ())) :
    AllowsUpTo S (ManagedCode.require strong failure >>= f)
      (ManagedCode.require weak failure >>= g) := by
  refine bind (R := fun _ _ => True) ?_ fun _ _ _ => hfg
  intro u hu
  exact ⟨(), require_of_true (h (require_eq_ok hu)) failure, trivial⟩

end AllowsUpTo

/-! ## Two computations that agree -/

/-- Both succeed, with values that are related, or both fail. -/
inductive Agree (R : α → β → Prop) : Except ε α → Except ε β → Prop
  | ok {a : α} {b : β} (h : R a b) : Agree R (.ok a) (.ok b)
  | error (e e' : ε) : Agree R (.error e) (.error e')

namespace Agree

variable {γ δ : Type} {R : α → β → Prop} {S : γ → δ → Prop}

theorem refl (x : Except ε α) : Agree Eq x x := by
  cases x with
  | ok a => exact .ok rfl
  | error e => exact .error e e

theorem imp {R' : α → β → Prop} {x : Except ε α} {y : Except ε β} (h : Agree R x y)
    (himp : ∀ a b, R a b → R' a b) : Agree R' x y := by
  cases h with
  | ok h => exact .ok (himp _ _ h)
  | error e e' => exact .error e e'

/-- What is known of one of the values. -/
theorem gives {P : α → Prop} {x : Except ε α} {y : Except ε β} (h : Agree R x y)
    (hx : Gives x P) : Agree (fun a b => R a b ∧ P a) x y := by
  cases h with
  | ok h => exact .ok ⟨h, hx _ rfl⟩
  | error e e' => exact .error e e'

theorem bind {x : Except ε α} {y : Except ε β} {f : α → Except ε γ} {g : β → Except ε δ}
    (hxy : Agree R x y) (hfg : ∀ a b, R a b → Agree S (f a) (g b)) :
    Agree S (x >>= f) (y >>= g) := by
  cases hxy with
  | ok h => exact hfg _ _ h
  | error e e' => exact .error e e'

theorem map {x : Except ε α} {y : Except ε β} {f : α → γ} {g : β → δ} (hxy : Agree R x y)
    (hfg : ∀ a b, R a b → S (f a) (g b)) : Agree S (x.map f) (y.map g) := by
  cases hxy with
  | ok h => exact .ok (hfg _ _ h)
  | error e e' => exact .error e e'

/-- The first step is the same. -/
theorem after (x : Except ε α) {f : α → Except ε γ} {g : α → Except ε δ}
    (hfg : ∀ a, Agree S (f a) (g a)) : Agree S (x >>= f) (x >>= g) := by
  refine bind (refl x) ?_
  rintro a _ rfl
  exact hfg a

theorem require {condition condition' : Bool} (h : condition = condition') (e e' : ε) :
    Agree (fun _ _ => True) (ManagedCode.require condition e)
      (ManagedCode.require condition' e') := by
  subst h
  cases condition with
  | true => exact .ok trivial
  | false => exact .error e e'

theorem eq_ok_iff {x y : Except ε α} (h : Agree Eq x y) {a : α} : x = .ok a ↔ y = .ok a := by
  cases h with
  | ok h => rw [h]
  | error e e' => simp

end Agree

end ManagedCode
