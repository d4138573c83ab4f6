import ManagedCode.Proofs.Engine.Bounds
import ManagedCode.Proofs.Verify.Flow

set_option autoImplicit false

/-! # The reported figures are thresholds

A method that is verified is reported with the greatest height of its stack and the number of its
labels. These are exactly what it needs: with any other bounds on the two, the method is verified if
they are no smaller, and rejected if one of them is.

That larger bounds change nothing comes from `Engine.visitAll_bounded`. That smaller ones do not
suffice needs a third run, under bounds that have room for both: it goes the same way as either of
the two, so they end with the same figures.
-/

namespace ManagedCode

/-- The same options with another bound on the number of labels. -/
def Options.withLabels (options : Options) (labels : Nat) : Options :=
  { options with maxLabels := labels }

/-! ## Sessions -/

theorem Engine.run_bounded {cx : Context} {listing : Listing} {store : LabelStore}
    {st : EngineState} (h : (run cx listing store).result = .ok st) :
    (start cx store).Grown st ∧ ∀ height labels, st.Fits height labels →
      run (cx.withHeight height) listing (store.withBound labels) =
        ⟨(run cx listing store).directives, .ok (st.withBounds height labels)⟩ := by
  obtain ⟨last, hpass, hend⟩ := bind_eq_ok h
  have hall : visitAll cx #[] listing.instructions (start cx store) =
      ⟨(run cx listing store).directives, .ok last⟩ := by
    rw [← hpass]
    rfl
  obtain ⟨hgrown, hsame⟩ := visitAll_bounded hall
  cases hfault : listing.fault with
  | some e =>
      rw [hfault] at hend
      cases hend
  | none =>
      rw [hfault] at hend
      obtain ⟨_, hcheck, hlast⟩ := bind_eq_ok hend
      cases hlast
      refine ⟨hgrown, fun height labels hfits => ?_⟩
      have hall' : visitAll (cx.withHeight height) #[] listing.instructions
          (start (cx.withHeight height) (store.withBound labels)) =
            ⟨(run cx listing store).directives, .ok (st.withBounds height labels)⟩ :=
        hsame height labels hfits
      have hcheck' : checkEnd (st.withBounds height labels) = .ok () := hcheck
      rw [run, hall']
      simp only [hfault]
      exact congrArg (Pass.mk _) (bind_of_ok rfl (bind_of_ok hcheck' rfl))

namespace Session

variable {body : MethodBody} {world : Universe} {options : Options} {a : Acceptance}

/-- The figures of an accepted session are those of its last state. -/
theorem conclude_eq_ok {st : EngineState} (h : conclude st = .ok a) :
    a = ⟨st.labels.size, st.stack.highWater⟩ := by
  unfold conclude at h
  split at h
  · cases h
  · cases h
    rfl

/-- A session that accepts a method keeps to the bounds, and it runs in the same way under all
bounds that have room for its figures. -/
theorem run_bounded (h : (run body world options).result = .ok a) :
    (a.maxStack ≤ body.maxStack ∧ a.labels ≤ options.maxLabels) ∧
      ∀ height labels, a.maxStack ≤ height → a.labels ≤ labels →
        run (body.withHeight height) world (options.withLabels labels) =
          run body world options := by
  obtain ⟨mask, joins, st, hmask, hjoins, hpass, hconclude⟩ := run_eq_ok h
  obtain rfl := conclude_eq_ok hconclude
  obtain ⟨hseeded, hjoins'⟩ := Joins.addRegions_bounded hjoins
  obtain ⟨hgrown, hpass'⟩ := Engine.run_bounded hpass
  have hlabels := (hseeded.trans hgrown.labels).size_le
  have hstack := hgrown.stack.highWater_le
  refine ⟨⟨?_, ?_⟩, fun height labels hheight hsize => ?_⟩
  · simpa [Engine.start] using hstack
  · simpa [LabelStore.size] using hlabels
  · have hroom := Nat.le_trans hgrown.labels.size_mono hsize
    have hrun : run body world options =
        ⟨(Engine.run ⟨world, body, options.rawPointers, joins.mask⟩ (disassemble body.code)
          joins.labels).directives, conclude st⟩ := by
      refine run_of_ok hmask hjoins ?_
      rw [← hpass]
    have hconclude' : conclude (st.withBounds height labels) = conclude st := rfl
    rw [hrun, ← hconclude']
    exact run_of_ok hmask (hjoins' labels hroom) (hpass' height labels ⟨hheight, hsize⟩)

/-- Two bounds under which a method is accepted give the same session. -/
theorem run_withBounds_eq {height labels : Nat} {a' : Acceptance}
    (h : (run body world options).result = .ok a)
    (h' : (run (body.withHeight height) world (options.withLabels labels)).result = .ok a') :
    run (body.withHeight height) world (options.withLabels labels) = run body world options := by
  obtain ⟨⟨hstack, hlabels⟩, hsame⟩ := run_bounded h
  obtain ⟨⟨hstack', hlabels'⟩, hsame'⟩ := run_bounded h'
  -- A session with room for both runs like either of them.
  have hboth := hsame (max body.maxStack height) (max options.maxLabels labels)
    (Nat.le_trans hstack (Nat.le_max_left _ _)) (Nat.le_trans hlabels (Nat.le_max_left _ _))
  have hboth' := hsame' (max body.maxStack height) (max options.maxLabels labels)
    (Nat.le_trans hstack' (Nat.le_max_right _ _)) (Nat.le_trans hlabels' (Nat.le_max_right _ _))
  exact hboth'.symm.trans hboth

end Session

/-! ## Verification -/

theorem MethodBody.checkLimits_withHeight {body : MethodBody} {height : Nat}
    (h : body.checkLimits = .ok ()) (hheight : height ≤ Limits.stackHeight) :
    (body.withHeight height).checkLimits = .ok () := by
  obtain ⟨_, hlength, _⟩ := bind_eq_ok h
  exact bind_of_ok hlength (require_of_true (decide_eq_true hheight) _)

/-- If the session is the same under other bounds, so is what the backend makes of it. -/
theorem verify_withBounds {body : MethodBody} {world : Universe} {options : Options}
    {backend recorder : Recorder} {v : Verified} {height labels : Nat}
    (h : verify body world options backend = (.ok v, recorder))
    (hheight : height ≤ Limits.stackHeight)
    (hsession : Session.run (body.withHeight height) world (options.withLabels labels) =
      Session.run body world options) :
    verify (body.withHeight height) world (options.withLabels labels) backend =
      (.ok v, recorder) := by
  unfold verify at h ⊢
  cases hlimits : body.checkLimits with
  | error e =>
      rw [hlimits] at h
      cases h
  | ok _ =>
      rw [hlimits] at h
      rw [MethodBody.checkLimits_withHeight hlimits hheight, hsession]
      exact h

/-- **The reported figures are thresholds.** A method that is verified needs the reported stack
height and number of labels and no more: with other bounds it is verified exactly if these are no
smaller than the figures, and then with the same report and the same record of the backend. -/
theorem verify_thresholds (body : MethodBody) (world : Universe) (options : Options)
    (backend : Recorder) {v : Verified} {recorder : Recorder}
    (h : verify body world options backend = (.ok v, recorder)) (height labels : Nat)
    (hheight : height ≤ Limits.stackHeight) :
    ((∃ v', (verify (body.withHeight height) world (options.withLabels labels) backend).1 =
        .ok v') ↔ v.maxStack ≤ height ∧ v.labels ≤ labels) ∧
      ∀ v', (verify (body.withHeight height) world (options.withLabels labels) backend).1 =
          .ok v' →
        verify (body.withHeight height) world (options.withLabels labels) backend =
          (.ok v, recorder) := by
  have hfigures := verify_figures (congrArg Prod.fst h)
  refine ⟨⟨?_, ?_⟩, ?_⟩
  · rintro ⟨v', hv'⟩
    have hfigures' := verify_figures hv'
    obtain ⟨hbounds, _⟩ := Session.run_bounded hfigures'
    rw [Session.run_withBounds_eq hfigures hfigures', hfigures] at hfigures'
    obtain ⟨hlabels, hstack⟩ := Acceptance.mk.inj (Except.ok.inj hfigures')
    rw [hlabels, hstack]
    exact hbounds
  · rintro ⟨hstack, hlabels⟩
    obtain ⟨_, hsession⟩ := Session.run_bounded hfigures
    have hsame := verify_withBounds h hheight (hsession height labels hstack hlabels)
    exact ⟨v, congrArg Prod.fst hsame⟩
  · intro v' hv'
    exact verify_withBounds h hheight (Session.run_withBounds_eq hfigures (verify_figures hv'))

/-- Looking at a dog and a cat takes a stack of height two and two labels, neither less. -/
theorem verify_visitPets_thresholds :
    (verify visitPets .zoo {} (.withRestarts 0)).1 = .ok ⟨0, 2, 2⟩ ∧
      verify (visitPets.withHeight 3) .zoo (Options.withLabels {} 2) (.withRestarts 0) =
        verify visitPets .zoo {} (.withRestarts 0) ∧
      ¬ ∃ v', (verify (visitPets.withHeight 1) .zoo (Options.withLabels {} 9)
        (.withRestarts 0)).1 = .ok v' := by
  have haccepted : (verify visitPets .zoo {} (.withRestarts 0)).1 = .ok ⟨0, 2, 2⟩ := by
    decide +kernel
  have hpair : verify visitPets .zoo {} (.withRestarts 0) =
      (.ok ⟨0, 2, 2⟩, (verify visitPets .zoo {} (.withRestarts 0)).2) :=
    Prod.ext haccepted rfl
  refine ⟨haccepted, ?_, ?_⟩
  · obtain ⟨⟨_, haccepts⟩, hsame⟩ :=
      verify_thresholds visitPets .zoo {} (.withRestarts 0) hpair 3 2 (by decide)
    obtain ⟨v', hv'⟩ := haccepts (by decide)
    rw [hsame v' hv', ← hpair]
  · obtain ⟨⟨hneeds, _⟩, _⟩ :=
      verify_thresholds visitPets .zoo {} (.withRestarts 0) hpair 1 9 (by decide)
    intro h
    exact absurd (hneeds h).1 (by decide)

end ManagedCode
