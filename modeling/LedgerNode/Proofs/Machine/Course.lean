import LedgerNode.Proofs.Machine.Operands
import LedgerNode.Proofs.Machine.Termination

/-!
# The course of a run

A run is a row of steps that succeed, and behind them either an empty invocation stack or a step
that fails. How long the row is does not depend on the bound that the run is given.

- `Services.Course`: a number of steps, all of which succeed, leads from one engine to another.
- `Services.Takes`: a number of steps leads from an engine to the end of a run, with its result.
  `Services.steps_eq_some_iff` says that a run has an answer just when its bound allows for them.
- `Services.RunsIn`: a run has its answer with a bound, and with no lesser one.
- `Services.Lockstep`: of two engines in relation one takes the steps of the other, as long as their
  results are among certain ones. So do rows of steps (`Services.Lockstep.course`) and runs
  (`Services.Lockstep.run`), and for the built-in services it is enough to look at one instruction
  at a time (`Services.lockstep_of_carry`).
-/

namespace LedgerNode

namespace Services

/-- So many steps, all of which succeed, lead from one engine to another. -/
inductive Course (services : Services) (nesting : Nat) : Nat → Engine → Engine → Prop where
  | refl {e : Engine} : Course services nesting 0 e e
  | step {k : Nat} {e e₁ e' : Engine} (hstep : services.step nesting e = some (.ok (), e₁))
    (h : Course services nesting k e₁ e') : Course services nesting (k + 1) e e'

/-- So many steps, the last of which may fail, lead from an engine to the end of its run. -/
inductive Takes (services : Services) (nesting : Nat) :
    Nat → Engine → Except Fault Unit → Engine → Prop where
  | halt {e : Engine} (he : e.frames = []) :
    Takes services nesting 0 e (.ok ()) { e with status := .halt }
  | fault {e e' : Engine} {x : Fault} (hne : e.frames ≠ [])
    (hstep : services.step nesting e = some (.error x, e')) :
    Takes services nesting 1 e (.error x) { e' with status := .fault }
  | step {k : Nat} {e e₁ e' : Engine} {r : Except Fault Unit} (hne : e.frames ≠ [])
    (hstep : services.step nesting e = some (.ok (), e₁))
    (h : Takes services nesting k e₁ r e') : Takes services nesting (k + 1) e r e'

/-- A run takes so many steps: with that bound or a greater one it has its answer, and with no
lesser one. -/
def RunsIn (services : Services) (nesting k : Nat) (e : Engine) (r : Except Fault Unit)
    (e' : Engine) : Prop :=
  ∀ n, services.run nesting n e = if k ≤ n then some (r, e') else none

variable {services : Services} {nesting : Nat}

/-! ## Rows of steps -/

theorem course_zero_iff {e e' : Engine} : services.Course nesting 0 e e' ↔ e' = e := by
  constructor
  · rintro ⟨⟩
    rfl
  · rintro rfl
    exact .refl

theorem course_succ_iff {k : Nat} {e e' : Engine} :
    services.Course nesting (k + 1) e e' ↔
      ∃ e₁, services.step nesting e = some (.ok (), e₁) ∧ services.Course nesting k e₁ e' := by
  constructor
  · intro h
    cases h with
    | step hstep h => exact ⟨_, hstep, h⟩
  · rintro ⟨e₁, hstep, h⟩
    exact .step hstep h

/-! ## Runs -/

theorem steps_zero {e : Engine} (hne : e.frames ≠ []) : services.steps nesting 0 e = none := by
  have hempty : ¬ e.frames.isEmpty = true := fun h => hne (List.isEmpty_iff.mp h)
  rw [steps, if_neg hempty]

theorem steps_succ {e : Engine} (hne : e.frames ≠ []) (n : Nat) :
    services.steps nesting (n + 1) e = match services.step nesting e with
      | none => none
      | some (.error x, e) => some (.error x, { e with status := .fault })
      | some (.ok (), e) => services.steps nesting n e := by
  have hempty : ¬ e.frames.isEmpty = true := fun h => hne (List.isEmpty_iff.mp h)
  rw [steps]
  exact if_neg hempty

/-- The steps that a run takes settle what it comes to under any bound. -/
theorem Takes.steps_eq {k : Nat} {e e' : Engine} {r : Except Fault Unit}
    (h : services.Takes nesting k e r e') (n : Nat) :
    services.steps nesting n e = if k ≤ n then some (r, e') else none := by
  induction h generalizing n with
  | halt he => rw [steps_of_nil he, if_pos (Nat.zero_le n)]
  | fault hne hstep =>
    cases n with
    | zero => rw [steps_zero hne, if_neg (by decide)]
    | succ n => rw [steps_succ hne, hstep, if_pos (Nat.le_add_left 1 n)]
  | step hne hstep _ ih =>
    cases n with
    | zero => rw [steps_zero hne, if_neg (Nat.not_succ_le_zero _)]
    | succ n =>
      rw [steps_succ hne, hstep]
      simp only [ih, Nat.add_le_add_iff_right]

/-- A run has an answer under a bound just when it takes no more steps. -/
theorem steps_eq_some_iff {n : Nat} {e e' : Engine} {r : Except Fault Unit} :
    services.steps nesting n e = some (r, e') ↔ ∃ k ≤ n, services.Takes nesting k e r e' := by
  constructor
  · intro h
    induction n generalizing e with
    | zero =>
      by_cases he : e.frames = []
      · rw [steps_of_nil he] at h
        cases h
        exact ⟨0, Nat.le_refl 0, .halt he⟩
      · rw [steps_zero he] at h
        cases h
    | succ n ih =>
      by_cases he : e.frames = []
      · rw [steps_of_nil he] at h
        cases h
        exact ⟨0, Nat.zero_le _, .halt he⟩
      · rw [steps_succ he] at h
        split at h
        · cases h
        · rename_i hstep
          cases h
          exact ⟨1, Nat.le_add_left 1 n, .fault he hstep⟩
        · rename_i hstep
          obtain ⟨k, hk, htakes⟩ := ih h
          exact ⟨k + 1, Nat.succ_le_succ hk, .step he hstep htakes⟩
  · rintro ⟨k, hk, htakes⟩
    rw [htakes.steps_eq, if_pos hk]

theorem Takes.runsIn {k : Nat} {e e' : Engine} {r : Except Fault Unit}
    (h : services.Takes nesting k { e with status := .none } r e') :
    services.RunsIn nesting k e r e' :=
  h.steps_eq

/-- A run takes one number of steps and comes to one result. -/
theorem RunsIn.unique {k k₂ : Nat} {e e' e₂ : Engine} {r r₂ : Except Fault Unit}
    (h : services.RunsIn nesting k e r e') (h₂ : services.RunsIn nesting k₂ e r₂ e₂) :
    k = k₂ ∧ r = r₂ ∧ e' = e₂ := by
  have hk := (h k).symm.trans (h₂ k)
  have hk₂ := (h k₂).symm.trans (h₂ k₂)
  rw [if_pos (Nat.le_refl k)] at hk
  rw [if_pos (Nat.le_refl k₂)] at hk₂
  obtain ⟨hle₂, hsame⟩ := Option.ite_none_right_eq_some.mp hk.symm
  obtain ⟨hle, -⟩ := Option.ite_none_right_eq_some.mp hk₂
  obtain ⟨rfl, rfl⟩ := Prod.ext_iff.mp (Option.some.inj hsame)
  exact ⟨Nat.le_antisymm hle hle₂, rfl, rfl⟩

/-- Whatever a run comes to, it ends without frames or with a failure. -/
theorem Takes.ended {k : Nat} {e e' : Engine} {r : Except Fault Unit}
    (h : services.Takes nesting k e r e') : Ended r e' := by
  induction h with
  | halt he => exact .halt he rfl
  | fault => exact .fault rfl
  | step _ _ _ ih => exact ih

/-- A run that fails does so in its last step, and all steps before it succeed. -/
theorem Takes.exists_failing_step {k : Nat} {e e' : Engine} {x : Fault}
    (h : services.Takes nesting k e (.error x) e') :
    ∃ j e₁ e₂, k = j + 1 ∧ services.Course nesting j e e₁ ∧ e₁.frames ≠ [] ∧
      services.step nesting e₁ = some (.error x, e₂) ∧ e' = { e₂ with status := .fault } := by
  generalize hr : (Except.error x : Except Fault Unit) = r at h
  induction h with
  | halt => cases hr
  | fault hne hstep =>
    cases hr
    exact ⟨0, _, _, rfl, .refl, hne, hstep, rfl⟩
  | step _ hstep _ ih =>
    obtain ⟨j, e₁, e₂, rfl, hcourse, hne, hfail, rfl⟩ := ih hr
    exact ⟨j + 1, e₁, e₂, rfl, .step hstep hcourse, hne, hfail, rfl⟩

/-- Where only the built-in services are registered, every run takes a number of steps. -/
theorem exists_takes (nesting : Nat) (e : Engine) :
    ∃ k r e', builtins.Takes nesting k e r e' := by
  obtain ⟨r, e', hsteps, -⟩ := steps_end nesting (Nat.le_refl e.work)
  obtain ⟨k, -, htakes⟩ := steps_eq_some_iff.mp hsteps
  exact ⟨k, r, e', htakes⟩

/-! ## Two engines in step -/

/-- Of two engines in relation the second takes the steps of the first and stays in relation, as
long as their results are fine. -/
structure Lockstep (services : Services) (nesting : Nat) (Fine : Except Fault Unit → Prop)
    (R : Engine → Engine → Prop) : Prop where
  ok : Fine (.ok ())
  frames_eq {e₁ e₂ : Engine} (h : R e₁ e₂) : e₂.frames = e₁.frames
  mark {e₁ e₂ : Engine} (status : Engine.Status) (h : R e₁ e₂) :
    R { e₁ with status } { e₂ with status }
  step {e₁ e₂ e₁' : Engine} {r : Except Fault Unit} (h : R e₁ e₂) (hr : Fine r)
    (hstep : services.step nesting e₁ = some (r, e₁')) :
    ∃ e₂', services.step nesting e₂ = some (r, e₂') ∧ R e₁' e₂'

variable {Fine : Except Fault Unit → Prop} {R : Engine → Engine → Prop}

/-- A row of steps that succeed is taken by both. -/
theorem Lockstep.course (hlock : services.Lockstep nesting Fine R) {k : Nat} {e₁ e₂ e₁' : Engine}
    (hR : R e₁ e₂) (h : services.Course nesting k e₁ e₁') :
    ∃ e₂', services.Course nesting k e₂ e₂' ∧ R e₁' e₂' := by
  induction h generalizing e₂ with
  | refl => exact ⟨e₂, .refl, hR⟩
  | step hstep _ ih =>
    obtain ⟨e₃, hstep₂, hR'⟩ := hlock.step hR hlock.ok hstep
    obtain ⟨e₂', hcourse, hR''⟩ := ih hR'
    exact ⟨e₂', .step hstep₂ hcourse, hR''⟩

/-- They take the same number of steps in a run. -/
theorem Lockstep.takes (hlock : services.Lockstep nesting Fine R) {k : Nat} {e₁ e₂ e₁' : Engine}
    {r : Except Fault Unit} (hR : R e₁ e₂) (hr : Fine r) (h : services.Takes nesting k e₁ r e₁') :
    ∃ e₂', services.Takes nesting k e₂ r e₂' ∧ R e₁' e₂' := by
  induction h generalizing e₂ with
  | halt he => exact ⟨_, .halt ((hlock.frames_eq hR).trans he), hlock.mark .halt hR⟩
  | fault hne hstep =>
    obtain ⟨e₂', hstep₂, hR'⟩ := hlock.step hR hr hstep
    exact ⟨_, .fault (hlock.frames_eq hR ▸ hne) hstep₂, hlock.mark .fault hR'⟩
  | step hne hstep _ ih =>
    obtain ⟨e₃, hstep₂, hR'⟩ := hlock.step hR hlock.ok hstep
    obtain ⟨e₂', htakes, hR''⟩ := ih hR' hr
    exact ⟨e₂', .step (hlock.frames_eq hR ▸ hne) hstep₂ htakes, hR''⟩

/-- They run to the same result within the same bound. -/
theorem Lockstep.run (hlock : services.Lockstep nesting Fine R) {n : Nat} {e₁ e₂ e₁' : Engine}
    {r : Except Fault Unit} (hR : R e₁ e₂) (hr : Fine r)
    (hrun : services.run nesting n e₁ = some (r, e₁')) :
    ∃ e₂', services.run nesting n e₂ = some (r, e₂') ∧ R e₁' e₂' := by
  obtain ⟨k, hk, htakes⟩ := steps_eq_some_iff.mp hrun
  obtain ⟨e₂', htakes₂, hR'⟩ := hlock.takes (hlock.mark .none hR) hr htakes
  exact ⟨e₂', steps_eq_some_iff.mpr ⟨k, hk, htakes₂⟩, hR'⟩

/-- Two engines are in step if they have the same frames and their instructions do the same. -/
theorem lockstep_of_carry (hok : Fine (.ok ()))
    (hframes : ∀ {e₁ e₂}, R e₁ e₂ → e₂.frames = e₁.frames)
    (hmark : ∀ {e₁ e₂} status, R e₁ e₂ → R { e₁ with status } { e₂ with status })
    (hmove : ∀ {e₁ e₂} frames, R e₁ e₂ → R { e₁ with frames } { e₂ with frames })
    (hcarry : ∀ {offset i e₁ e₂ e₁' r}, R e₁ e₂ → Fine r → Engine.Carries offset i e₁ r e₁' →
      ∃ e₂', Engine.Carries offset i e₂ r e₂' ∧ R e₁' e₂') :
    builtins.Lockstep nesting Fine R := by
  refine ⟨hok, hframes, hmark, ?_⟩
  intro e₁ e₂ e₁' r hR hr hstep
  cases he₁ : e₁.frames with
  | nil =>
    rw [step_of_nil builtins nesting he₁] at hstep
    cases hstep
    exact ⟨e₂, step_of_nil builtins nesting ((hframes hR).trans he₁), hR⟩
  | cons f below =>
    -- the current frame is the same, so both return, fail to fetch or carry out one instruction
    rw [step_eq builtins nesting ((hframes hR).trans he₁)]
    rw [step_eq builtins nesting he₁] at hstep
    cases hend : f.atEnd with
    | true =>
      rw [hend, if_pos rfl] at hstep
      cases hstep
      exact ⟨_, rfl, hmove below hR⟩
    | false =>
      rw [hend, if_neg Bool.false_ne_true] at hstep
      rw [if_neg Bool.false_ne_true]
      rcases hfetch : f.fetch with ⟨x | i, f'⟩
      · rw [hfetch] at hstep
        cases hstep
        exact ⟨_, rfl, hmove (f' :: below) hR⟩
      · rw [hfetch] at hstep
        dsimp only at hstep ⊢
        obtain ⟨e₂', hcarries, hR'⟩ :=
          hcarry (hmove (f' :: below) hR) hr (effect_eq_some_iff.mp hstep)
        exact ⟨e₂', effect_eq_some_iff.mpr hcarries, hR'⟩

end Services

end LedgerNode
