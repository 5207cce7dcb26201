import LedgerNode.Proofs.Machine.Course

/-!
# What the limits do to a run

An engine looks at the depth limit before it enters a contract and at the limit of its evaluation
stack behind every instruction, and does nothing with them but fail. The evaluation stack may then
be past its limit, but by one item only, since no instruction leaves more than one item more than it
found.

- `Engine.Sized`: how large the evaluation stack is behind a result. An instruction, a step and a
  run that begin within the limit end so (`Engine.Carries.sized`, `Services.step_sized`,
  `Services.Takes.sized`).
- `Services.run_sized`: the sizes throughout a run that begins within the limit.
- `Engine.AtLimit`: the results that limits have a part in, and `Engine.Widened`: an engine that is
  taken to wider limits.
- `Services.run_of_wider`: a run that does not fail at a limit comes to the same under wider limits.
-/

namespace LedgerNode

/-! ## The size of the evaluation stack -/

namespace Engine

/-- The evaluation stack is within its limit, or it is one item larger and the result says so. -/
inductive Sized (limit : Nat) (stack : List Item) : Except Fault Unit → Prop where
  | within {r : Except Fault Unit} (hr : ∀ size limit, r ≠ .error (.stackOverflow size limit))
    (hstack : stack.length ≤ limit) : Sized limit stack r
  | above (hstack : stack.length = limit + 1) :
    Sized limit stack (.error (.stackOverflow (limit + 1) limit))

end Engine

namespace Instruction

variable {offer : String → Except Fault Item} {offset : Nat} {i : Instruction}
  {stack stack' : List Item}

theorem length_onStack_le (h : i.onStack offer offset stack = (.ok (), stack')) :
    stack'.length ≤ stack.length + 1 := by
  rcases onStack_eq_ok h with hle | ⟨item, rfl⟩
  · exact Nat.le_succ_of_le hle
  · exact Nat.le_refl _

theorem length_onStack_error_le {x : Fault}
    (h : i.onStack offer offset stack = (.error x, stack')) : stack'.length ≤ stack.length := by
  rcases onStack_eq_error h with ⟨-, -, rfl⟩ | ⟨-, -, item, -, rfl⟩ | ⟨-, -, rfl, -⟩
  · exact Nat.zero_le _
  · exact Nat.le_succ _
  · exact Nat.le_refl _

/-- No instruction has a fault of its own that speaks of the limit of the evaluation stack. -/
theorem onStack_ne_stackOverflow {e : Engine} {x : Fault}
    (h : i.onStack e.offer offset stack = (.error x, stack')) (size limit : Nat) :
    x ≠ .stackOverflow size limit := by
  rcases onStack_eq_error h with ⟨-, rfl, -⟩ | ⟨-, rfl, -⟩ |
    ⟨-, -, -, ⟨rfl, -⟩ | ⟨name, -, hoffer⟩⟩
  · exact nofun
  · exact nofun
  · exact nofun
  · rcases Engine.offer_eq_error hoffer with ⟨rfl, -⟩ | ⟨rfl, -⟩ | ⟨rfl, -⟩ <;> exact nofun

end Instruction

namespace Engine

/-- An instruction that begins within the limit ends within it or one item above. -/
theorem Carries.sized {e e' : Engine} {offset : Nat} {i : Instruction} {r : Except Fault Unit}
    (h : Carries offset i e r e') (hstack : e.stack.length ≤ e.limits.maxStackSize) :
    Sized e.limits.maxStackSize e'.stack r := by
  cases h with
  | fail hon =>
    refine .within ?_ (Nat.le_trans (Instruction.length_onStack_error_le hon) hstack)
    rintro size limit ⟨rfl⟩
    exact Instruction.onStack_ne_stackOverflow hon size limit rfl
  | stuck hon hframes =>
    -- a call, which leaves the evaluation stack alone
    obtain ⟨contract, rfl, hx⟩ := onFrames_eq_error hframes
    cases hon
    refine .within ?_ hstack
    rintro size limit ⟨rfl⟩
    rcases hx with ⟨hx, -⟩ | ⟨hx, -⟩ | ⟨hx, -⟩ <;> cases hx
  | @overflow stack _ hon _ hfull =>
    have hle := Instruction.length_onStack_le hon
    have heq : stack.length = e.limits.maxStackSize + 1 := by omega
    rw [heq]
    exact .above heq
  | done _ _ hroom => exact .within nofun hroom

end Engine

namespace Services

open Engine (Sized)

variable {nesting : Nat}

/-- So does a step. -/
theorem step_sized {e e' : Engine} {r : Except Fault Unit}
    (hstack : e.stack.length ≤ e.limits.maxStackSize)
    (hstep : builtins.step nesting e = some (r, e')) :
    Sized e.limits.maxStackSize e'.stack r := by
  cases he : e.frames with
  | nil =>
    rw [step_of_nil builtins nesting he] at hstep
    cases hstep
    exact .within nofun hstack
  | cons f below =>
    cases turn_of_step he hstep with
    | leave => exact .within nofun hstack
    | misread _ hnext =>
      refine .within ?_ hstack
      rintro size limit ⟨rfl⟩
      rcases Instruction.parse_eq_error hnext with ⟨b, hx, -⟩ | hx <;> cases hx
    | carry _ hcarries => exact hcarries.sized hstack

/-- A step that succeeds stays within the limit, which it leaves as it is. -/
theorem step_within {e e' : Engine} (hstack : e.stack.length ≤ e.limits.maxStackSize)
    (hstep : builtins.step nesting e = some (.ok (), e')) :
    e'.limits = e.limits ∧ e'.stack.length ≤ e'.limits.maxStackSize := by
  have hlimits : e'.limits = e.limits := by
    by_cases hnil : e.frames = []
    · rw [step_of_nil builtins nesting hnil] at hstep
      cases hstep
    · exact (moves_of_step hnil hstep).1.limits
  refine ⟨hlimits, ?_⟩
  rw [hlimits]
  cases step_sized hstack hstep with
  | within _ h => exact h

theorem Course.within {k : Nat} {e e' : Engine} (h : builtins.Course nesting k e e')
    (hstack : e.stack.length ≤ e.limits.maxStackSize) :
    e'.stack.length ≤ e.limits.maxStackSize := by
  induction h with
  | refl => exact hstack
  | step hstep _ ih =>
    obtain ⟨hlimits, hwithin⟩ := step_within hstack hstep
    rw [← hlimits]
    exact ih hwithin

theorem Takes.sized {k : Nat} {e e' : Engine} {r : Except Fault Unit}
    (h : builtins.Takes nesting k e r e') (hstack : e.stack.length ≤ e.limits.maxStackSize) :
    Sized e.limits.maxStackSize e'.stack r := by
  induction h with
  | halt => exact .within nofun hstack
  -- only the last step can leave the limit behind
  | fault _ hstep => exact (step_sized hstack hstep :)
  | step _ hstep _ ih =>
    obtain ⟨hlimits, hwithin⟩ := step_within hstack hstep
    rw [← hlimits]
    exact ih hwithin

/-- A run that begins within the limit of the evaluation stack stays within it. Only a run that
fails for this very limit leaves more items, and then just one more. -/
theorem run_sized {e : Engine} (hstack : e.stack.length ≤ e.limits.maxStackSize) (nesting : Nat) :
    (∀ k e₁, builtins.Course nesting k { e with status := .none } e₁ →
      e₁.stack.length ≤ e.limits.maxStackSize) ∧
    ∀ n r e', builtins.run nesting n e = some (r, e') →
      match r with
      | .ok () => e'.stack.length ≤ e.limits.maxStackSize ∧ e'.frames = [] ∧ e'.status = .halt
      | .error (.stackOverflow size limit) =>
        limit = e.limits.maxStackSize ∧ size = limit + 1 ∧ e'.stack.length = limit + 1 ∧
          e'.status = .fault
      | .error _ => e'.stack.length ≤ e.limits.maxStackSize ∧ e'.status = .fault := by
  refine ⟨fun k e₁ hcourse => hcourse.within hstack, ?_⟩
  intro n r e' hrun
  obtain ⟨k, -, htakes⟩ := steps_eq_some_iff.mp hrun
  have hsized : Sized e.limits.maxStackSize e'.stack r := htakes.sized hstack
  cases htakes.ended with
  | halt hframes hstatus =>
    cases hsized with
    | within _ hle => exact ⟨hle, hframes, hstatus⟩
  | fault hstatus =>
    cases hsized with
    | above heq => exact ⟨rfl, rfl, heq, hstatus⟩
    | within hne hle =>
      split
      · contradiction
      · rename_i size limit hx
        exact absurd hx (hne size limit)
      · exact ⟨hle, hstatus⟩

/-- An engine within its limit that duplicates its only item. -/
def fullStack : Engine where
  frames := [Frame.start Instruction.dup.encode 0]
  stack := [.integer 7]
  container := ⟨0, Hash.zero, []⟩
  limits := { maxStackSize := 1 }

/-- A run that ends one item above the limit. -/
theorem run_sized_full :
    fullStack.stack.length ≤ fullStack.limits.maxStackSize ∧
    ∃ e', builtins.run 0 1 fullStack = some (.error (.stackOverflow 2 1), e') ∧
      e'.stack.length = 2 ∧ e'.status = .fault := by
  have hstack : fullStack.stack.length ≤ fullStack.limits.maxStackSize := Nat.le_refl 1
  obtain ⟨e', hrun⟩ : ∃ e', builtins.run 0 1 fullStack =
      some (.error (.stackOverflow 2 1), e') := ⟨_, rfl⟩
  obtain ⟨-, -, hsize, hstatus⟩ := (run_sized hstack 0).2 1 _ e' hrun
  exact ⟨hstack, e', hrun, hsize, hstatus⟩

end Services

/-! ## Wider limits -/

namespace Engine

/-- Whether a result is the fault of a limit. -/
def AtLimit (r : Except Fault Unit) : Prop :=
  (∃ limit, r = .error (.invocationDepthExceeded limit)) ∨
    ∃ size limit, r = .error (.stackOverflow size limit)

/-- The second engine is the first, taken from its limits to wider ones. -/
structure Widened (narrow wide : Limits) (e₁ e₂ : Engine) : Prop where
  limits_eq : e₁.limits = narrow
  eq : e₂ = { e₁ with limits := wide }

/-- Where a call is not too deep under a limit, it is not under a greater one. -/
theorem onFrames_of_le {contracts : Option Contracts} {narrow wide : Nat} (hle : narrow ≤ wide)
    {i : Instruction} {frames : List Frame} {r : Except Fault (List Frame)}
    (h : onFrames contracts narrow i frames = r)
    (hr : r ≠ .error (.invocationDepthExceeded narrow)) : onFrames contracts wide i frames = r := by
  cases i with
  | appCall contract =>
    dsimp only [onFrames] at h ⊢
    cases contracts with
    | none => exact h
    | some contracts =>
      dsimp only at h ⊢
      split at h
      · exact h
      · by_cases hfull : narrow ≤ frames.length
        · rw [if_pos hfull] at h
          exact absurd h.symm hr
        · rw [if_neg hfull] at h
          rw [if_neg (by omega)]
          exact h
  | _ => exact h

/-- An instruction that fails at no limit does the same under wider ones. -/
theorem Carries.widened {narrow wide : Limits}
    (hdepth : narrow.maxInvocationDepth ≤ wide.maxInvocationDepth)
    (hsize : narrow.maxStackSize ≤ wide.maxStackSize) {offset : Nat} {i : Instruction}
    {e₁ e₂ e₁' : Engine} {r : Except Fault Unit} (hwidened : Widened narrow wide e₁ e₂)
    (hr : ¬ AtLimit r) (h : Carries offset i e₁ r e₁') :
    ∃ e₂', Carries offset i e₂ r e₂' ∧ Widened narrow wide e₁' e₂' := by
  obtain ⟨rfl, rfl⟩ := hwidened
  have hoffer : { e₁ with limits := wide }.offer = e₁.offer := offer_congr rfl rfl
  cases h with
  | fail hon => exact ⟨_, .fail (hoffer ▸ hon), rfl, rfl⟩
  | stuck hon hframes =>
    have hwide := onFrames_of_le hdepth hframes fun hx => by
      cases hx
      exact hr (.inl ⟨_, rfl⟩)
    exact ⟨_, .stuck (hoffer ▸ hon) hwide, rfl, rfl⟩
  | overflow => exact absurd (.inr ⟨_, _, rfl⟩) hr
  | done hon hframes hroom =>
    have hwide := onFrames_of_le hdepth hframes nofun
    exact ⟨_, .done (hoffer ▸ hon) hwide (Nat.le_trans hroom hsize), rfl, rfl⟩

end Engine

namespace Services

open Engine (AtLimit Widened)

variable {nesting : Nat}

theorem lockstep_widened (nesting : Nat) {narrow wide : Limits}
    (hdepth : narrow.maxInvocationDepth ≤ wide.maxInvocationDepth)
    (hsize : narrow.maxStackSize ≤ wide.maxStackSize) :
    builtins.Lockstep nesting (fun r => ¬ AtLimit r) (Widened narrow wide) := by
  refine lockstep_of_carry ?_ ?_ ?_ ?_ ?_
  · rintro (⟨limit, h⟩ | ⟨size, limit, h⟩) <;> cases h
  · rintro e₁ _ ⟨-, rfl⟩
    rfl
  · rintro e₁ _ status ⟨hlimits, rfl⟩
    exact ⟨hlimits, rfl⟩
  · rintro e₁ _ frames ⟨hlimits, rfl⟩
    exact ⟨hlimits, rfl⟩
  · exact Engine.Carries.widened hdepth hsize

/-- Limits matter to a run only where it fails at one: a run with any other result comes to the same
under wider limits, with the same stacks and the same status. -/
theorem run_of_wider {e e' : Engine} {wide : Limits} {n : Nat} {r : Except Fault Unit}
    (hdepth : e.limits.maxInvocationDepth ≤ wide.maxInvocationDepth)
    (hsize : e.limits.maxStackSize ≤ wide.maxStackSize)
    (hrun : builtins.run nesting n e = some (r, e'))
    (hdeep : ∀ limit, r ≠ .error (.invocationDepthExceeded limit))
    (hfull : ∀ size limit, r ≠ .error (.stackOverflow size limit)) :
    builtins.run nesting n { e with limits := wide } = some (r, { e' with limits := wide }) := by
  have hr : ¬ AtLimit r := by
    rintro (⟨limit, h⟩ | ⟨size, limit, h⟩)
    · exact hdeep limit h
    · exact hfull size limit h
  obtain ⟨e₂, hrun₂, hwidened⟩ :=
    (lockstep_widened nesting hdepth hsize).run ⟨rfl, rfl⟩ hr hrun
  rw [hrun₂, hwidened.eq]

/-- An engine that is full and asserts its only item, which is false. -/
def falseAssertion : Engine where
  frames := [Frame.start Instruction.throwIfNot.encode 0]
  stack := [.integer 0]
  container := ⟨0, Hash.zero, []⟩
  limits := { maxInvocationDepth := 1, maxStackSize := 1 }

/-- More room does not save a run from its assertion. -/
theorem run_of_wider_false_assertion :
    ∃ e', builtins.run 0 1 falseAssertion = some (.error (.assertionFailed 0), e') ∧
      builtins.run 0 1 { falseAssertion with limits := {} } =
        some (.error (.assertionFailed 0), { e' with limits := {} }) := by
  obtain ⟨e', hrun⟩ : ∃ e', builtins.run 0 1 falseAssertion =
      some (.error (.assertionFailed 0), e') := ⟨_, rfl⟩
  exact ⟨e', hrun, run_of_wider (by decide) (by decide) hrun nofun nofun⟩

end Services

end LedgerNode
