import LedgerNode.Proofs.Machine.Course

/-!
# What lies below a script's own items

The evaluation stack is shared by all frames, but a script has to do only with what it takes off the
top. Items put below everything that an engine has, with as much more room for them, are neither
looked at nor moved in any row of steps that succeed, whatever calls and returns happen on the way.

- `Engine.onTopOf`: an engine with further items below its own ones.
- `Instruction.onStack_append`: an instruction that has its operands leaves what is below them.
- `Engine.Carries.onTopOf`: so an instruction that succeeds does the same on top of them.
- `Services.lockstep_onTopOf`, `Services.course_onTopOf`: and so do steps and rows of steps.
-/

namespace LedgerNode

/-- An instruction that does not fail does the same to a stack that goes on further down. -/
theorem Instruction.onStack_append {offer : String → Except Fault Item} {offset : Nat}
    {i : Instruction} {stack stack' : List Item}
    (h : i.onStack offer offset stack = (.ok (), stack')) (items : List Item) :
    i.onStack offer offset (stack ++ items) = (.ok (), stack' ++ items) := by
  rcases onStack_cases offer offset i stack with ⟨-, hlack⟩ | ⟨x, -, hfail⟩ |
    ⟨henough, pushed, hpushed, hok⟩
  · rw [hlack] at h
    cases h
  · rw [hfail] at h
    cases h
  · rw [hok] at h
    cases h
    -- the operands are all among the upper items
    have hdeep : ¬ (stack ++ items).length < i.arity := by
      rw [List.length_append]
      omega
    rw [onStack, if_neg hdeep, List.take_append_of_le_length henough, hpushed,
      List.drop_append_of_le_length henough, List.append_assoc]

namespace Engine

/-- The engine with items below all of its own, and with as much more room on the evaluation stack.
-/
def onTopOf (items : List Item) (e : Engine) : Engine :=
  { e with
    stack := e.stack ++ items
    limits := { e.limits with maxStackSize := e.limits.maxStackSize + items.length } }

/-- An instruction that succeeds does so on top of further items too, and leaves them there. -/
theorem Carries.onTopOf {offset : Nat} {i : Instruction} {e e' : Engine}
    (h : Carries offset i e (.ok ()) e') (items : List Item) :
    Carries offset i (e.onTopOf items) (.ok ()) (e'.onTopOf items) := by
  have hoffer : (e.onTopOf items).offer = e.offer := offer_congr rfl rfl
  cases h with
  | @done stack frames hon hframes hroom =>
    have hon' : i.onStack (e.onTopOf items).offer offset (e.onTopOf items).stack =
        (.ok (), stack ++ items) := by
      rw [hoffer]
      exact Instruction.onStack_append hon items
    have hroom' : (stack ++ items).length ≤ (e.onTopOf items).limits.maxStackSize := by
      rw [List.length_append]
      exact Nat.add_le_add_right hroom items.length
    exact .done hon' hframes hroom'

end Engine

namespace Services

variable {nesting : Nat}

/-- The engine on top of further items takes the steps of the other one while these succeed. -/
theorem lockstep_onTopOf (nesting : Nat) (items : List Item) :
    builtins.Lockstep nesting (fun r => r = .ok ()) (fun e₁ e₂ => e₂ = e₁.onTopOf items) := by
  refine lockstep_of_carry rfl ?_ ?_ ?_ ?_
  · rintro e₁ _ rfl
    rfl
  · rintro e₁ _ status rfl
    rfl
  · rintro e₁ _ frames rfl
    rfl
  · rintro offset i e₁ _ e₁' _ rfl rfl h
    exact ⟨_, h.onTopOf items, rfl⟩

/-- Steps that all succeed succeed as well with any items at the bottom of the evaluation stack and
as much more room for it. They lead to the same frames, and to the same items on top of those at the
bottom. -/
theorem course_onTopOf {n : Nat} {e e' : Engine} (h : builtins.Course nesting n e e')
    (items : List Item) : builtins.Course nesting n (e.onTopOf items) (e'.onTopOf items) := by
  obtain ⟨_, hcourse, rfl⟩ := (lockstep_onTopOf nesting items).course rfl h
  exact hcourse

/-- An engine that is full and compares its two items. -/
def comparing : Engine where
  frames := [Frame.start Instruction.equal.encode 0]
  stack := [.integer 1, .boolean true]
  container := ⟨0, Hash.zero, []⟩
  limits := { maxStackSize := 2 }

/-- A comparison that leaves an object and a byte string below it as they are, and then returns. -/
theorem course_onTopOf_comparison :
    ∃ e', builtins.Course 0 2 comparing e' ∧ e'.frames = [] ∧ e'.stack = [.boolean true] ∧
      ∃ e₂, builtins.Course 0 2
        { comparing with
          stack := [.integer 1, .boolean true, .interop ⟨7, Hash.zero, []⟩, .bytes [0]]
          limits := { maxStackSize := 4 } } e₂ ∧
        e₂.frames = [] ∧ e₂.stack = [.boolean true, .interop ⟨7, Hash.zero, []⟩, .bytes [0]] := by
  have hcompare : builtins.step 0 comparing = some (.ok (), { comparing with
      frames := [(Frame.start Instruction.equal.encode 0).skip 1]
      stack := [.boolean true] }) := rfl
  have hend : ((Frame.start Instruction.equal.encode 0).skip 1).atEnd = true := rfl
  have hcourse := Course.step hcompare (.step (step_of_atEnd builtins 0 rfl hend) .refl)
  exact ⟨_, hcourse, rfl, rfl, _,
    course_onTopOf hcourse [.interop ⟨7, Hash.zero, []⟩, .bytes [0]], rfl, rfl⟩

end Services

end LedgerNode
