import LedgerNode.Proofs.Machine.Course
import Mathlib.Data.List.Forall2

/-!
# The container is opaque to scripts

Scripts may ask for the host object that they are run for and pass it around, but they cannot tell
it from another one: it has no bytes, it counts as true whatever it is, and it equals itself and no
other item. So two runs for different objects go alike, step by step, with one object wherever the
other run has the other.

- `Item.Swapped`: two items that differ at most in one being an object and the other being another.
- `Agrees`: the same fault twice, or two results in relation.
- `Instruction.onStack_swapped`: an instruction makes the same of stacks that differ so.
- `Engine.Swapped`: two engines that differ so, and `Services.lockstep_swapped`: they take the same
  steps.
- `Services.run_opaque`: the runs of two engines that differ only in the object.
-/

namespace LedgerNode

/-- Two items that are the same and no host object, or the two objects. -/
inductive Item.Swapped (old new : Container) : Item → Item → Prop where
  | same {item : Item} (h : item.container? = none) : Swapped old new item item
  | object : Swapped old new (.interop old) (.interop new)

/-- The same fault on both sides, or results on both sides that are in relation. -/
inductive Agrees {α β : Type} (R : α → β → Prop) : Except Fault α → Except Fault β → Prop where
  | ok {a : α} {b : β} (h : R a b) : Agrees R (.ok a) (.ok b)
  | error {x : Fault} : Agrees R (.error x) (.error x)

theorem Agrees.of_eq {α : Type} {R : α → α → Prop} (hrefl : ∀ a, R a a) (r : Except Fault α) :
    Agrees R r r := by
  cases r with
  | ok a => exact .ok (hrefl a)
  | error x => exact .error

theorem Agrees.map {α β γ δ : Type} {R : α → β → Prop} {S : γ → δ → Prop} {r : Except Fault α}
    {r' : Except Fault β} (h : Agrees R r r') {f : α → γ} {g : β → δ}
    (hmap : ∀ a b, R a b → S (f a) (g b)) : Agrees S (r.map f) (r'.map g) := by
  cases h with
  | ok h => exact .ok (hmap _ _ h)
  | error => exact .error

variable {old new : Container}

namespace Item

theorem Swapped.truth_eq {a a' : Item} (h : Swapped old new a a') : a'.truth = a.truth := by
  cases h <;> rfl

/-- Comparisons have the same outcome. Two objects of one run are the same object. -/
theorem Swapped.equalTo_eq {a a' b b' : Item} (ha : Swapped old new a a')
    (hb : Swapped old new b b') (instruction : String) :
    a'.equalTo instruction b' = a.equalTo instruction b := by
  cases ha with
  | same ha =>
    cases hb with
    | same => rfl
    | object =>
      cases a with
      | interop => cases ha
      | _ => rfl
  | object =>
    -- an object equals itself only, and which object it is does not matter to that
    cases hb with
    | same hb =>
      cases b with
      | interop => cases hb
      | _ => rfl
    | object =>
      show Except.ok (decide (new.identity = new.identity)) =
        .ok (decide (old.identity = old.identity))
      rw [decide_eq_true rfl, decide_eq_true rfl]

end Item

namespace Instruction

variable {offer offer' : String → Except Fault Item}
  (hoffer : ∀ name, Agrees (Item.Swapped old new) (offer name) (offer' name))
include hoffer

/-- An instruction has the same results on operands that differ only in the object. -/
theorem results_swapped (offset : Nat) (i : Instruction) {operands operands' : List Item}
    (h : List.Forall₂ (Item.Swapped old new) operands operands') :
    Agrees (List.Forall₂ (Item.Swapped old new)) (i.results offer offset operands)
      (i.results offer' offset operands') := by
  cases i with
  | nop | drop | ret | appCall => exact .ok .nil
  | pushData | pushInt => exact .ok (.cons (.same rfl) .nil)
  | dup =>
    rcases h with _ | ⟨ha, _ | _⟩
    · exact .ok .nil
    · exact .ok (.cons ha (.cons ha .nil))
    · exact .ok .nil
  | equal =>
    rcases h with _ | ⟨hb, _ | ⟨ha, _ | _⟩⟩
    · exact .ok .nil
    · exact .ok .nil
    · dsimp only [results]
      rw [ha.equalTo_eq hb]
      exact (Agrees.of_eq (fun _ => rfl) _).map fun _ _ h => h ▸ .cons (.same rfl) .nil
    · exact .ok .nil
  | throwIfNot =>
    rcases h with _ | ⟨ha, _ | _⟩
    · exact .ok .nil
    · dsimp only [results]
      rw [ha.truth_eq]
      split
      · exact .ok .nil
      · exact .error
    · exact .ok .nil
  | syscall service =>
    dsimp only [results]
    cases service.text? with
    | none => exact .error
    | some name => exact (hoffer name).map fun _ _ h => .cons h .nil

/-- So it makes the same of the evaluation stack, but for the object. -/
theorem onStack_swapped {offset : Nat} {i : Instruction} {stack stack' left : List Item}
    {r : Except Fault Unit} (h : List.Forall₂ (Item.Swapped old new) stack stack')
    (hon : i.onStack offer offset stack = (r, left)) :
    ∃ left', i.onStack offer' offset stack' = (r, left') ∧
      List.Forall₂ (Item.Swapped old new) left left' := by
  have hresults := results_swapped hoffer offset i (List.forall₂_take i.arity h)
  have hdrop := List.forall₂_drop i.arity h
  unfold onStack at hon ⊢
  rw [← h.length_eq]
  by_cases hlack : stack.length < i.arity
  · rw [if_pos hlack] at hon ⊢
    cases hon
    exact ⟨[], rfl, .nil⟩
  · rw [if_neg hlack] at hon ⊢
    generalize i.results offer offset (stack.take i.arity) = pushed at hon hresults
    generalize i.results offer' offset (stack'.take i.arity) = pushed' at hresults ⊢
    cases hresults with
    | ok hpushed =>
      cases hon
      exact ⟨_, rfl, List.rel_append hpushed hdrop⟩
    | error =>
      cases hon
      exact ⟨_, rfl, hdrop⟩

end Instruction

namespace Engine

/-- The second engine is the first with another object, also wherever that one is on the evaluation
stack. -/
structure Swapped (old new : Container) (e₁ e₂ : Engine) : Prop where
  container_eq : e₁.container = old
  stack : List.Forall₂ (Item.Swapped old new) e₁.stack e₂.stack
  eq : e₂ = { e₁ with container := new, stack := e₂.stack }

/-- Services offer the same, but for the object. -/
theorem offer_swapped (e : Engine) (new : Container) (stack : List Item) (name : String) :
    Agrees (Item.Swapped e.container new) (e.offer name)
      ({ e with container := new, stack }.offer name) := by
  -- a hash is taken from a frame, and the frames are the same
  have hhash (frame : Except Fault Frame) :
      Agrees (Item.Swapped e.container new) (frame.map fun f => .ofHash f.codeHash.get)
        (frame.map fun f => .ofHash f.codeHash.get) :=
    (Agrees.of_eq (fun _ => rfl) frame).map fun _ _ h => h ▸ .same rfl
  unfold offer
  cases Syscall.ofName? name with
  | none => exact .error
  | some s =>
    cases s with
    | getScriptContainer => exact .ok .object
    | getExecutingScriptHash => exact hhash e.current
    | getCallingScriptHash => exact hhash e.calling
    | getEntryScriptHash => exact hhash e.entry

/-- An instruction does the same to both engines, but for the object. -/
theorem Carries.swapped {offset : Nat} {i : Instruction} {e₁ e₂ e₁' : Engine}
    {r : Except Fault Unit} (hswapped : Swapped old new e₁ e₂) (h : Carries offset i e₁ r e₁') :
    ∃ e₂', Carries offset i e₂ r e₂' ∧ Swapped old new e₁' e₂' := by
  obtain ⟨rfl, hstack, heq⟩ := hswapped
  generalize e₂.stack = stack₂ at hstack heq
  subst heq
  have hoffer := offer_swapped e₁ new stack₂
  cases h with
  | fail hon =>
    obtain ⟨left, hon', hleft⟩ := Instruction.onStack_swapped hoffer hstack hon
    exact ⟨_, .fail hon', rfl, hleft, rfl⟩
  | stuck hon hframes =>
    obtain ⟨left, hon', hleft⟩ := Instruction.onStack_swapped hoffer hstack hon
    exact ⟨_, .stuck hon' hframes, rfl, hleft, rfl⟩
  | overflow hon hframes hfull =>
    obtain ⟨left, hon', hleft⟩ := Instruction.onStack_swapped hoffer hstack hon
    -- stacks that differ in the object only are of one size
    rw [hleft.length_eq] at hfull ⊢
    exact ⟨_, .overflow hon' hframes hfull, rfl, hleft, rfl⟩
  | done hon hframes hroom =>
    obtain ⟨left, hon', hleft⟩ := Instruction.onStack_swapped hoffer hstack hon
    rw [hleft.length_eq] at hroom
    exact ⟨_, .done hon' hframes hroom, rfl, hleft, rfl⟩

end Engine

namespace Services

open Engine (Swapped)

/-- Whatever an engine does, it does for another object too. -/
theorem lockstep_swapped (nesting : Nat) (old new : Container) :
    builtins.Lockstep nesting (fun _ => True) (Swapped old new) := by
  refine lockstep_of_carry trivial ?_ ?_ ?_ ?_
  · rintro e₁ e₂ ⟨-, -, heq⟩
    rw [heq]
  · rintro e₁ e₂ status ⟨hcontainer, hstack, heq⟩
    refine ⟨hcontainer, hstack, ?_⟩
    rw [heq]
  · rintro e₁ e₂ frames ⟨hcontainer, hstack, heq⟩
    refine ⟨hcontainer, hstack, ?_⟩
    rw [heq]
  · intro offset i e₁ e₂ e₁' r hswapped _ h
    exact h.swapped hswapped

/-- Scripts cannot tell the object they run for. An engine that begins without objects on its
evaluation stack comes to the same result in the same number of steps for any other object, and
leaves the same, with the other object wherever its own one was. -/
theorem run_opaque (e : Engine) (other : Container)
    (hstack : ∀ item ∈ e.stack, item.container? = none) (nesting : Nat) :
    ∃ k r e' stack, builtins.RunsIn nesting k e r e' ∧
      builtins.RunsIn nesting k { e with container := other } r
        { e' with container := other, stack } ∧
      List.Forall₂ (Item.Swapped e.container other) e'.stack stack := by
  obtain ⟨k, r, e', htakes⟩ := exists_takes nesting { e with status := .none }
  have hsame : List.Forall₂ (Item.Swapped e.container other) e.stack e.stack :=
    List.forall₂_same.mpr fun item hitem => .same (hstack item hitem)
  have hswapped : Swapped e.container other { e with status := .none }
      { e with container := other, status := .none } := ⟨rfl, hsame, rfl⟩
  obtain ⟨e₂, htakes₂, -, hleft, heq⟩ :=
    (lockstep_swapped nesting e.container other).takes hswapped trivial htakes
  rw [heq] at htakes₂
  exact ⟨k, r, e', e₂.stack, htakes.runsIn, htakes₂.runsIn, hleft⟩

/-- The call that asks for the object. -/
def ask : Instruction :=
  .syscall (Bytes.ofText Syscall.getScriptContainer.name)

/-- An engine whose script asks for the object that it runs for. -/
def asking : Engine where
  frames := [Frame.start ask.encode 0]
  container := ⟨0, Hash.zero, []⟩

/-- A script that asks for its object gets another one if it runs for another one. -/
theorem run_opaque_asking :
    (∀ item ∈ asking.stack, item.container? = none) ∧
    ∃ e', builtins.RunsIn 0 2 asking (.ok ()) e' ∧ e'.stack = [.interop ⟨0, Hash.zero, []⟩] ∧
      builtins.RunsIn 0 2 { asking with container := ⟨1, Hash.zero, [7]⟩ } (.ok ())
        { e' with container := ⟨1, Hash.zero, [7]⟩, stack := [.interop ⟨1, Hash.zero, [7]⟩] } := by
  have hstack : ∀ item ∈ asking.stack, item.container? = none := nofun
  obtain ⟨k, r, e', stack, hruns, hother, hleft⟩ := run_opaque asking ⟨1, Hash.zero, [7]⟩ hstack 0
  have hask : builtins.step 0 asking = some (.ok (), { asking with
      frames := [(Frame.start ask.encode 0).skip ask.size],
      stack := [.interop asking.container] }) := by
    have hnext : (Frame.start ask.encode 0).next = .ok ask := rfl
    rw [step_of_next_ok builtins 0 rfl hnext, ask, effect_syscall, dispatch_of_item rfl]
    rfl
  have hend : ((Frame.start ask.encode 0).skip ask.size).atEnd = true := rfl
  have htakes := Takes.step (List.cons_ne_nil _ _) hask
    (.step (List.cons_ne_nil _ _) (step_of_atEnd builtins 0 rfl hend) (.halt rfl))
  obtain ⟨rfl, rfl, rfl⟩ := RunsIn.unique (Takes.runsIn htakes) hruns
  refine ⟨hstack, _, hruns, rfl, ?_⟩
  rcases hleft with _ | ⟨hitem, _ | _⟩
  cases hitem with
  | same h => cases h
  | object => exact hother

end Services

end LedgerNode
