import LedgerNode.Proofs.Machine.Operands

/-!
# What a fault leaves behind

A fault undoes nothing. The step that meets it has moved the current frame on, since the opcode at
least has been read by then, but it has left no frame and entered none. Of the evaluation stack an
instruction may have taken its operands, or put its result there and only then found it too large.
Which of these it was can be told from the fault.

- `Fault.Leaves`: what a fault leaves of the evaluation stack.
- `Engine.Carries.leaves`: the faults of an instruction.
- `Services.after_fault`: the engine after a step that failed.
-/

namespace LedgerNode

/-- What a fault leaves of the evaluation stack. An assertion has taken its item; an instruction
that lacks operands has used up those there were, which are none but for one of `EQUAL`; an overflow
leaves the item that was too many. All other faults leave everything. -/
def Fault.Leaves : Fault → List Item → List Item → Prop
  | assertionFailed _, before, after => ∃ item, before = item :: after
  | stackUnderflow instruction, before, after =>
    after = [] ∧ (before = [] ∨ instruction = "EQUAL" ∧ ∃ item, before = [item])
  | stackOverflow _ _, before, after => ∃ item, after = item :: before
  | _, before, after => after = before

namespace Instruction

theorem arity_eq_zero {i : Instruction}
    (h : i.opcode ∈ [Opcode.pushData, .pushInt, .appCall, .syscall]) : i.arity = 0 := by
  cases i with
  | pushData | pushInt | appCall | syscall => rfl
  | nop | dup | drop | equal | throwIfNot | ret => exact absurd h (by decide)

/-- Only `EQUAL` can lack an operand where there is an item. -/
theorem of_length_lt_arity {i : Instruction} {stack : List Item} (h : stack.length < i.arity) :
    stack = [] ∨ i = equal ∧ ∃ item, stack = [item] := by
  cases stack with
  | nil => exact .inl rfl
  | cons item rest =>
    cases i with
    | nop | pushData | pushInt | ret | appCall | syscall => cases h
    | dup | drop | throwIfNot => cases Nat.lt_of_succ_lt_succ h
    | equal =>
      have hrest : rest.length < 1 := Nat.lt_of_succ_lt_succ h
      rw [List.length_eq_zero_iff.mp (Nat.lt_one_iff.mp hrest)]
      exact .inr ⟨rfl, item, rfl⟩

/-- An instruction that moves frames leaves the evaluation stack alone, so one that leaves an item
more has moved none. -/
theorem onFrames_of_onStack {i : Instruction} {offer : String → Except Fault Item} {offset : Nat}
    {stack : List Item} {item : Item} {contracts : Option Contracts} {limit : Nat}
    {frames frames' : List Frame} (hon : i.onStack offer offset stack = (.ok (), item :: stack))
    (hframes : Engine.onFrames contracts limit i frames = .ok frames') : frames' = frames := by
  have hgrown : (.ok (), stack) ≠ ((.ok (), item :: stack) : Except Fault Unit × List Item) := by
    intro h
    exact List.cons_ne_self item stack (congrArg Prod.snd h).symm
  cases i with
  | ret | appCall => exact absurd hon hgrown
  | _ =>
    cases hframes
    rfl

end Instruction

/-- Without a frame or without the service, a call of a service takes nothing. -/
theorem Fault.leaves_of_offer {e : Engine} {name : String} {x : Fault}
    (h : e.offer name = .error x) (stack : List Item) : x.Leaves stack stack := by
  rcases Engine.offer_eq_error h with ⟨rfl, -⟩ | ⟨rfl, -⟩ | ⟨rfl, -⟩
  · rfl
  · rfl
  · rfl

/-- Where no instruction can be read, none has taken anything. -/
theorem Fault.leaves_of_parse {offset : Nat} {code : Bytes} {x : Fault}
    (h : Instruction.parse offset code = .error x) (stack : List Item) : x.Leaves stack stack := by
  rcases Instruction.parse_eq_error h with ⟨b, rfl, -⟩ | ⟨-, -⟩
  · rfl
  · rfl

namespace Engine

variable {e e' : Engine} {offset : Nat} {i : Instruction} {x : Fault}

/-- An instruction that fails leaves the frames alone. What it leaves of the evaluation stack can be
told from the fault; an instruction without operands takes nothing. -/
theorem Carries.leaves (h : Carries offset i e (.error x) e')
    (hroom : e.stack.length ≤ e.limits.maxStackSize) :
    e'.frames = e.frames ∧ SameSettings e e' ∧ x.Leaves e.stack e'.stack ∧
      (i.arity = 0 → (∀ size limit, x ≠ .stackOverflow size limit) → e'.stack = e.stack) := by
  cases h with
  | fail hon =>
    refine ⟨rfl, ⟨rfl, rfl, rfl, rfl⟩, ?_⟩
    rcases Instruction.onStack_eq_error hon with ⟨hlack, rfl, rfl⟩ |
      ⟨rfl, rfl, item, -, hitem⟩ | ⟨service, rfl, rfl, hx⟩
    · refine ⟨⟨rfl, ?_⟩, fun harity => ?_⟩
      · exact (Instruction.of_length_lt_arity hlack).imp_right fun ⟨hi, hone⟩ => ⟨hi ▸ rfl, hone⟩
      · rw [harity] at hlack
        cases hlack
    · exact ⟨⟨item, hitem⟩, fun harity => nomatch harity⟩
    · refine ⟨?_, fun _ _ => rfl⟩
      rcases hx with ⟨rfl, -⟩ | ⟨name, -, hoffer⟩
      · rfl
      · exact Fault.leaves_of_offer hoffer _
  | stuck hon hframes =>
    -- a call, which takes nothing
    obtain ⟨contract, rfl, hx⟩ := onFrames_eq_error hframes
    cases hon
    refine ⟨rfl, ⟨rfl, rfl, rfl, rfl⟩, ?_, fun _ _ => rfl⟩
    rcases hx with ⟨rfl, -⟩ | ⟨rfl, -⟩ | ⟨rfl, -⟩
    · rfl
    · rfl
    · rfl
  | overflow hon hframes hfull =>
    rcases Instruction.onStack_eq_ok hon with hle | ⟨item, rfl⟩
    · exact absurd (Nat.le_trans hle hroom) (Nat.not_le_of_lt hfull)
    · refine ⟨Instruction.onFrames_of_onStack hon hframes, ⟨rfl, rfl, rfl, rfl⟩, ⟨item, rfl⟩, ?_⟩
      exact fun _ hx => absurd rfl (hx _ _)

end Engine

namespace Services

/-- A step that fails, where the evaluation stack was within its limit, leaves the frames below the
current one as they are. The current one keeps its script and has moved on, by one byte at least and
not past the end. Nothing else changes but the evaluation stack, and what is left of that can be
told from the fault: where it is the fault of an instruction without operands and no overflow, all
of it. -/
theorem after_fault {nesting : Nat} {e e' : Engine} {f : Frame} {below : List Frame} {x : Fault}
    (he : e.frames = f :: below) (hroom : e.stack.length ≤ e.limits.maxStackSize)
    (hstep : builtins.step nesting e = some (.error x, e')) :
    (∃ n, 0 < n ∧ f.ip + n ≤ f.script.length ∧ e'.frames = { f with ip := f.ip + n } :: below) ∧
    Engine.SameSettings e e' ∧
    x.Leaves e.stack e'.stack ∧
    ∀ op ∈ [Opcode.pushData, .pushInt, .appCall, .syscall], f.script[f.ip]? = some op.code →
      (∀ size limit, x ≠ .stackOverflow size limit) → e'.stack = e.stack := by
  cases hend : f.atEnd with
  | true =>
    rw [step_of_atEnd builtins nesting he hend] at hstep
    cases hstep
  | false =>
    cases hnext : f.next with
    | error y =>
      obtain ⟨n, hpos, hn, hfault⟩ := step_of_next_error builtins nesting he hend hnext
      rw [hfault] at hstep
      cases hstep
      exact ⟨⟨n, hpos, hn, rfl⟩, ⟨rfl, rfl, rfl, rfl⟩, Fault.leaves_of_parse hnext _,
        fun _ _ _ _ => rfl⟩
    | ok i =>
      rw [step_of_next_ok builtins nesting he hnext, effect_eq_some_iff] at hstep
      obtain ⟨hframes, hsame, hleaves, hoperands⟩ := hstep.leaves hroom
      refine ⟨⟨i.size, i.size_pos, (Frame.fetch_of_next_ok hnext).2, hframes⟩,
        ⟨hsame.container, hsame.contracts, hsame.limits, hsame.status⟩, hleaves, ?_⟩
      intro op hop hcode
      rw [Frame.getElem?_of_next_ok hnext, Option.some.injEq] at hcode
      obtain rfl := Opcode.code_inj hcode
      exact hoperands (Instruction.arity_eq_zero hop)

/-- A comparison that lacks an operand has used up the other. -/
theorem after_fault_equal_of_one :
    let e : Engine :=
      { frames := [Frame.start [0x20] 0]
        stack := [.boolean true]
        container := ⟨0, Hash.zero, []⟩ }
    ∃ e', builtins.step 0 e = some (.error (.stackUnderflow "EQUAL"), e') ∧ e'.stack = [] ∧
      ∃ n, 0 < n ∧ n ≤ 1 ∧ e'.frames = [{ Frame.start [0x20] 0 with ip := n }] := by
  intro e
  have hstep : builtins.step 0 e = some (.error (.stackUnderflow "EQUAL"),
      { e with frames := [(Frame.start [0x20] 0).skip 1], stack := [] }) := rfl
  obtain ⟨⟨n, hpos, hn, hframes⟩, -, ⟨hempty, -⟩, -⟩ := after_fault rfl (by decide) hstep
  exact ⟨_, hstep, hempty, n, hpos, by simpa [Frame.start] using hn,
    by simpa [Frame.start] using hframes⟩

end Services

end LedgerNode
