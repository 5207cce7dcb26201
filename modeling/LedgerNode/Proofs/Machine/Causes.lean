import LedgerNode.Proofs.Machine.Course

/-!
# What makes a run fail

Of the faults there are, some are for hosts and their handlers, for assembling, or for an engine
without frames. Where only the built-in services are registered a run meets none of these: whenever
it fails, the script of the current frame is to blame, or what it was run with. What the fault says
is then the case in the engine that took the last step, so that the offsets in it can be looked up
in the script.

- `Fault.CausedBy`: what a fault says of an engine and its current frame.
- `Fault.causedBy_of_next`, `Fault.causedBy_of_offer`, `Engine.Carries.causedBy`: this is the case
  when the fault is met in reading, in a service call, or in carrying out an instruction.
- `Services.causedBy_of_step`: so it is in every step that fails.
- `Services.run_fault_has_cause`: and in the last step of every run that fails.
-/

namespace LedgerNode

/-- What a fault says of the engine and the current frame that it is met in. Nothing in a script
brings about the four faults that are never the case: no instruction is given an item of the wrong
type or asks for a frame where there is none, and the other two are for assembling and for
handlers. -/
def Fault.CausedBy (e : Engine) (f : Frame) : Fault → Prop
  | emptyInvocationStack | typeMismatch _ _ _ | operandTooLong _ _ | handler _ => False
  | insufficientDepth required actual =>
    required = 2 ∧ actual = 1 ∧ e.frames = [f] ∧
      f.next = .ok (.syscall (Bytes.ofText Syscall.getCallingScriptHash.name))
  | invalidInstruction opcode offset =>
    offset = f.ip ∧ f.script[offset]? = some opcode ∧ Opcode.ofCode? opcode = none
  | unexpectedEnd ip requested available =>
    ip + available = f.script.length ∧ available < requested
  | assertionFailed offset =>
    offset = f.ip ∧ f.script[offset]? = some Opcode.throwIfNot.code ∧
      ∃ item rest, e.stack = item :: rest ∧ item.truth = false
  | stackUnderflow instruction =>
    ∃ i, f.next = .ok i ∧ instruction = i.opcode.mnemonic ∧ e.stack.length < i.arity
  | stackOverflow size limit => limit = e.limits.maxStackSize ∧ limit < size
  | invalidServiceName => ∃ service, f.next = .ok (.syscall service) ∧ service.text? = none
  | unsupportedService name =>
    f.next = .ok (.syscall (Bytes.ofText name)) ∧ Syscall.ofName? name = none
  | noContractTable => e.contracts = none ∧ ∃ contract, f.next = .ok (.appCall contract)
  | unknownContract contract =>
    f.next = .ok (.appCall contract) ∧
      ∃ table, e.contracts = some table ∧ table.find? contract = none
  | invocationDepthExceeded limit =>
    limit = e.limits.maxInvocationDepth ∧ limit ≤ e.depth ∧
      ∃ contract, f.next = .ok (.appCall contract)

namespace Fault

variable {e : Engine} {f : Frame} {below : List Frame} {x : Fault}

/-- Where no instruction can be read, the byte ahead is no opcode or the script is cut short. -/
theorem causedBy_of_next (hend : f.atEnd = false) (h : f.next = .error x) : x.CausedBy e f := by
  rcases Instruction.parse_eq_error h with ⟨b, rfl, hb, hop⟩ | hcut
  · rw [Frame.ahead, List.head?_drop] at hb
    exact ⟨rfl, hb, hop⟩
  · have hip : ¬ f.script.length ≤ f.ip := of_decide_eq_false hend
    have hstop : f.ip + f.ahead.length = f.script.length := by
      rw [Frame.length_ahead]
      omega
    rw [hstop] at hcut
    cases hcut with
    | mk hstop hshort => exact ⟨hstop, hshort⟩

/-- A built-in service that fails has been asked for a caller by the outermost frame. -/
theorem causedBy_of_offer {name : String} {n : Nat} (he : e.frames = f :: below)
    (hnext : f.next = .ok (.syscall (Bytes.ofText name)))
    (h : { e with frames := f.skip n :: below }.offer name = .error x) : x.CausedBy e f := by
  rcases Engine.offer_eq_error h with ⟨rfl, hname⟩ | ⟨-, hnil⟩ | ⟨rfl, rfl, hshallow⟩
  · exact ⟨hnext, hname⟩
  · cases hnil
  · have hbelow : below = [] := by
      have hlt : below.length + 1 < 2 := hshallow
      exact List.length_eq_zero_iff.mp (by omega)
    subst hbelow
    exact ⟨rfl, rfl, he, hnext⟩

end Fault

namespace Engine

variable {e e' : Engine} {f : Frame} {below : List Frame} {i : Instruction} {x : Fault}

/-- An instruction that fails has the cause in its operands, in the service or the contract it
calls, or in the limits. Only at the limit of the evaluation stack may it have moved frames. -/
theorem Carries.causedBy (he : e.frames = f :: below) (hnext : f.next = .ok i)
    (h : Carries f.ip i { e with frames := f.skip i.size :: below } (.error x) e') :
    x.CausedBy e f ∧
      ((∀ size limit, x ≠ .stackOverflow size limit) → e'.frames = f.skip i.size :: below) := by
  cases h with
  | fail hon =>
    refine ⟨?_, fun _ => rfl⟩
    rcases Instruction.onStack_eq_error hon with ⟨hlack, rfl, -⟩ |
      ⟨rfl, rfl, item, hfalse, hitem⟩ | ⟨service, rfl, -, ⟨rfl, htext⟩ | ⟨name, htext, hoffer⟩⟩
    · exact ⟨i, hnext, rfl, hlack⟩
    · exact ⟨rfl, Frame.getElem?_of_next_ok hnext, item, _, hitem, hfalse⟩
    · exact ⟨service, hnext, htext⟩
    · obtain rfl := Bytes.text?_eq_some_iff.mp htext
      exact Fault.causedBy_of_offer he hnext hoffer
  | stuck hon hframes =>
    refine ⟨?_, fun _ => rfl⟩
    obtain ⟨contract, rfl, ⟨rfl, hnone⟩ | ⟨rfl, htable⟩ | ⟨rfl, hfull⟩⟩ :=
      onFrames_eq_error hframes
    · exact ⟨hnone, contract, hnext⟩
    · exact ⟨hnext, htable⟩
    · refine ⟨rfl, ?_, contract, hnext⟩
      rw [depth, he]
      exact hfull
  | overflow _ _ hfull => exact ⟨⟨rfl, hfull⟩, fun hx => absurd rfl (hx _ _)⟩

end Engine

namespace Services

variable {nesting : Nat} {e e' : Engine} {x : Fault}

/-- What a step fails with is the case. But for an overflow the current frame stays the current
one, and has moved on at most. -/
theorem causedBy_of_step {f : Frame} {below : List Frame} (he : e.frames = f :: below)
    (hstep : builtins.step nesting e = some (.error x, e')) :
    x.CausedBy e f ∧
      ((∀ size limit, x ≠ .stackOverflow size limit) → ∃ n, e'.frames = f.skip n :: below) := by
  cases turn_of_step he hstep with
  | misread hend hnext => exact ⟨Fault.causedBy_of_next hend hnext, fun _ => ⟨_, rfl⟩⟩
  | carry hnext hcarries =>
    obtain ⟨hcause, hframes⟩ := hcarries.causedBy he hnext
    exact ⟨hcause, fun hx => ⟨_, hframes hx⟩⟩

/-- A run of the built-in services fails only for causes that lie in its scripts and in what these
are run with: what the fault says is the case in the engine that takes the last step and in its
current frame. That frame stays the current one unless the evaluation stack is past its limit. -/
theorem run_fault_has_cause {n : Nat} (hrun : builtins.run nesting n e = some (.error x, e')) :
    ∃ k e₁ e₂ f below, builtins.Course nesting k { e with status := .none } e₁ ∧
      builtins.step nesting e₁ = some (.error x, e₂) ∧ e' = { e₂ with status := .fault } ∧
      e₁.frames = f :: below ∧ x.CausedBy e₁ f ∧
      ((∀ size limit, x ≠ .stackOverflow size limit) → ∃ m, e'.frames = f.skip m :: below) := by
  obtain ⟨_, -, htakes⟩ := steps_eq_some_iff.mp hrun
  obtain ⟨k, e₁, e₂, -, hcourse, hne, hstep, rfl⟩ := htakes.exists_failing_step
  obtain ⟨f, below, he₁⟩ := List.exists_cons_of_ne_nil hne
  obtain ⟨hcause, hframes⟩ := causedBy_of_step he₁ hstep
  exact ⟨k, e₁, e₂, f, below, hcourse, hstep, rfl, he₁, hcause, hframes⟩

/-- An engine with an integer that is cut short behind its third byte. -/
def cutInteger : Engine where
  frames := [Frame.start [Opcode.nop.code, Opcode.pushInt.code, 1, 2, 3] 0]
  container := ⟨0, Hash.zero, []⟩

/-- Its run names the offset and the lengths that can be seen in the script. -/
theorem run_fault_has_cause_cut_integer :
    ∃ e', builtins.run 0 2 cutInteger = some (.error (.unexpectedEnd 2 8 3), e') ∧
      ∃ (f : Frame) (below : List Frame), e'.frames = f :: below ∧ 2 + 3 = f.script.length := by
  obtain ⟨e', hrun⟩ : ∃ e', builtins.run 0 2 cutInteger =
      some (.error (.unexpectedEnd 2 8 3), e') := ⟨_, rfl⟩
  obtain ⟨_, _, _, f, below, -, -, -, -, ⟨hlength, -⟩, hframes⟩ := run_fault_has_cause hrun
  obtain ⟨m, hm⟩ := hframes nofun
  exact ⟨e', hrun, f.skip m, below, hm, hlength⟩

end Services

end LedgerNode
