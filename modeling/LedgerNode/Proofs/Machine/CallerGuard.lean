import LedgerNode.Proofs.Machine.Assembled
import LedgerNode.Proofs.Machine.Course
import LedgerNode.Proofs.Machine.Equality

/-!
# A contract that lets only one caller pass

A script can vouch for who has called it: it asks for the hash of the calling script, compares that
with the hash that lies on the evaluation stack, and asserts that they are equal. The contract that
does just this returns to the right caller without a trace, and faults for any other item than the
hash of its caller.

- `guard`, `guardCode`: the contract and its three instructions.
- `Engine.inGuard`: an engine at one of these instructions (`Services.step_inGuard`).
- `Services.guard_asks`, `Services.guard_compares`, `Services.guard_asserts`: what they do.
- `Services.guard_lets_caller_pass`: a call of the guard from first to last.
-/

namespace LedgerNode

/-- The instructions of the guard. -/
def guardCode : List Instruction :=
  [.syscall (Bytes.ofText Syscall.getCallingScriptHash.name), .equal, .throwIfNot]

/-- The contract that faults unless the item on top is the hash of its caller. -/
def guard : Bytes :=
  guardCode.flatMap Instruction.encode

/-- The guard as it is assembled. -/
theorem assemble_guard :
    assemble [.syscall Syscall.getCallingScriptHash.name, .emit .equal, .emit .throwIfNot] =
      .ok guard :=
  rfl

/-- The engine with other stacks, where the current frame is one of the guard at its `k`-th
instruction. -/
def Engine.inGuard (e : Engine) (k : Nat) (callers : List Frame) (stack : List Item) : Engine :=
  { e with
    frames := { Frame.start guard callers.length with ip := Script.offset guardCode k } :: callers
    stack }

namespace Services

open Engine (Carries)

variable (nesting : Nat) (e : Engine) (callers : List Frame)

/-- A step in the guard carries out one of its instructions. -/
theorem step_inGuard {k : Nat} {i : Instruction} (hi : guardCode[k]? = some i) (stack : List Item)
    {e' : Engine} {r : Except Fault Unit} :
    builtins.step nesting (e.inGuard k callers stack) = some (r, e') ↔
      Carries (Script.offset guardCode k) i (e.inGuard (k + 1) callers stack) r e' := by
  have hfits : ∀ i ∈ guardCode, i.inlineLength ≤ maxInlineLength := by decide
  rw [step_at_offset hfits (f := { Frame.start guard callers.length with
    ip := Script.offset guardCode k }) rfl rfl rfl hi, effect_eq_some_iff]
  rfl

/-- The guard asks for the hash of its caller. -/
theorem guard_asks (caller : Frame) (below : List Frame) (stack : List Item)
    (hroom : stack.length < e.limits.maxStackSize) :
    builtins.step nesting (e.inGuard 0 (caller :: below) stack) =
      some (.ok (), e.inGuard 1 (caller :: below)
        (.ofHash (Hash.digest caller.script) :: stack)) := by
  rw [step_inGuard nesting e _ rfl]
  refine .done (e := e.inGuard 1 (caller :: below) stack) ?_ rfl hroom
  rw [Instruction.onStack_syscall, Bytes.text?_ofText]
  dsimp only
  rw [Engine.offer, ofName?_name, ← caller.codeHash_get]
  rfl

/-- It compares that hash with the item below it. -/
theorem guard_compares (hash : Hash) (item : Item) {rest : List Item}
    (hroom : rest.length < e.limits.maxStackSize) :
    builtins.step nesting (e.inGuard 1 callers (.ofHash hash :: item :: rest)) =
      some (.ok (), e.inGuard 2 callers
        (.boolean (decide (item.bytes? = some hash.bytes)) :: rest)) := by
  rw [step_inGuard nesting e callers rfl]
  refine .done (e := e.inGuard 2 callers (.ofHash hash :: item :: rest)) ?_ rfl hroom
  have hkey : (Item.ofHash hash).key = .inr hash.bytes := rfl
  have hcompare := item.equalTo_eq Opcode.equal.mnemonic (.ofHash hash)
  simp only [hkey, Item.key_eq_inr_iff] at hcompare
  show Instruction.equal.onStack _ _ (Item.ofHash hash :: item :: rest) = _
  rw [Instruction.onStack_equal, hcompare]

/-- It asserts that they are equal. -/
theorem guard_asserts (same : Bool) {rest : List Item}
    (hroom : rest.length ≤ e.limits.maxStackSize) :
    builtins.step nesting (e.inGuard 2 callers (.boolean same :: rest)) =
      some (if same then .ok () else .error (.assertionFailed (Script.offset guardCode 2)),
        e.inGuard 3 callers rest) := by
  let before : Engine := e.inGuard 3 callers (.boolean same :: rest)
  have hon : Instruction.throwIfNot.onStack before.offer (Script.offset guardCode 2) before.stack =
      (if same then .ok () else .error (.assertionFailed (Script.offset guardCode 2)), rest) :=
    Instruction.onStack_throwIfNot (.boolean same) rest
  rw [step_inGuard nesting e callers rfl]
  cases same with
  | true => exact .done hon rfl hroom
  | false => exact .fail hon

/-- Behind its last instruction the guard returns. -/
theorem guard_returns (stack : List Item) :
    builtins.step nesting (e.inGuard 3 callers stack) =
      some (.ok (), { e with frames := callers, stack }) :=
  step_of_atEnd builtins nesting (e := e.inGuard 3 callers stack) rfl rfl

/-- A contract can ask to be called by one script only. Where an engine is about to call the guard,
which is deployed, and where there is room for a frame and an item more, the call leaves no trace if
the item on top has the hash of the calling script for its bytes: behind five steps only that item
is gone, and the caller goes on behind the call. With any other item the assertion in the guard
fails, and the guard is still on the invocation stack. -/
theorem guard_lets_caller_pass (nesting : Nat) {e : Engine} {caller : Frame} {below : List Frame}
    {table : Contracts} {item : Item} {rest : List Item} (he : e.frames = caller :: below)
    (hnext : caller.next = .ok (.appCall (Hash.digest guard)))
    (htable : e.contracts = some table) (hguard : table.find? (Hash.digest guard) = some guard)
    (hdepth : e.depth < e.limits.maxInvocationDepth) (hstack : e.stack = item :: rest)
    (hroom : e.stack.length < e.limits.maxStackSize) :
    let called : Frame := { caller with ip := caller.ip + 33 }
    (item.bytes? = some (Hash.digest caller.script).bytes →
      builtins.Course nesting 5 e { e with frames := called :: below, stack := rest }) ∧
    (item.bytes? ≠ some (Hash.digest caller.script).bytes →
      ∃ e₃, builtins.Course nesting 3 e e₃ ∧
        builtins.step nesting e₃ =
          some (.error (.assertionFailed (Script.offset guardCode 2)), { e with
            frames := { Frame.start guard (below.length + 1) with ip := guard.length } ::
              called :: below
            stack := rest })) := by
  intro called
  rw [hstack, List.length_cons] at hroom
  rw [Engine.depth, he, List.length_cons] at hdepth
  have henter : builtins.step nesting e =
      some (.ok (), e.inGuard 0 (called :: below) (item :: rest)) := by
    rw [← hstack]
    exact step_of_call builtins nesting he hnext htable hguard hdepth (hstack ▸ Nat.le_of_lt hroom)
  have hasks := guard_asks nesting e called below (item :: rest) hroom
  have hcompares := guard_compares nesting e (called :: below) (Hash.digest caller.script) item
    (Nat.lt_of_succ_lt hroom)
  have hasserts (same : Bool) := guard_asserts nesting e (called :: below) same
    (Nat.le_of_succ_le (Nat.le_of_lt hroom))
  constructor
  · intro hitem
    rw [decide_eq_true hitem] at hcompares
    exact .step henter (.step hasks (.step hcompares (.step (hasserts true)
      (.step (guard_returns nesting e _ rest) .refl))))
  · intro hitem
    rw [decide_eq_false hitem] at hcompares
    exact ⟨_, .step henter (.step hasks (.step hcompares .refl)), hasserts false⟩

/-- The code that calls the guard and then does nothing. -/
def guardCall : Bytes :=
  (Instruction.appCall (Hash.digest guard)).encode ++ Instruction.nop.encode

/-- An engine that is about to call the guard over an item. -/
def callingGuard (item : Item) : Engine where
  frames := [Frame.start guardCall 0]
  stack := [item]
  container := ⟨0, Hash.zero, []⟩
  contracts := some (Contracts.deploy ∅ guard)

/-- The guard takes the hash of its caller away, and stops at a truth value. -/
theorem guard_lets_caller_pass_hash_or_truth :
    builtins.Course 0 5 (callingGuard (.ofHash (Hash.digest guardCall)))
      { callingGuard (.ofHash (Hash.digest guardCall)) with
        frames := [{ Frame.start guardCall 0 with ip := 33 }], stack := [] } ∧
    ∃ e₃ e', builtins.Course 0 3 (callingGuard (.boolean true)) e₃ ∧
      builtins.step 0 e₃ = some (.error (.assertionFailed 46), e') ∧ e'.depth = 2 := by
  have hnext : (Frame.start guardCall 0).next = .ok (.appCall (Hash.digest guard)) :=
    Instruction.parse_appCall 0 (Hash.digest guard) Instruction.nop.encode
  have hguard : (Contracts.deploy ∅ guard).find? (Hash.digest guard) = some guard := by
    rw [Contracts.deploy, Table.find?_insertNew, if_pos rfl, Table.find?_empty]
    rfl
  have hpass (item : Item) := guard_lets_caller_pass 0 (e := callingGuard item) rfl hnext rfl
    hguard (show 1 < 1024 by decide) rfl (show 1 < 2048 by decide)
  have hother : (Item.boolean true).bytes? ≠ some (Hash.digest guardCall).bytes := by
    intro h
    have hlength := congrArg List.length (Option.some.inj h)
    rw [(Hash.digest guardCall).length_bytes] at hlength
    cases hlength
  obtain ⟨e₃, hcourse, hfault⟩ := (hpass (.boolean true)).2 hother
  exact ⟨(hpass _).1 rfl, e₃, _, hcourse, hfault, rfl⟩

end Services

end LedgerNode
