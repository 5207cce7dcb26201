import LedgerNode.Proofs.Machine.Equality

/-!
# Operands and results

Whatever an instruction does to the evaluation stack it does to the top of it: it takes a fixed
number of items and puts its results in their place, at most one more than it has taken. What lies
below it neither sees nor changes. What an instruction does to the invocation stack depends on none
of this. So two engines can be compared in three parts: the results on related operands, the frames,
and the limit of the evaluation stack, which is looked at last.

- `Instruction.arity`, `Instruction.results`: how many items an instruction takes and what it makes
  of them; `Instruction.onStack` is what becomes of the whole evaluation stack
  (`Instruction.onStack_eq_ok`, `Instruction.onStack_eq_error`).
- `Engine.offer`: the item that a call of a built-in service pushes.
- `Engine.onFrames`: what becomes of the invocation stack.
- `Engine.carry`: all of it, and `Engine.Carries`: the ways in which it can end.
- `Services.effect_eq_some_iff`: an instruction does just that where only the built-in services are
  registered.
- `Engine.Turn`: how a step can end, with `Services.turn_of_step`.
-/

namespace LedgerNode

namespace Instruction

/-- How many items an instruction takes off the evaluation stack. -/
def arity : Instruction → Nat
  | dup | drop | throwIfNot => 1
  | equal => 2
  | _ => 0

/-- What the instruction at an offset makes of its operands, the top item first, where `offer` has
the items of the services. -/
def results (offer : String → Except Fault Item) (offset : Nat) (i : Instruction)
    (operands : List Item) : Except Fault (List Item) :=
  match i with
  | pushData data => .ok [.bytes data]
  | pushInt value => .ok [.integer value]
  | dup =>
    match operands with
    | [a] => .ok [a, a]
    | _ => .ok []
  | equal =>
    match operands with
    | [b, a] => (a.equalTo Opcode.equal.mnemonic b).map fun same => [.boolean same]
    | _ => .ok []
  | throwIfNot =>
    match operands with
    | [a] => if a.truth then .ok [] else .error (.assertionFailed offset)
    | _ => .ok []
  | syscall service =>
    match service.text? with
    | none => .error .invalidServiceName
    | some name => (offer name).map fun item => [item]
  | nop | drop | ret | appCall _ => .ok []

/-- What an instruction makes of the evaluation stack. An instruction that lacks operands uses up
those there are, and one that fails has taken its operands. -/
def onStack (offer : String → Except Fault Item) (offset : Nat) (i : Instruction)
    (stack : List Item) : Except Fault Unit × List Item :=
  if stack.length < i.arity then (.error (.stackUnderflow i.opcode.mnemonic), [])
  else
    match i.results offer offset (stack.take i.arity) with
    | .ok pushed => (.ok (), pushed ++ stack.drop i.arity)
    | .error x => (.error x, stack.drop i.arity)

variable {offer : String → Except Fault Item} {offset : Nat} {i : Instruction}

theorem onStack_equal (b a : Item) (rest : List Item) :
    equal.onStack offer offset (b :: a :: rest) =
      match a.equalTo Opcode.equal.mnemonic b with
      | .ok same => (.ok (), .boolean same :: rest)
      | .error x => (.error x, rest) := by
  have hlength : ¬ (b :: a :: rest).length < equal.arity := by simp [arity]
  rw [onStack, if_neg hlength]
  dsimp only [arity, List.take, List.drop, results]
  cases a.equalTo Opcode.equal.mnemonic b <;> rfl

theorem onStack_throwIfNot (a : Item) (rest : List Item) :
    throwIfNot.onStack offer offset (a :: rest) =
      (if a.truth then .ok () else .error (.assertionFailed offset), rest) := by
  have hlength : ¬ (a :: rest).length < throwIfNot.arity := by simp [arity]
  rw [onStack, if_neg hlength]
  dsimp only [arity, List.take, List.drop, results]
  cases a.truth <;> rfl

theorem onStack_syscall (service : Bytes) (stack : List Item) :
    (syscall service).onStack offer offset stack =
      match service.text? with
      | none => (.error .invalidServiceName, stack)
      | some name =>
        match offer name with
        | .ok item => (.ok (), item :: stack)
        | .error x => (.error x, stack) := by
  have hlength : ¬ stack.length < (syscall service).arity := Nat.not_lt_zero _
  rw [onStack, if_neg hlength, results]
  cases service.text? with
  | none => rfl
  | some name =>
    dsimp only
    cases offer name <;> rfl

/-- An instruction has no more results than operands, or it puts an item on top of its operands. -/
theorem results_eq_ok {operands pushed : List Item} (hlength : operands.length = i.arity)
    (h : i.results offer offset operands = .ok pushed) :
    pushed.length ≤ i.arity ∨ ∃ item, pushed = item :: operands := by
  cases i with
  | nop | drop | ret | appCall =>
    cases h
    exact .inl (Nat.zero_le _)
  | pushData | pushInt =>
    cases h
    obtain rfl := List.length_eq_zero_iff.mp hlength
    exact .inr ⟨_, rfl⟩
  | dup =>
    dsimp only [results] at h
    split at h <;> cases h
    · exact .inr ⟨_, rfl⟩
    · exact .inl (Nat.zero_le _)
  | equal =>
    dsimp only [results] at h
    split at h
    · obtain ⟨same, -, rfl⟩ := map_eq_ok_iff.mp h
      exact .inl (Nat.le_succ 1)
    · cases h
      exact .inl (Nat.zero_le _)
  | throwIfNot =>
    dsimp only [results] at h
    split at h
    · split at h <;> cases h
      exact .inl (Nat.zero_le _)
    · cases h
      exact .inl (Nat.zero_le _)
  | syscall service =>
    dsimp only [results] at h
    split at h
    · cases h
    · obtain ⟨item, -, rfl⟩ := map_eq_ok_iff.mp h
      obtain rfl := List.length_eq_zero_iff.mp hlength
      exact .inr ⟨item, rfl⟩

/-- An instruction fails on its operands only in an assertion or in a service call. -/
theorem results_eq_error {operands : List Item} {x : Fault}
    (h : i.results offer offset operands = .error x) :
    (i = throwIfNot ∧ x = .assertionFailed offset ∧
      ∃ item, item.truth = false ∧ operands = [item]) ∨
    ∃ service, i = syscall service ∧ ((x = .invalidServiceName ∧ service.text? = none) ∨
      ∃ name, service.text? = some name ∧ offer name = .error x) := by
  cases i with
  | nop | drop | ret | appCall | pushData | pushInt => cases h
  | dup =>
    dsimp only [results] at h
    split at h <;> cases h
  | equal =>
    dsimp only [results] at h
    split at h
    · rename_i b a
      rw [Item.equalTo_eq] at h
      cases h
    · cases h
  | throwIfNot =>
    dsimp only [results] at h
    split at h
    · split at h
      · cases h
      · rename_i item hfalse
        cases h
        exact .inl ⟨rfl, rfl, item, eq_false_of_ne_true hfalse, rfl⟩
    · cases h
  | syscall service =>
    refine .inr ⟨service, rfl, ?_⟩
    dsimp only [results] at h
    split at h
    · rename_i htext
      cases h
      exact .inl ⟨rfl, htext⟩
    · rename_i name htext
      exact .inr ⟨name, htext, map_eq_error_iff.mp h⟩

/-- What an instruction can make of the evaluation stack: it lacks operands, or it fails with its
operands gone, or its results stand in their place. -/
theorem onStack_cases (offer : String → Except Fault Item) (offset : Nat) (i : Instruction)
    (stack : List Item) :
    (stack.length < i.arity ∧
      i.onStack offer offset stack = (.error (.stackUnderflow i.opcode.mnemonic), [])) ∨
    (∃ x, i.results offer offset (stack.take i.arity) = .error x ∧
      i.onStack offer offset stack = (.error x, stack.drop i.arity)) ∨
    (i.arity ≤ stack.length ∧ ∃ pushed, i.results offer offset (stack.take i.arity) = .ok pushed ∧
      i.onStack offer offset stack = (.ok (), pushed ++ stack.drop i.arity)) := by
  unfold onStack
  split
  · rename_i hlack
    exact .inl ⟨hlack, rfl⟩
  · rename_i henough
    cases hresults : i.results offer offset (stack.take i.arity) with
    | error x => exact .inr (.inl ⟨x, rfl, rfl⟩)
    | ok pushed => exact .inr (.inr ⟨Nat.le_of_not_lt henough, pushed, rfl, rfl⟩)

variable {stack stack' : List Item}

/-- An instruction that does not fail leaves no more items than it found, or one more on top of
them. -/
theorem onStack_eq_ok (h : i.onStack offer offset stack = (.ok (), stack')) :
    stack'.length ≤ stack.length ∨ ∃ item, stack' = item :: stack := by
  rcases onStack_cases offer offset i stack with ⟨-, hlack⟩ | ⟨x, -, hfail⟩ |
    ⟨henough, pushed, hpushed, hok⟩
  · rw [hlack] at h
    cases h
  · rw [hfail] at h
    cases h
  · rw [hok] at h
    cases h
    rcases results_eq_ok (List.length_take_of_le henough) hpushed with hle | ⟨item, rfl⟩
    · left
      rw [List.length_append, List.length_drop]
      omega
    · right
      exact ⟨item, by rw [List.cons_append, List.take_append_drop]⟩

/-- An instruction that fails on the evaluation stack lacks operands and uses up those there are, or
it is an assertion that has taken its item, or a service call that has taken nothing. -/
theorem onStack_eq_error {x : Fault} (h : i.onStack offer offset stack = (.error x, stack')) :
    (stack.length < i.arity ∧ x = .stackUnderflow i.opcode.mnemonic ∧ stack' = []) ∨
    (i = throwIfNot ∧ x = .assertionFailed offset ∧
      ∃ item, item.truth = false ∧ stack = item :: stack') ∨
    ∃ service, i = syscall service ∧ stack' = stack ∧
      ((x = .invalidServiceName ∧ service.text? = none) ∨
        ∃ name, service.text? = some name ∧ offer name = .error x) := by
  rcases onStack_cases offer offset i stack with ⟨hless, hlack⟩ | ⟨y, hresults, hfail⟩ |
    ⟨-, pushed, -, hok⟩
  · rw [hlack] at h
    cases h
    exact .inl ⟨hless, rfl, rfl⟩
  · rw [hfail] at h
    cases h
    rcases results_eq_error hresults with ⟨rfl, rfl, item, hfalse, hitem⟩ | ⟨service, rfl, hx⟩
    · refine .inr (.inl ⟨rfl, rfl, item, hfalse, ?_⟩)
      rw [← List.singleton_append, ← hitem, List.take_append_drop]
    · exact .inr (.inr ⟨service, rfl, rfl, hx⟩)
  · rw [hok] at h
    cases h

end Instruction

namespace Engine

/-- The item that a call of a built-in service pushes, or the fault of the call. -/
def offer (e : Engine) (name : String) : Except Fault Item :=
  match Syscall.ofName? name with
  | none => .error (.unsupportedService name)
  | some s => s.item e

/-- A call of a built-in service fails for want of the service or of a frame. -/
theorem offer_eq_error {e : Engine} {name : String} {x : Fault} (h : e.offer name = .error x) :
    (x = .unsupportedService name ∧ Syscall.ofName? name = none) ∨
    (x = .emptyInvocationStack ∧ e.frames = []) ∨
    (x = .insufficientDepth 2 e.depth ∧ name = Syscall.getCallingScriptHash.name ∧
      e.depth < 2) := by
  obtain ⟨frames, stack, container, contracts, limits, status⟩ := e
  unfold offer at h
  split at h
  · rename_i hname
    cases h
    exact .inl ⟨rfl, hname⟩
  · rename_i s hname
    right
    cases s with
    | getScriptContainer => cases h
    | getExecutingScriptHash =>
      rcases frames with _ | ⟨f, below⟩ <;> cases h
      exact .inl ⟨rfl, rfl⟩
    | getCallingScriptHash =>
      have hcalling := Services.eq_name_of_ofName? hname
      rcases frames with _ | ⟨f, _ | ⟨g, below⟩⟩ <;> cases h
      · exact .inr ⟨rfl, hcalling, Nat.two_pos⟩
      · exact .inr ⟨rfl, hcalling, Nat.one_lt_two⟩
    | getEntryScriptHash =>
      unfold Syscall.item entry at h
      dsimp only at h
      cases hlast : frames.getLast? <;> rw [hlast] at h <;> cases h
      exact .inl ⟨rfl, List.getLast?_eq_none_iff.mp hlast⟩

/-- What an instruction makes of the invocation stack. -/
def onFrames (contracts : Option Contracts) (limit : Nat) :
    Instruction → List Frame → Except Fault (List Frame)
  | .ret, frames => .ok frames.tail
  | .appCall contract, frames =>
    match contracts with
    | none => .error .noContractTable
    | some contracts =>
      match contracts.find? contract with
      | none => .error (.unknownContract contract)
      | some script =>
        if limit ≤ frames.length then .error (.invocationDepthExceeded limit)
        else .ok (Frame.start script frames.length :: frames)
  | _, frames => .ok frames

/-- Only a call can fail at the invocation stack. -/
theorem onFrames_eq_error {contracts : Option Contracts} {limit : Nat} {i : Instruction}
    {frames : List Frame} {x : Fault} (h : onFrames contracts limit i frames = .error x) :
    ∃ contract, i = .appCall contract ∧ ((x = .noContractTable ∧ contracts = none) ∨
      (x = .unknownContract contract ∧
        ∃ table, contracts = some table ∧ table.find? contract = none) ∨
      (x = .invocationDepthExceeded limit ∧ limit ≤ frames.length)) := by
  cases i with
  | appCall contract =>
    refine ⟨contract, rfl, ?_⟩
    dsimp only [onFrames] at h
    split at h
    · cases h
      exact .inl ⟨rfl, rfl⟩
    · split at h
      · rename_i table _ hfind
        cases h
        exact .inr (.inl ⟨rfl, table, rfl, hfind⟩)
      · split at h
        · rename_i hfull
          cases h
          exact .inr (.inr ⟨rfl, hfull⟩)
        · cases h
  | _ => cases h

/-- Where none fails there, a return takes a frame off the invocation stack, a call puts one on it,
and no other instruction touches it. -/
theorem onFrames_eq_ok {contracts : Option Contracts} {limit : Nat} {i : Instruction}
    {frames frames' : List Frame} (h : onFrames contracts limit i frames = .ok frames') :
    (i = .ret ∧ frames' = frames.tail) ∨
    (∃ contract table script, i = .appCall contract ∧ contracts = some table ∧
      table.find? contract = some script ∧
      frames' = Frame.start script frames.length :: frames) ∨
    (i.opcode ≠ .appCall ∧ frames' = frames) := by
  cases i with
  | ret =>
    cases h
    exact .inl ⟨rfl, rfl⟩
  | appCall contract =>
    right
    left
    dsimp only [onFrames] at h
    split at h
    · cases h
    · rename_i table
      split at h
      · cases h
      · rename_i script hfind
        split at h <;> cases h
        exact ⟨contract, table, script, rfl, rfl, hfind, rfl⟩
  | _ =>
    cases h
    refine .inr (.inr ⟨?_, rfl⟩)
    intro hop
    cases hop

/-- What the instruction at an offset makes of an engine, and its result. -/
def carry (offset : Nat) (i : Instruction) (e : Engine) : Except Fault Unit × Engine :=
  match i.onStack e.offer offset e.stack with
  | (.error x, stack) => (.error x, { e with stack })
  | (.ok (), stack) =>
    match onFrames e.contracts e.limits.maxInvocationDepth i e.frames with
    | .error x => (.error x, { e with stack })
    | .ok frames => settle (.ok (), { e with stack, frames })

/-- How an instruction at an offset can end: it fails on its operands, and leaves the frames alone;
or on the frames, and leaves these alone too; or it is done, where the size of the evaluation stack
decides about its result. -/
inductive Carries (offset : Nat) (i : Instruction) (e : Engine) :
    Except Fault Unit → Engine → Prop where
  | fail {x : Fault} {stack : List Item}
    (hon : i.onStack e.offer offset e.stack = (.error x, stack)) :
    Carries offset i e (.error x) { e with stack }
  | stuck {x : Fault} {stack : List Item}
    (hon : i.onStack e.offer offset e.stack = (.ok (), stack))
    (hframes : onFrames e.contracts e.limits.maxInvocationDepth i e.frames = .error x) :
    Carries offset i e (.error x) { e with stack }
  | overflow {stack : List Item} {frames : List Frame}
    (hon : i.onStack e.offer offset e.stack = (.ok (), stack))
    (hframes : onFrames e.contracts e.limits.maxInvocationDepth i e.frames = .ok frames)
    (hfull : e.limits.maxStackSize < stack.length) :
    Carries offset i e (.error (.stackOverflow stack.length e.limits.maxStackSize))
      { e with stack, frames }
  | done {stack : List Item} {frames : List Frame}
    (hon : i.onStack e.offer offset e.stack = (.ok (), stack))
    (hframes : onFrames e.contracts e.limits.maxInvocationDepth i e.frames = .ok frames)
    (hroom : stack.length ≤ e.limits.maxStackSize) :
    Carries offset i e (.ok ()) { e with stack, frames }

theorem settle_ok (e : Engine) :
    settle (.ok (), e) =
      if e.limits.maxStackSize < e.stack.length then
        (.error (.stackOverflow e.stack.length e.limits.maxStackSize), e)
      else (.ok (), e) := by
  unfold settle overflow?
  dsimp only
  by_cases hfull : e.limits.maxStackSize < e.stack.length
  · rw [if_pos hfull, if_pos hfull]
  · rw [if_neg hfull, if_neg hfull]

/-- An instruction ends in just one of these ways. -/
theorem carry_eq_iff {offset : Nat} {i : Instruction} {e e' : Engine} {r : Except Fault Unit} :
    e.carry offset i = (r, e') ↔ Carries offset i e r e' := by
  constructor
  · intro h
    unfold carry at h
    rcases hon : i.onStack e.offer offset e.stack with ⟨x | _, stack⟩
    · rw [hon] at h
      cases h
      exact .fail hon
    · rw [hon] at h
      dsimp only at h
      cases hframes : onFrames e.contracts e.limits.maxInvocationDepth i e.frames with
      | error x =>
        rw [hframes] at h
        cases h
        exact .stuck hon hframes
      | ok frames =>
        rw [hframes] at h
        dsimp only at h
        rw [settle_ok] at h
        split at h
        · rename_i hfull
          cases h
          exact .overflow hon hframes hfull
        · rename_i hroom
          cases h
          exact .done hon hframes (Nat.le_of_not_lt hroom)
  · intro h
    unfold carry
    cases h with
    | fail hon => rw [hon]
    | stuck hon hframes =>
      rw [hon]
      dsimp only
      rw [hframes]
    | overflow hon hframes hfull =>
      rw [hon]
      dsimp only
      rw [hframes]
      exact (settle_ok _).trans (if_pos hfull)
    | done hon hframes hroom =>
      rw [hon]
      dsimp only
      rw [hframes]
      exact (settle_ok _).trans (if_neg (Nat.not_lt_of_le hroom))

/-- How a step can end for the current frame: it is left at its end; or no instruction can be read
in it, and the step is the fault met there; or an instruction is read and carried out. -/
inductive Turn (e : Engine) (f : Frame) (below : List Frame) :
    Except Fault Unit → Engine → Prop where
  | leave (hend : f.atEnd = true) : Turn e f below (.ok ()) { e with frames := below }
  | misread {x : Fault} {n : Nat} (hend : f.atEnd = false) (hnext : f.next = .error x)
    (hpos : 0 < n) (hn : f.ip + n ≤ f.script.length) :
    Turn e f below (.error x) { e with frames := f.skip n :: below }
  | carry {i : Instruction} {r : Except Fault Unit} {e' : Engine} (hnext : f.next = .ok i)
    (h : Carries f.ip i { e with frames := f.skip i.size :: below } r e') : Turn e f below r e'

/-- What services have to push depends on the frames and the container only. -/
theorem offer_congr {e e' : Engine} (hframes : e'.frames = e.frames)
    (hcontainer : e'.container = e.container) : e'.offer = e.offer := by
  obtain ⟨frames, stack, container, contracts, limits, status⟩ := e
  obtain ⟨frames', stack', container', contracts', limits', status'⟩ := e'
  subst hframes hcontainer
  funext name
  unfold offer
  cases Syscall.ofName? name with
  | none => rfl
  | some s => cases s <;> rfl

end Engine

namespace Services

/-- An instruction carries out what its operands and the frames make of it, where only the built-in
services are registered. -/
theorem carry_eq (nesting offset : Nat) (i : Instruction) (e : Engine) :
    (builtins.effect nesting offset i e).map Engine.settle = some (e.carry offset i) := by
  obtain ⟨frames, stack, container, contracts, limits, status⟩ := e
  unfold effect Engine.carry
  cases i with
  | nop =>
    rw [Engine.execute_nop]
    rfl
  | pushData data =>
    rw [Engine.execute_pushData]
    rfl
  | pushInt value =>
    rw [Engine.execute_pushInt]
    rfl
  | ret =>
    rw [Engine.execute_ret]
    rfl
  | dup =>
    rw [Engine.execute_dup]
    cases stack <;> rfl
  | drop =>
    rw [Engine.execute_drop]
    cases stack <;> rfl
  | equal =>
    rw [Engine.execute_equal]
    rcases stack with _ | ⟨b, _ | ⟨a, rest⟩⟩
    · rfl
    · rfl
    · dsimp only
      rw [Instruction.onStack_equal]
      cases a.equalTo Opcode.equal.mnemonic b <;> rfl
  | throwIfNot =>
    rw [Engine.execute_throwIfNot]
    cases stack with
    | nil => rfl
    | cons item rest =>
      dsimp only
      rw [Instruction.onStack_throwIfNot]
      cases item.truth <;> rfl
  | appCall contract =>
    have hstack : (Instruction.appCall contract).onStack
        (Engine.offer ⟨frames, stack, container, contracts, limits, status⟩) offset stack =
          (.ok (), stack) := rfl
    rw [Engine.execute_appCall, hstack]
    dsimp only [Engine.onFrames]
    cases contracts with
    | none => rfl
    | some contracts =>
      dsimp only
      cases contracts.find? contract with
      | none => rfl
      | some script =>
        dsimp only [Engine.depth]
        by_cases hfull : limits.maxInvocationDepth ≤ frames.length
        · simp only [hfull, if_true]
          rfl
        · simp only [hfull, if_false]
          rfl
  | syscall service =>
    rw [Engine.execute_syscall, Instruction.onStack_syscall]
    cases service.text? with
    | none => rfl
    | some name =>
      dsimp only
      rw [dispatch_builtins, Engine.offer]
      cases Syscall.ofName? name with
      | none => rfl
      | some s =>
        dsimp only
        rw [invoke_eq]
        cases s.item ⟨frames, stack, container, contracts, limits, status⟩ <;> rfl

/-- So these are the ways in which it can end. -/
theorem effect_eq_some_iff {nesting offset : Nat} {i : Instruction} {e e' : Engine}
    {r : Except Fault Unit} :
    (builtins.effect nesting offset i e).map Engine.settle = some (r, e') ↔
      Engine.Carries offset i e r e' := by
  rw [carry_eq, Option.some_inj, Engine.carry_eq_iff]

/-- And a step with a frame ends in one of the ways above. -/
theorem turn_of_step {nesting : Nat} {e e' : Engine} {r : Except Fault Unit} {f : Frame}
    {below : List Frame} (he : e.frames = f :: below)
    (hstep : builtins.step nesting e = some (r, e')) : Engine.Turn e f below r e' := by
  cases hend : f.atEnd with
  | true =>
    rw [step_of_atEnd builtins nesting he hend] at hstep
    cases hstep
    exact .leave hend
  | false =>
    cases hnext : f.next with
    | error x =>
      obtain ⟨n, hpos, hn, hfail⟩ := step_of_next_error builtins nesting he hend hnext
      rw [hfail] at hstep
      cases hstep
      exact .misread hend hnext hpos hn
    | ok i =>
      rw [step_of_next_ok builtins nesting he hnext, effect_eq_some_iff] at hstep
      exact .carry hnext hstep

end Services

end LedgerNode
