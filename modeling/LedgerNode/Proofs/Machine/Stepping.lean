import LedgerNode.Machine.Service
import LedgerNode.Proofs.Machine.Fetching

/-!
# What a step does

A step of an engine leaves a script that has ended, or reads an instruction and carries it out. Here
this is said once and for all; the theorems on runs cite it and open no definition of the engine.

- `Engine.load_cases`: what loading does.
- `Engine.execute_dup` and the like: what each instruction does to an engine.
- `Services.dispatch_builtins`: what a service call does where only the built-in services are there.
- `Services.effect`: an instruction that has been read, with the service call in it.
- `Services.step_eq`: the steps, with `Services.step_of_nil`, `Services.step_of_atEnd`,
  `Services.step_of_next_ok` and `Services.step_of_next_error` for what a frame has next.
- `Engine.Effect`: what an instruction can make of an engine (`Services.effect_builtins`).
- `Engine.Moves`: what a step can make of the invocation stack (`Services.step_moves`).
-/

namespace LedgerNode

namespace Engine

theorem get_apply (e : Engine) : (get : Action Engine) e = (.ok e, e) := rfl

/-- Loading a script puts a frame at its beginning on top if there is room, and changes nothing
otherwise. -/
theorem load_cases (script : Bytes) (e : Engine) :
    (∃ x, load script e = (.error x, e)) ∨
    (e.depth < e.limits.maxInvocationDepth ∧
      load script e = (.ok (), { e with frames := Frame.start script e.depth :: e.frames })) := by
  unfold load
  split
  · exact .inl ⟨_, rfl⟩
  · exact .inr ⟨Nat.lt_of_not_le ‹_›, rfl⟩

/-! ## Instructions -/

variable (offset : Nat) (e : Engine)

theorem execute_nop : execute offset .nop e = (.ok .executed, e) := rfl

theorem execute_pushData (data : Bytes) :
    execute offset (.pushData data) e =
      (.ok .executed, { e with stack := .bytes data :: e.stack }) :=
  rfl

theorem execute_pushInt (value : Int64) :
    execute offset (.pushInt value) e =
      (.ok .executed, { e with stack := .integer value :: e.stack }) :=
  rfl

theorem execute_dup :
    execute offset .dup e = match e.stack with
      | [] => (.error (.stackUnderflow Opcode.dup.mnemonic), e)
      | item :: rest => (.ok .executed, { e with stack := item :: item :: rest }) := by
  obtain ⟨_, stack⟩ := e
  cases stack <;> rfl

theorem execute_drop :
    execute offset .drop e = match e.stack with
      | [] => (.error (.stackUnderflow Opcode.drop.mnemonic), e)
      | _ :: rest => (.ok .executed, { e with stack := rest }) := by
  obtain ⟨_, stack⟩ := e
  cases stack <;> rfl

theorem execute_equal :
    execute offset .equal e = match e.stack with
      | [] => (.error (.stackUnderflow Opcode.equal.mnemonic), e)
      | [_] => (.error (.stackUnderflow Opcode.equal.mnemonic), { e with stack := [] })
      | b :: a :: rest =>
        match a.equalTo Opcode.equal.mnemonic b with
        | .error x => (.error x, { e with stack := rest })
        | .ok same => (.ok .executed, { e with stack := .boolean same :: rest }) := by
  obtain ⟨_, stack⟩ := e
  simp only [execute, bind_apply]
  rcases stack with _ | ⟨b, _ | ⟨a, rest⟩⟩
  · rfl
  · rfl
  · dsimp only [pop, Instruction.opcode]
    cases a.equalTo Opcode.equal.mnemonic b <;> rfl

theorem execute_throwIfNot :
    execute offset .throwIfNot e = match e.stack with
      | [] => (.error (.stackUnderflow Opcode.throwIfNot.mnemonic), e)
      | item :: rest =>
        if item.truth then (.ok .executed, { e with stack := rest })
        else (.error (.assertionFailed offset), { e with stack := rest }) := by
  obtain ⟨_, stack⟩ := e
  simp only [execute, bind_apply, pop]
  rcases stack with _ | ⟨item, rest⟩
  · rfl
  · dsimp only
    split <;> rfl

theorem execute_ret :
    execute offset .ret e = (.ok .executed, { e with frames := e.frames.tail }) := rfl

theorem execute_appCall (contract : Hash) :
    execute offset (.appCall contract) e = match e.contracts with
      | none => (.error .noContractTable, e)
      | some contracts =>
        match contracts.find? contract with
        | none => (.error (.unknownContract contract), e)
        | some script =>
          if e.limits.maxInvocationDepth ≤ e.depth then
            (.error (.invocationDepthExceeded e.limits.maxInvocationDepth), e)
          else
            (.ok .executed, { e with frames := Frame.start script e.depth :: e.frames }) := by
  obtain ⟨frames, stack, container, contracts, limits, status⟩ := e
  simp only [execute, bind_apply, call, get_apply]
  cases contracts with
  | none => rfl
  | some contracts =>
    dsimp only
    cases contracts.find? contract with
    | none => rfl
    | some script =>
      by_cases hfull : limits.maxInvocationDepth ≤ frames.length
      · simp [load, depth, hfull]
      · simp [load, depth, hfull]
        rfl

theorem execute_syscall (service : Bytes) :
    execute offset (.syscall service) e = match service.text? with
      | none => (.error .invalidServiceName, e)
      | some name => (.ok (.calling name), e) := by
  simp only [execute]
  cases service.text? <;> rfl

/-- Only the end of a script counts as a return. -/
theorem execute_ne_returned (i : Instruction) : (execute offset i e).1 ≠ .ok .returned := by
  cases i with
  | nop | pushData | pushInt | ret => exact fun h => nomatch h
  | dup =>
    rw [execute_dup]
    split <;> exact fun h => nomatch h
  | drop =>
    rw [execute_drop]
    split <;> exact fun h => nomatch h
  | equal =>
    rw [execute_equal]
    split
    · exact fun h => nomatch h
    · exact fun h => nomatch h
    · split <;> exact fun h => nomatch h
  | throwIfNot =>
    rw [execute_throwIfNot]
    split
    · exact fun h => nomatch h
    · split <;> exact fun h => nomatch h
  | appCall contract =>
    rw [execute_appCall]
    split
    · exact fun h => nomatch h
    · split
      · exact fun h => nomatch h
      · split <;> exact fun h => nomatch h
  | syscall service =>
    rw [execute_syscall]
    split <;> exact fun h => nomatch h

theorem advance_of_nil {e : Engine} (he : e.frames = []) :
    advance e = (.error .emptyInvocationStack, e) := by
  obtain ⟨frames, stack, container, contracts, limits, status⟩ := e
  subst he
  rfl

/-- An advance leaves a frame at its end, and fetches and carries out an instruction otherwise. -/
theorem advance_eq {e : Engine} {f : Frame} {below : List Frame} (he : e.frames = f :: below) :
    advance e =
      if f.atEnd then (.ok .returned, { e with frames := below })
      else match f.fetch with
        | (.ok i, f') => execute f.ip i { e with frames := f' :: below }
        | (.error x, f') => (.error x, { e with frames := f' :: below }) := by
  obtain ⟨frames, stack, container, contracts, limits, status⟩ := e
  subst he
  unfold advance
  rw [bind_apply, get_apply]
  show (if f.atEnd then leave >>= fun _ => pure .returned
    else reading Frame.fetch >>= fun i => execute f.ip i : Action Progress) _ = _
  cases f.atEnd with
  | true => rfl
  | false =>
    show (reading Frame.fetch >>= fun i => execute f.ip i : Action Progress) _ = _
    rw [bind_apply]
    simp only [reading]
    rcases f.fetch with ⟨_ | _, f'⟩ <;> rfl

end Engine

namespace Services

/-! ## Service calls -/

/-- A built-in service pushes its item, or fails and changes nothing. -/
theorem invoke_eq (s : Syscall) (e : Engine) :
    s.invoke e = match s.item e with
      | .ok item => (.ok (), { e with stack := item :: e.stack })
      | .error x => (.error x, e) := by
  unfold Syscall.invoke
  rw [bind_apply, Engine.get_apply]
  dsimp only
  rw [bind_apply]
  cases s.item e <;> rfl

theorem find?_builtins (name : String) :
    builtins.find? name = (Syscall.ofName? name).map .builtin := by
  unfold builtins
  rw [Table.find?_foldl_insertNew_map Syscall.name, Table.find?_empty, Option.none_or]
  rfl

/-- What a service call does where only the built-in services are registered. -/
theorem dispatch_builtins (nesting : Nat) (name : String) (e : Engine) :
    builtins.dispatch nesting name e = some (match Syscall.ofName? name with
      | none => (.error (.unsupportedService name), e)
      | some s => s.invoke e) := by
  unfold dispatch
  rw [find?_builtins]
  cases Syscall.ofName? name <;> rfl

theorem ofName?_name (s : Syscall) : Syscall.ofName? s.name = some s := by
  cases s <;> decide

theorem eq_name_of_ofName? {name : String} {s : Syscall} (h : Syscall.ofName? name = some s) :
    name = s.name := by
  unfold Syscall.ofName? at h
  have hname := List.find?_some h
  exact (of_decide_eq_true hname).symm

/-- A built-in service that has an item pushes it. -/
theorem dispatch_of_item {s : Syscall} {e : Engine} {item : Item} (h : s.item e = .ok item)
    (nesting : Nat) :
    builtins.dispatch nesting s.name e = some (.ok (), { e with stack := item :: e.stack }) := by
  rw [dispatch_builtins, ofName?_name]
  dsimp only
  rw [invoke_eq, h]

/-- A call of a built-in service concerns the evaluation stack at most. -/
theorem dispatch_builtins_stack (nesting : Nat) (name : String) (e : Engine) :
    ∃ r stack, builtins.dispatch nesting name e = some (r, { e with stack }) := by
  rw [dispatch_builtins]
  cases Syscall.ofName? name with
  | none => exact ⟨_, e.stack, rfl⟩
  | some s =>
    dsimp only
    rw [invoke_eq]
    cases s.item e with
    | error x => exact ⟨_, e.stack, rfl⟩
    | ok item => exact ⟨_, item :: e.stack, rfl⟩

/-! ## Steps -/

/-- What an instruction does once it has been read, the service call in it included. -/
def effect (services : Services) (nesting offset : Nat) (i : Instruction) : Activity := fun e =>
  match Engine.execute offset i e with
  | (.ok (.calling service), e) => services.dispatch nesting service e
  | (.ok _, e) => some (.ok (), e)
  | (.error x, e) => some (.error x, e)

variable (services : Services) (nesting : Nat) {e : Engine} {f : Frame} {below : List Frame}

/-- A call of a service by a name does what the service does. -/
theorem effect_syscall (offset : Nat) (name : String) (e : Engine) :
    services.effect nesting offset (.syscall (Bytes.ofText name)) e =
      services.dispatch nesting name e := by
  unfold effect
  rw [Engine.execute_syscall, Bytes.text?_ofText]

/-- Without a frame there is nothing to step. -/
theorem step_of_nil (he : e.frames = []) :
    services.step nesting e = some (.error .emptyInvocationStack, e) := by
  unfold step Engine.stepWith
  rw [Engine.advance_of_nil he]

/-- A step leaves a frame at its end, and fetches and carries out an instruction otherwise. -/
theorem step_eq (he : e.frames = f :: below) :
    services.step nesting e =
      if f.atEnd then some (.ok (), { e with frames := below })
      else match f.fetch with
        | (.ok i, f') =>
          (services.effect nesting f.ip i { e with frames := f' :: below }).map Engine.settle
        | (.error x, f') => some (.error x, { e with frames := f' :: below }) := by
  unfold step Engine.stepWith effect
  rw [Engine.advance_eq he]
  cases f.atEnd with
  | true => rfl
  | false =>
    rw [if_neg Bool.false_ne_true, if_neg Bool.false_ne_true]
    rcases f.fetch with ⟨x | i, f'⟩
    · rfl
    · dsimp only
      -- what a step makes of a return is never asked of an instruction
      have hreturned := Engine.execute_ne_returned f.ip { e with frames := f' :: below } i
      rcases hexecute : Engine.execute f.ip i { e with frames := f' :: below } with
        ⟨_ | _ | _ | _, e'⟩
      · rfl
      · rw [hexecute] at hreturned
        exact absurd rfl hreturned
      · rfl
      · rfl

/-- At the end of its script a frame is left. -/
theorem step_of_atEnd (he : e.frames = f :: below) (hend : f.atEnd = true) :
    services.step nesting e = some (.ok (), { e with frames := below }) := by
  rw [step_eq services nesting he, if_pos hend]

/-- Where an instruction can be read, it is consumed as a whole and carried out. -/
theorem step_of_next_ok {i : Instruction} (he : e.frames = f :: below) (h : f.next = .ok i) :
    services.step nesting e =
      (services.effect nesting f.ip i { e with frames := f.skip i.size :: below }).map
        Engine.settle := by
  obtain ⟨hfetch, hsize⟩ := Frame.fetch_of_next_ok h
  have hpos := i.size_pos
  have hend : ¬ f.atEnd = true := by
    unfold Frame.atEnd
    rw [decide_eq_true_iff]
    omega
  rw [step_eq services nesting he, if_neg hend, hfetch]

/-- A call of a contract that is there enters it, unless calls are nested too deep or the evaluation
stack is past its limit. -/
theorem step_of_call {table : Contracts} {contract : Hash} {script : Bytes}
    (he : e.frames = f :: below) (hnext : f.next = .ok (.appCall contract))
    (htable : e.contracts = some table) (hfind : table.find? contract = some script)
    (hdepth : below.length + 1 < e.limits.maxInvocationDepth)
    (hroom : e.stack.length ≤ e.limits.maxStackSize) :
    services.step nesting e = some (.ok (), { e with
      frames := Frame.start script (below.length + 1) :: f.skip 33 :: below }) := by
  obtain ⟨frames, stack, container, contracts, limits, status⟩ := e
  subst he htable
  have hfull : ¬ limits.maxInvocationDepth ≤ below.length + 1 := Nat.not_le_of_lt hdepth
  rw [step_of_next_ok services nesting rfl hnext, effect, Engine.execute_appCall,
    Instruction.size_appCall]
  simp [hfind, Engine.depth, hfull, Engine.settle, Engine.overflow?, Nat.not_lt_of_le hroom]

/-- Where reading meets a fault, the step is that fault. The opcode byte is consumed by then. -/
theorem step_of_next_error {x : Fault} (he : e.frames = f :: below) (hend : f.atEnd = false)
    (h : f.next = .error x) :
    ∃ n, 0 < n ∧ f.ip + n ≤ f.script.length ∧
      services.step nesting e = some (.error x, { e with frames := f.skip n :: below }) := by
  obtain ⟨n, hpos, hn, hfetch⟩ := Frame.fetch_of_next_error hend h
  refine ⟨n, hpos, hn, ?_⟩
  rw [step_eq services nesting he, if_neg (by rw [hend]; exact Bool.false_ne_true), hfetch]

end Services

/-! ## The effect of an instruction -/

/-- What an instruction can make of an engine, with its result: only `RET` and an `APPCALL` that
succeeds change the invocation stack, and these leave the evaluation stack alone. -/
inductive Engine.Effect (e : Engine) : Instruction → Except Fault Unit → Engine → Prop where
  | stay {i : Instruction} {r : Except Fault Unit} {stack : List Item} (hret : i ≠ .ret)
    (hcall : ∀ contract, i = .appCall contract → r ≠ .ok ()) : Effect e i r { e with stack }
  | leave : Effect e .ret (.ok ()) { e with frames := e.frames.tail }
  | enter {contracts : Contracts} {contract : Hash} {script : Bytes}
    (hcontracts : e.contracts = some contracts) (hfind : contracts.find? contract = some script)
    (hdepth : e.depth < e.limits.maxInvocationDepth) :
    Effect e (.appCall contract) (.ok ())
      { e with frames := Frame.start script e.depth :: e.frames }

/-- An instruction without a frame effect leaves the frames as they are. -/
theorem Engine.Effect.of_stack {e : Engine} {i : Instruction} {r : Except Fault Unit}
    {stack : List Item} (hret : i.opcode ≠ .ret) (hcall : i.opcode ≠ .appCall) :
    Effect e i r { e with stack } := by
  refine .stay ?_ ?_
  · rintro rfl
    exact hret rfl
  · rintro contract rfl
    exact absurd rfl hcall

namespace Services

open Engine (Effect)

variable {nesting offset : Nat} {e : Engine}

/-- An instruction always has an answer where only the built-in services are registered, and it has
one of the effects above. -/
theorem effect_builtins (nesting offset : Nat) (i : Instruction) (e : Engine) :
    ∃ r e', builtins.effect nesting offset i e = some (r, e') ∧ Effect e i r e' := by
  unfold effect
  cases i with
  | nop =>
    rw [Engine.execute_nop]
    exact ⟨_, _, rfl, .of_stack nofun nofun⟩
  | pushData data =>
    rw [Engine.execute_pushData]
    exact ⟨_, _, rfl, .of_stack nofun nofun⟩
  | pushInt value =>
    rw [Engine.execute_pushInt]
    exact ⟨_, _, rfl, .of_stack nofun nofun⟩
  | ret =>
    rw [Engine.execute_ret]
    exact ⟨_, _, rfl, .leave⟩
  | dup =>
    rw [Engine.execute_dup]
    cases e.stack <;> exact ⟨_, _, rfl, .of_stack nofun nofun⟩
  | drop =>
    rw [Engine.execute_drop]
    cases e.stack <;> exact ⟨_, _, rfl, .of_stack nofun nofun⟩
  | equal =>
    rw [Engine.execute_equal]
    rcases e.stack with _ | ⟨b, _ | ⟨a, rest⟩⟩
    · exact ⟨_, _, rfl, .of_stack nofun nofun⟩
    · exact ⟨_, _, rfl, .of_stack nofun nofun⟩
    · dsimp only
      cases a.equalTo Opcode.equal.mnemonic b <;> exact ⟨_, _, rfl, .of_stack nofun nofun⟩
  | throwIfNot =>
    rw [Engine.execute_throwIfNot]
    cases e.stack with
    | nil => exact ⟨_, _, rfl, .of_stack nofun nofun⟩
    | cons item rest =>
      dsimp only
      cases item.truth <;> exact ⟨_, _, rfl, .of_stack nofun nofun⟩
  | appCall contract =>
    obtain ⟨frames, stack, container, contracts, limits, status⟩ := e
    rw [Engine.execute_appCall]
    cases contracts with
    | none => exact ⟨_, _, rfl, .stay nofun nofun⟩
    | some contracts =>
      dsimp only
      cases hfind : contracts.find? contract with
      | none => exact ⟨_, _, rfl, .stay nofun nofun⟩
      | some script =>
        by_cases hfull : limits.maxInvocationDepth ≤ frames.length
        · simp only [Engine.depth, hfull, if_true]
          exact ⟨_, _, rfl, .stay nofun nofun⟩
        · simp only [Engine.depth, hfull, if_false]
          exact ⟨_, _, rfl, .enter rfl hfind (Nat.lt_of_not_le hfull)⟩
  | syscall service =>
    rw [Engine.execute_syscall]
    cases service.text? with
    | none => exact ⟨_, _, rfl, .of_stack nofun nofun⟩
    | some name =>
      obtain ⟨r, stack, hcall⟩ := dispatch_builtins_stack nesting name e
      exact ⟨r, _, hcall, .of_stack nofun nofun⟩

end Services

/-! ## The invocation stack -/

namespace Engine

/-- Only the two stacks differ. -/
structure SameSettings (e e' : Engine) : Prop where
  container : e'.container = e.container
  contracts : e'.contracts = e.contracts
  limits : e'.limits = e.limits
  status : e'.status = e.status

/-- What a step with a result can make of the invocation stack: the current frame is left, or it
reads on, or it calls a contract and waits behind the call. A step that succeeds reads an
instruction. -/
inductive Moves (contracts : Option Contracts) (limit : Nat) (r : Except Fault Unit) :
    List Frame → List Frame → Prop where
  | leave {f : Frame} {below : List Frame} : Moves contracts limit r (f :: below) below
  | read {f : Frame} {below : List Frame} {n : Nat} (hpos : 0 < n)
    (hn : f.ip + n ≤ f.script.length) (hread : r = .ok () → ∃ i, f.next = .ok i ∧ n = i.size) :
    Moves contracts limit r (f :: below) (f.skip n :: below)
  | enter {f : Frame} {below : List Frame} {table : Contracts} {contract : Hash} {script : Bytes}
    (hnext : f.next = .ok (.appCall contract)) (htable : contracts = some table)
    (hfind : table.find? contract = some script) (hdepth : below.length + 1 < limit) :
    Moves contracts limit r (f :: below)
      (Frame.start script (below.length + 1) :: f.skip (Instruction.appCall contract).size :: below)

end Engine

namespace Services

open Engine (Effect Moves SameSettings)

theorem settle_snd (r : Except Fault Unit) (e : Engine) : (Engine.settle (r, e)).2 = e := by
  cases r with
  | error x => rfl
  | ok =>
    unfold Engine.settle
    dsimp only
    split <;> rfl

/-- A step with a frame on the invocation stack always has an answer where only the built-in
services are registered, and it moves the invocation stack in one of the ways above. -/
theorem step_moves (nesting : Nat) {e : Engine} (hne : e.frames ≠ []) :
    ∃ r e', builtins.step nesting e = some (r, e') ∧ SameSettings e e' ∧
      Moves e.contracts e.limits.maxInvocationDepth r e.frames e'.frames := by
  obtain ⟨f, below, he⟩ := List.exists_cons_of_ne_nil hne
  rw [he]
  cases hend : f.atEnd with
  | true => exact ⟨_, _, step_of_atEnd builtins nesting he hend, ⟨rfl, rfl, rfl, rfl⟩, .leave⟩
  | false =>
    cases hnext : f.next with
    | error x =>
      obtain ⟨n, hpos, hn, hstep⟩ := step_of_next_error builtins nesting he hend hnext
      exact ⟨_, _, hstep, ⟨rfl, rfl, rfl, rfl⟩, .read hpos hn nofun⟩
    | ok i =>
      obtain ⟨r, e', heffect, hi⟩ :=
        effect_builtins nesting f.ip i { e with frames := f.skip i.size :: below }
      have hstep := step_of_next_ok builtins nesting he hnext
      -- settling may turn the result into a fault, but leaves the engine alone
      have hsettle : Engine.settle (r, e') = ((Engine.settle (r, e')).1, e') :=
        Prod.ext rfl (settle_snd r e')
      rw [heffect, Option.map_some, hsettle] at hstep
      refine ⟨_, e', hstep, ?_⟩
      cases hi with
      | stay hret hcall =>
        exact ⟨⟨rfl, rfl, rfl, rfl⟩,
          .read i.size_pos (Frame.fetch_of_next_ok hnext).2 fun _ => ⟨i, hnext, rfl⟩⟩
      | leave => exact ⟨⟨rfl, rfl, rfl, rfl⟩, .leave⟩
      | enter hcontracts hfind hdepth =>
        exact ⟨⟨rfl, rfl, rfl, rfl⟩, .enter hnext hcontracts hfind hdepth⟩

/-- So a step that has been taken has moved the invocation stack in one of these ways. -/
theorem moves_of_step {nesting : Nat} {e e' : Engine} {r : Except Fault Unit} (hne : e.frames ≠ [])
    (hstep : builtins.step nesting e = some (r, e')) :
    SameSettings e e' ∧ Moves e.contracts e.limits.maxInvocationDepth r e.frames e'.frames := by
  obtain ⟨r₁, e₁, hstep₁, hsame, hmoves⟩ := step_moves nesting hne
  rw [hstep₁] at hstep
  cases hstep
  exact ⟨hsame, hmoves⟩

end Services

end LedgerNode
