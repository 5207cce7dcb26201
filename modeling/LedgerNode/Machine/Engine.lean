import LedgerNode.Machine.Contracts
import LedgerNode.Machine.Frame
import LedgerNode.Machine.Item
import LedgerNode.Machine.Limits

/-!
# The execution engine

An engine owns an invocation stack of frames and an evaluation stack of items, both with the top
first. This module has all that an instruction does by itself; a call of a host service is left to
the caller, who gets its name.

- `Engine`: the stacks and what they are used under.
- `Engine.Action`: a change of the engine that yields a result or a fault. A fault undoes nothing.
- `Engine.push`, `Engine.pop`, `Engine.load`, `Engine.deploy`: what hosts do to an engine.
- `Engine.current`, `Engine.calling`, `Engine.entry`: the frames that can be asked for.
- `Engine.execute`: the effect of an instruction that has been read.
- `Engine.advance`: reads and executes the next instruction, up to a service call in it.
-/

namespace LedgerNode

/-- The outcome of the last run. -/
inductive Engine.Status where
  /-- Not run yet, or still running. -/
  | none
  /-- Every frame has returned. -/
  | halt
  /-- A fault stopped the run. -/
  | fault
deriving DecidableEq, Repr

/-- One execution: its stacks and what it runs under. -/
structure Engine where
  /-- The invocation stack, the current frame first and the entry frame last. -/
  frames : List Frame := []
  /-- The evaluation stack, the top item first. -/
  stack : List Item := []
  /-- The host object that the scripts are run for. -/
  container : Container
  /-- The contracts that can be called, if there is a table of them. -/
  contracts : Option Contracts := Option.none
  /-- The bounds on both stacks. -/
  limits : Limits := {}
  /-- The outcome of the last run. -/
  status : Engine.Status := .none

namespace Engine

/-- A change of the engine that yields a result or a fault. -/
abbrev Action := ExceptT Fault (StateM Engine)

/-! ## The evaluation stack -/

/-- Puts an item on the evaluation stack, whatever its limit. -/
def push (item : Item) : Action Unit := fun e =>
  (.ok (), { e with stack := item :: e.stack })

/-- Takes the top item off the evaluation stack on behalf of an instruction. -/
def pop (instruction : String) : Action Item := fun e =>
  match e.stack with
  | [] => (.error (.stackUnderflow instruction), e)
  | item :: rest => (.ok item, { e with stack := rest })

/-- The top item of the evaluation stack on behalf of an instruction. -/
def peek (instruction : String) : Action Item := fun e =>
  match e.stack with
  | [] => (.error (.stackUnderflow instruction), e)
  | item :: _ => (.ok item, e)

/-! ## The invocation stack -/

/-- How many frames are on the invocation stack. -/
def depth (e : Engine) : Nat := e.frames.length

/-- Puts a new frame at the beginning of a script on the invocation stack. -/
def load (script : Bytes) : Action Unit := fun e =>
  if e.limits.maxInvocationDepth ≤ e.depth then
    (.error (.invocationDepthExceeded e.limits.maxInvocationDepth), e)
  else (.ok (), { e with frames := Frame.start script e.depth :: e.frames })

/-- Takes the current frame off the invocation stack. -/
def leave : Action Unit := fun e =>
  (.ok (), { e with frames := e.frames.tail })

/-- The frame whose code is being executed. -/
def current (e : Engine) : Except Fault Frame :=
  match e.frames with
  | [] => .error .emptyInvocationStack
  | f :: _ => .ok f

/-- The frame that called the current one. -/
def calling (e : Engine) : Except Fault Frame :=
  match e.frames with
  | _ :: f :: _ => .ok f
  | frames => .error (.insufficientDepth 2 frames.length)

/-- The outermost frame. -/
def entry (e : Engine) : Except Fault Frame :=
  match e.frames.getLast? with
  | none => .error .emptyInvocationStack
  | some f => .ok f

/-- Reads from the script of the current frame. -/
def reading {α : Type} (cursor : Frame.Cursor α) : Action α := fun e =>
  match e.frames with
  | [] => (.error .emptyInvocationStack, e)
  | f :: rest =>
    let (result, f) := cursor f
    (result, { e with frames := f :: rest })

/-- The engine with one more contract that can be called, if it has a table of contracts. -/
def deploy (script : Bytes) (e : Engine) : Engine :=
  { e with contracts := e.contracts.map fun contracts => contracts.deploy script }

/-! ## Instructions -/

/-- Calls the contract with a given hash. -/
def call (contract : Hash) : Action Unit := do
  match (← get).contracts with
  | none => throw .noContractTable
  | some contracts =>
    match contracts.find? contract with
    | none => throw (.unknownContract contract)
    | some script => load script

/-- What an advance of the engine comes to. -/
inductive Progress where
  /-- The current script had ended, and its frame is gone. -/
  | returned
  /-- An instruction has been executed. -/
  | executed
  /-- An instruction calls the service of that name. -/
  | calling (service : String)
deriving DecidableEq, Repr

/-- The effect of the instruction at an offset once it has been read. -/
def execute (offset : Nat) (i : Instruction) : Action Progress := do
  let name := i.opcode.mnemonic
  match i with
  | .nop => return .executed
  | .pushData data =>
    push (.bytes data)
    return .executed
  | .pushInt value =>
    push (.integer value)
    return .executed
  | .dup =>
    push (← peek name)
    return .executed
  | .drop =>
    discard (pop name)
    return .executed
  | .equal =>
    let b ← pop name
    let a ← pop name
    push (.boolean (← a.equalTo name b))
    return .executed
  | .throwIfNot =>
    if (← pop name).truth then return .executed else throw (.assertionFailed offset)
  | .ret =>
    leave
    return .executed
  | .appCall contract =>
    call contract
    return .executed
  | .syscall service =>
    match service.text? with
    | none => throw .invalidServiceName
    | some service => return .calling service

/-- Reads and executes the next instruction of the current frame, up to a service call in it. A
frame at the end of its script is left instead. -/
def advance : Action Progress := do
  let f ← (← get).current
  if f.atEnd then
    leave
    return .returned
  else
    let i ← reading Frame.fetch
    execute f.ip i

/-- The fault of an evaluation stack past its limit, if it is. -/
def overflow? (e : Engine) : Option Fault :=
  if e.limits.maxStackSize < e.stack.length then
    some (.stackOverflow e.stack.length e.limits.maxStackSize)
  else none

/-- The result of an instruction, which fails also when it leaves too many items behind. -/
def settle : Except Fault Unit × Engine → Except Fault Unit × Engine
  | (.ok (), e) =>
    match e.overflow? with
    | some f => (.error f, e)
    | none => (.ok (), e)
  | (.error f, e) => (.error f, e)

end Engine

end LedgerNode
