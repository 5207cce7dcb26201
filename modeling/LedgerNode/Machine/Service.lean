import LedgerNode.Machine.Engine

/-!
# Host services

Scripts call host functions by name. Four of them are built in; the others are handlers, programs of
the host that act on the engine step by step and may call services in turn.

- `Syscall`: the built-in services; `Syscall.invoke` is what they do.
- `Handler`: a program of the host; `Handler.perform` is what it does.
- `Service`: a built-in service or a handler.
- `Services`: the registered services by name, the first registration of a name staying.
- `Services.dispatch`: the effect of a service call.
- `Services.step`, `Services.run`: one step of an engine, and steps until its scripts have returned
  or failed.

Handlers may call each other without end. What depends on them takes a bound on nested calls, and a
run takes one on its steps; past a bound there is no answer.
-/

namespace LedgerNode

/-! ## Built-in services -/

/-- A service that is built in. -/
inductive Syscall where
  /-- Pushes the host object that the scripts are run for. -/
  | getScriptContainer
  /-- Pushes the hash of the current script. -/
  | getExecutingScriptHash
  /-- Pushes the hash of the script that called the current one. -/
  | getCallingScriptHash
  /-- Pushes the hash of the outermost script. -/
  | getEntryScriptHash
deriving DecidableEq, Repr

namespace Syscall

/-- All built-in services. -/
def all : List Syscall :=
  [getScriptContainer, getExecutingScriptHash, getCallingScriptHash, getEntryScriptHash]

/-- The last part of a service's name. -/
def shortName : Syscall → String
  | getScriptContainer => "GetScriptContainer"
  | getExecutingScriptHash => "GetExecutingScriptHash"
  | getCallingScriptHash => "GetCallingScriptHash"
  | getEntryScriptHash => "GetEntryScriptHash"

/-- The name under which a service is registered. -/
def name (s : Syscall) : String :=
  "System.ExecutionEngine." ++ s.shortName

/-- The built-in service with a given name. -/
def ofName? (name : String) : Option Syscall :=
  all.find? fun s => s.name = name

/-- The item that a service pushes. -/
def item (s : Syscall) (e : Engine) : Except Fault Item :=
  match s with
  | getScriptContainer => .ok (.interop e.container)
  | getExecutingScriptHash => e.current.map fun f => .ofHash f.codeHash.get
  | getCallingScriptHash => e.calling.map fun f => .ofHash f.codeHash.get
  | getEntryScriptHash => e.entry.map fun f => .ofHash f.codeHash.get

/-- Pushes the service's item; without one the engine stays as it is. -/
def invoke (s : Syscall) : Engine.Action Unit := do
  let item ← s.item (← get)
  Engine.push item

end Syscall

/-! ## Handlers -/

/-- A program of the host. After each act it goes on with what the act came to. -/
inductive Handler where
  /-- Return a result. -/
  | finish (result : Except Fault Unit)
  /-- Look at the engine. -/
  | inspect (next : Engine → Handler)
  /-- Push an item. -/
  | push (item : Item) (next : Handler)
  /-- Pop an item on behalf of an instruction. -/
  | pop (instruction : String) (next : Except Fault Item → Handler)
  /-- Load a script. -/
  | load (script : Bytes) (next : Except Fault Unit → Handler)
  /-- Call a service. -/
  | call (service : String) (next : Except Fault Unit → Handler)
  /-- Let the engine take a step. -/
  | step (next : Except Fault Unit → Handler)

/-- One act of a handler that stops at the first failure. -/
inductive Handler.Task where
  | push (item : Item)
  | pop (instruction : String)
  | load (script : Bytes)
  | call (service : String)
  | step
  /-- Fail for a reason of the host's own. -/
  | fail (reason : String)

namespace Handler

/-- Goes on after a success and returns a failure. -/
def unlessFailed {α : Type} (next : Handler) : Except Fault α → Handler
  | .ok _ => next
  | .error f => finish (.error f)

/-- The handler that performs tasks in order and stops at the first failure. -/
def ofTasks : List Task → Handler
  | [] => finish (.ok ())
  | .push item :: rest => push item (ofTasks rest)
  | .pop instruction :: rest => pop instruction (unlessFailed (ofTasks rest))
  | .load script :: rest => load script (unlessFailed (ofTasks rest))
  | .call service :: rest => call service (unlessFailed (ofTasks rest))
  | .step :: rest => step (unlessFailed (ofTasks rest))
  | .fail reason :: _ => finish (.error (.handler reason))

end Handler

/-- An action that may exceed a bound on its length and then gives no answer. -/
abbrev Activity := Engine → Option (Except Fault Unit × Engine)

namespace Engine

/-- One step of an engine, in which `invoke` carries out service calls. -/
def stepWith (invoke : String → Activity) : Activity := fun e =>
  match advance e with
  | (.ok .returned, e) => some (.ok (), e)
  | (.ok .executed, e) => some (settle (.ok (), e))
  | (.ok (.calling service), e) => (invoke service e).map settle
  | (.error f, e) => some (.error f, e)

end Engine

/-- What a handler does, where `invoke` carries out service calls. -/
def Handler.perform (invoke : String → Activity) : Handler → Activity
  | finish result, e => some (result, e)
  | inspect next, e => (next e).perform invoke e
  | push item next, e => next.perform invoke (Engine.push item e).2
  | pop instruction next, e =>
    let (result, e) := Engine.pop instruction e
    (next result).perform invoke e
  | load script next, e =>
    let (result, e) := Engine.load script e
    (next result).perform invoke e
  | call service next, e =>
    match invoke service e with
    | none => none
    | some (result, e) => (next result).perform invoke e
  | step next, e =>
    match Engine.stepWith invoke e with
    | none => none
    | some (result, e) => (next result).perform invoke e

/-! ## Registered services -/

/-- A registered service. -/
inductive Service where
  | builtin (syscall : Syscall)
  | extension (handler : Handler)

/-- The text form of a service in diagnostics. -/
def Service.debugText : Service → String
  | builtin s => "Builtin(" ++ s.shortName ++ ")"
  | extension _ => "Extension(..)"

/-- The registered services by name. -/
abbrev Services := Table String Service

/-- Why a service was not registered. -/
inductive RegistrationError where
  /-- The name is taken. -/
  | duplicateService (name : String)
deriving DecidableEq, Repr

/-- The wording of an error. -/
def RegistrationError.message : RegistrationError → String
  | duplicateService name => "interop service already registered: " ++ name

namespace Services

/-- Registers a service unless its name is taken: the services, and whether this one was added. -/
def register (services : Services) (name : String) (service : Service) : Services × Bool :=
  if services.contains name then (services, false) else (services.insertNew name service, true)

/-- Registers a handler in the same way. -/
def registerHandler (services : Services) (name : String) (handler : Handler) : Services × Bool :=
  services.register name (.extension handler)

/-- Registers a service under a name that must be free. -/
def tryRegister (services : Services) (name : String) (service : Service) :
    Except RegistrationError Services :=
  if services.contains name then .error (.duplicateService name)
  else .ok (services.insertNew name service)

/-- The built-in services under their names. -/
def builtins : Services :=
  Syscall.all.foldl (fun services s => services.insertNew s.name (.builtin s)) ∅

/-- The names of the services in ascending order, each with its service. -/
def sorted (services : Services) : List (String × Service) :=
  services.entries.mergeSort fun a b => a.1 ≤ b.1

/-! ## Execution -/

/-- The effect of calling a service, within a bound on the handlers under way at a time. -/
def dispatch (services : Services) : (nesting : Nat) → String → Activity
  | nesting, name, e =>
    match services.find? name with
    | none => some (.error (.unsupportedService name), e)
    | some (.builtin s) => some (s.invoke e)
    | some (.extension h) =>
      match nesting with
      | 0 => none
      | nesting + 1 => h.perform (services.dispatch nesting) e

/-- One step of an engine: an instruction, or the return from a script that has ended. -/
def step (services : Services) (nesting : Nat) : Activity :=
  Engine.stepWith (services.dispatch nesting)

/-- Steps until all scripts have returned or one has failed, at most `steps` of them. -/
def steps (services : Services) (nesting : Nat) : (steps : Nat) → Activity
  | 0, e => if e.frames.isEmpty then some (.ok (), { e with status := .halt }) else none
  | steps + 1, e =>
    if e.frames.isEmpty then some (.ok (), { e with status := .halt })
    else
      match services.step nesting e with
      | none => none
      | some (.error f, e) => some (.error f, { e with status := .fault })
      | some (.ok (), e) => services.steps nesting steps e

/-- Runs an engine until all its scripts have returned or one has failed. -/
def run (services : Services) (nesting steps : Nat) : Activity := fun e =>
  services.steps nesting steps { e with status := .none }

/-- A bound beyond what any run can reach. -/
def ample : Nat := 1000000000000000000

end Services

end LedgerNode
