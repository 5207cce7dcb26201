import LedgerNode.Command
import LedgerNode.Machine.Service
import LedgerNode.Page.Markup
import LedgerNode.Script.Listing

/-!
# Sessions of the program

A session is one start of the program: from its name, its arguments and its environment follow its
output, its diagnostics and its exit code.

- `Session`: what the program is started with.
- `Session.Outcome`: what comes of it.
- `Session.respond`: the outcome of a session.
-/

namespace LedgerNode

/-- What the program is started with. -/
structure Session where
  /-- The name by which the program was called. -/
  program : String
  arguments : List String
  /-- The variables of the environment. -/
  environment : String → Option String

namespace Session

/-- What goes to the diagnostic output. -/
inductive Diagnostic where
  /-- The help text, and an empty line. -/
  | usage (program : String)
  /-- A log entry. -/
  | entry (e : Log.Entry)
deriving DecidableEq, Repr

/-- What comes of a session. -/
structure Outcome where
  exitCode : UInt8 := 0
  /-- What goes to the standard output. -/
  output : String := ""
  /-- What goes to the diagnostic output. -/
  diagnostics : List Diagnostic := []

/-- A diagnostic as text behind the time of writing, in colour or not. -/
def Diagnostic.text (isColoured : Bool) (stamp : String) : Diagnostic → String
  | usage program => Command.usage program ++ "\n"
  | entry e => if isColoured then e.coloured stamp else e.plain stamp

/-- All diagnostics of an outcome as text. -/
def Outcome.diagnosticText (isColoured : Bool) (stamp : String) (o : Outcome) : String :=
  String.join (o.diagnostics.map (Diagnostic.text isColoured stamp))

/-- The outcome of a session that ends with an error. -/
def failed (message : String) : Outcome where
  exitCode := 1
  diagnostics := [.entry ⟨.error, message⟩]

/-- The outcome of a session whose arguments spell no command. -/
def misused (program : String) (e : Command.Error) : Outcome where
  exitCode := 1
  diagnostics := .entry ⟨.error, e.message⟩ :: if e.showsUsage then [.usage program] else []

/-! ## Running scripts -/

/-- An item as it is shown after a run. -/
def itemText : Item → String
  | .bytes data => "ByteArray 0x" ++ data.toHex
  | .integer value => "Integer " ++ Text.integer value.toInt
  | .boolean value => "Boolean " ++ (if value then "true" else "false")
  | .interop container => "Interop container " ++ container.hash.toHex

/-- The lines of the items of a stack, the top first, each with its height above the bottom. -/
def stackText : List Item → String
  | [] => ""
  | item :: below =>
    Text.padLeft ' ' 4 (Text.numeral below.length) ++ ": " ++ itemText item ++ "\n" ++
      stackText below

/-- The name of an engine's status. -/
def statusName : Engine.Status → String
  | .none => "None"
  | .halt => "Halt"
  | .fault => "Fault"

/-- The registered services that the next steps of an engine call, in order. -/
def calls (services : Services) : (steps : Nat) → Engine → List String
  | 0, _ => []
  | steps + 1, e =>
    let called := match (Engine.advance e).1 with
      | .ok (.calling service) => if services.contains service then [service] else []
      | _ => []
    match services.step 0 e with
    | some (.ok (), e) => called ++ calls services steps e
    | _ => called

/-- The log entries of a run: every service call, and the fault if there is one. -/
def runEntries (services : Services) (steps : Nat) (e : Engine) (result : Except Fault Unit) :
    List Log.Entry :=
  let called := (calls services steps e).map fun service =>
    (⟨.debug, "invoke interop service " ++ service⟩ : Log.Entry)
  match result with
  | .ok () => called
  | .error f =>
    called ++ [⟨.warning, "execution for container " ++ e.container.hash.toHex ++ " faulted: " ++
      f.message⟩]

/-- The entry that reports the result of a run. -/
def resultEntry : Except Fault Unit → Log.Entry
  | .ok () => ⟨.info, "Execution halted"⟩
  | .error f => ⟨.error, "Execution faulted: " ++ f.message⟩

/-- Runs a script with the built-in services. Without contracts to call, every step but the last
takes a byte of the script. -/
def runScript (config : Config) (script : Bytes) (recorded : String) : Outcome :=
  let tx := Transaction.recording "record" (Bytes.ofText recorded)
  match Engine.load script { container := tx.container 0, limits := config.limits } with
  | (.error f, _) => failed f.message
  | (.ok (), e) =>
    let steps := script.length + 1
    let (result, final) := (Services.builtins.run 0 steps e).getD (.ok (), e)
    let entries := runEntries Services.builtins steps e result ++ [resultEntry result]
    { exitCode := match result with
        | .ok () => 0
        | .error _ => 1
      output := "state: " ++ statusName final.status ++ "\n" ++ stackText final.stack
      diagnostics := (Log.above config.logLevel entries).map .entry }

/-! ## The other commands -/

/-- Lists a script. -/
def listScript (script : Bytes) : Outcome :=
  match disassemble script with
  | .ok text => { output := text }
  | .error f => failed ("Disassembly failed: " ++ f.message)

/-- The key of a node that stands alone: it follows from the version and the port. -/
def standaloneKey (config : Config) : Hash :=
  .digest (Bytes.ofText config.version ++ Bytes.ofNatLE 2 config.nodePort.toNat)

/-- Shows the page of a node that stands alone and keeps the books itself. -/
def showPage (config : Config) : Outcome :=
  let key := (standaloneKey config).bytes
  let node : NodeView := { id := UInt64.ofNat (Bytes.toNatLE (key.take 8)), publicKey := key }
  let ledger : LedgerView := { bookkeepers := [key] }
  { output := (Page.collect config node ledger).render ++ "\n" }

/-- Carries out a command. -/
def perform (config : Config) : Command → Outcome
  | .run script recorded => runScript config script recorded
  | .list script => listScript script
  | .info => showPage config

/-! ## The whole session -/

/-- The outcome of a session. Help comes before the configuration, and that before the command. -/
def respond (s : Session) : Outcome :=
  match s.arguments with
  | [] => { exitCode := 1, diagnostics := [.usage s.program] }
  | first :: rest =>
    if Command.asksHelp first then { diagnostics := [.usage s.program] }
    else
      match Config.ofLookup s.environment with
      | .error e => failed e.message
      | .ok config =>
        match Command.parse first rest with
        | .error e => misused s.program e
        | .ok command => perform config command

end Session

end LedgerNode
