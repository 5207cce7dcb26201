import LedgerNode.Bytes.Hex

/-!
# Commands

The program is told by its arguments what to do: run a script, list a script, or show the
diagnostics page.

- `Command`: what there is to do.
- `Command.parse`: the command that some arguments spell.
- `Command.Error`: why they spell none.
- `Command.usage`: the help text.
-/

namespace LedgerNode

/-- What the program is told to do. -/
inductive Command where
  /-- Run a script on behalf of a transaction that records a text. -/
  | run (script : Bytes) (recorded : String)
  /-- List the instructions of a script. -/
  | list (script : Bytes)
  /-- Show the diagnostics page. -/
  | info
deriving DecidableEq, Repr

namespace Command

/-- Why arguments spell no command. -/
inductive Error where
  /-- The first argument is the name of no command. -/
  | unexpectedCommand (name : String)
  /-- A command lacks its script. -/
  | missingScript (command : String)
  /-- The script is not hexadecimal. -/
  | badScript (error : Hex.Error)
  /-- An option lacks its value. -/
  | missingValue (option : String)
  /-- An argument is no option. -/
  | unexpectedArgument (argument : String)
deriving DecidableEq, Repr

/-- The wording of an error. An empty line sets off the help text where that follows. -/
def Error.message : Error → String
  | unexpectedCommand name => "Unexpected command: " ++ name ++ "\n"
  | missingScript command => command ++ " requires a hex script argument"
  | badScript error => "Invalid script hex: " ++ error.message
  | missingValue option => option ++ " requires an argument"
  | unexpectedArgument argument => "Unexpected argument: " ++ argument ++ "\n"

/-- Whether the help text is shown with an error. -/
def Error.showsUsage : Error → Bool
  | unexpectedCommand _ => true
  | unexpectedArgument _ => true
  | _ => false

/-- Hexadecimal digits without the marks `0x` in front of them, however many there are. -/
def dropMarks : List Char → List Char
  | '0' :: 'x' :: rest => dropMarks rest
  | digits => digits

/-- Reads the script that a command takes: the script and the arguments behind it. -/
def parseScript (command : String) : List String → Except Error (Bytes × List String)
  | [] => .error (.missingScript command)
  | digits :: rest =>
    match Bytes.ofHex (String.ofList (dropMarks digits.toList)) with
    | .ok script => .ok (script, rest)
    | .error e => .error (.badScript e)

/-- Reads the options of a run: the text recorded, of which the last one given holds. -/
def parseOptions (recorded : String) : List String → Except Error String
  | [] => .ok recorded
  | option :: rest =>
    if option = "--record" ∨ option = "-r" then
      match rest with
      | [] => .error (.missingValue option)
      | value :: rest => parseOptions value rest
    else .error (.unexpectedArgument option)

/-- The command that a name and the arguments behind it spell. -/
def parse (name : String) (arguments : List String) : Except Error Command :=
  match name with
  | "run" => do
    let (script, options) ← parseScript name arguments
    return .run script (← parseOptions "cli" options)
  | "disasm" => do
    let (script, _) ← parseScript name arguments
    return .list script
  | "info" => .ok .info
  | _ => .error (.unexpectedCommand name)

/-- Whether an argument asks for the help text. -/
def asksHelp (argument : String) : Bool :=
  argument = "--help" || argument = "-h"

/-- The help text of a program of the given name. -/
def usage (program : String) : String :=
  "Chain Node\n" ++
  "\n" ++
  "USAGE:\n" ++
  "    " ++ program ++ " run <script-hex> [--record <text>]\n" ++
  "    " ++ program ++ " disasm <script-hex>\n" ++
  "    " ++ program ++ " info\n" ++
  "\n" ++
  "OPTIONS:\n" ++
  "    -r, --record <text>    Payload of the record transaction used as script container\n" ++
  "    -h, --help             Print this help message\n" ++
  "\n" ++
  "ENVIRONMENT:\n" ++
  "    CHAIN_NODE_LOG                     Minimum log level (debug, info, warn, error)\n" ++
  "    CHAIN_NODE_PORT                    Node port shown on the info page\n" ++
  "    CHAIN_NODE_HTTP_*_PORT             INFO, REST, WS, JSON and LOCAL ports\n" ++
  "    CHAIN_NODE_MAX_INVOCATION_DEPTH    Nested call limit per execution\n" ++
  "    CHAIN_NODE_MAX_STACK_SIZE          Evaluation stack limit per execution\n" ++
  "\n" ++
  "EXAMPLES:\n" ++
  "    # Push the entry script hash and stop\n" ++
  "    " ++ program ++ " run " ++
  "322953797374656d2e457865637574696f6e456e67696e652e476574456e74727953637269707448617368\n"

end Command

end LedgerNode
