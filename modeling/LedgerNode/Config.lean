import LedgerNode.Log
import LedgerNode.Machine.Limits
import LedgerNode.Text.Blank
import LedgerNode.Text.Quoted

/-!
# Configuration

A node listens on six ports, logs from some level on, and runs scripts within limits. Each of these
settings has a default, which a variable of the environment overrides.

- `Config`: the settings.
- `Config.Variable`: the variables, in the order in which they are read.
- `Config.ofLookup`: the settings under given values of the variables.
- `Config.Error`: a variable whose value cannot be used.
-/

namespace LedgerNode

/-- The settings of a node. -/
structure Config where
  version : String := "0.1.0"
  nodePort : UInt16 := 20338
  infoPort : UInt16 := 20333
  restPort : UInt16 := 20334
  webSocketPort : UInt16 := 20335
  jsonPort : UInt16 := 20336
  localPort : UInt16 := 20337
  logLevel : Log.Level := .info
  limits : Limits := {}
deriving DecidableEq, Repr

namespace Config

/-! ## Values -/

/-- The number below `bound` that a text spells: decimal digits, behind a plus sign or not, with
blanks around them. -/
def number? (bound : Nat) (value : String) : Option Nat :=
  let digits := match (Text.trim value).toList with
    | '+' :: digits => digits
    | digits => digits
  if digits ≠ [] ∧ digits.all Char.isDigit then
    let n := Nat.ofDigitChars 10 digits 0
    if n < bound then some n else none
  else none

/-- The port that a text spells. -/
def port? (value : String) : Option UInt16 :=
  (number? UInt16.size value).map UInt16.ofNat

/-- The size that a text spells. -/
def size? (value : String) : Option Nat :=
  number? UInt64.size value

/-! ## Variables -/

/-- A variable that overrides a setting. -/
inductive Variable where
  | nodePort
  | infoPort
  | restPort
  | webSocketPort
  | jsonPort
  | localPort
  | logLevel
  | maxInvocationDepth
  | maxStackSize
deriving DecidableEq, Repr

namespace Variable

/-- All variables in the order in which they are read. -/
def all : List Variable :=
  [nodePort, infoPort, restPort, webSocketPort, jsonPort, localPort, logLevel, maxInvocationDepth,
    maxStackSize]

/-- The name of a variable. -/
def name : Variable → String
  | nodePort => "CHAIN_NODE_PORT"
  | infoPort => "CHAIN_NODE_HTTP_INFO_PORT"
  | restPort => "CHAIN_NODE_HTTP_REST_PORT"
  | webSocketPort => "CHAIN_NODE_HTTP_WS_PORT"
  | jsonPort => "CHAIN_NODE_HTTP_JSON_PORT"
  | localPort => "CHAIN_NODE_HTTP_LOCAL_PORT"
  | logLevel => "CHAIN_NODE_LOG"
  | maxInvocationDepth => "CHAIN_NODE_MAX_INVOCATION_DEPTH"
  | maxStackSize => "CHAIN_NODE_MAX_STACK_SIZE"

/-- The settings with the variable's own one replaced by what a value spells, if it spells
anything. -/
def override? (v : Variable) (value : String) (config : Config) : Option Config :=
  match v with
  | nodePort => (port? value).map fun port => { config with nodePort := port }
  | infoPort => (port? value).map fun port => { config with infoPort := port }
  | restPort => (port? value).map fun port => { config with restPort := port }
  | webSocketPort => (port? value).map fun port => { config with webSocketPort := port }
  | jsonPort => (port? value).map fun port => { config with jsonPort := port }
  | localPort => (port? value).map fun port => { config with localPort := port }
  | logLevel => (Log.Level.ofName? value).map fun level => { config with logLevel := level }
  | maxInvocationDepth =>
    (size? value).map fun n =>
      { config with limits := { config.limits with maxInvocationDepth := n } }
  | maxStackSize =>
    (size? value).map fun n => { config with limits := { config.limits with maxStackSize := n } }

end Variable

/-- Why there is no configuration. -/
inductive Error where
  /-- The value of a variable spells no setting. -/
  | invalidValue (source : Variable) (value : String)
deriving DecidableEq, Repr

/-- The wording of an error. -/
def Error.message : Error → String
  | invalidValue v value => v.name ++ ": invalid value " ++ Text.quote value

/-- The settings with one variable read. -/
def readVariable (lookup : String → Option String) (config : Config) (v : Variable) :
    Except Error Config :=
  match lookup v.name with
  | none => .ok config
  | some value =>
    match v.override? value config with
    | some config => .ok config
    | none => .error (.invalidValue v value)

/-- The settings under given values of the variables, or the first value that cannot be used. -/
def ofLookup (lookup : String → Option String) : Except Error Config :=
  Variable.all.foldlM (readVariable lookup) {}

end Config

end LedgerNode
