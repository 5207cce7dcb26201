import LedgerNode.Text.Fold
import LedgerNode.Text.Numeral

/-!
# Logging

Log entries have a level, and only those that reach the threshold are written. On a terminal that
shows colours the level decides on the look of the line.

- `Log.Level`: the levels in ascending order, their names, and how names are read.
- `Log.Entry`: a message of some level.
- `Log.Entry.plain`, `Log.Entry.coloured`: the line of an entry.
-/

namespace LedgerNode.Log

/-- How serious an entry is. -/
inductive Level where
  | debug
  | info
  | warning
  | error
deriving DecidableEq, Repr

namespace Level

/-- All levels in ascending order. -/
def all : List Level := [debug, info, warning, error]

/-- The place of a level in the ascending order. -/
def rank : Level → Nat
  | debug => 0
  | info => 1
  | warning => 2
  | error => 3

instance : LE Level := ⟨fun a b => a.rank ≤ b.rank⟩

instance (a b : Level) : Decidable (a ≤ b) := inferInstanceAs (Decidable (a.rank ≤ b.rank))

/-- The name of a level in lines. -/
def name : Level → String
  | debug => "DEBUG"
  | info => "INFO"
  | warning => "WARN"
  | error => "ERROR"

/-- The level of a given name, in any case. Warnings have two names. -/
def ofName? (name : String) : Option Level :=
  match Text.fold name with
  | "debug" => some debug
  | "info" => some info
  | "warn" => some warning
  | "warning" => some warning
  | "error" => some error
  | _ => none

/-- Whether entries of a level are written under a threshold. -/
def isEnabled (threshold level : Level) : Bool :=
  threshold ≤ level

/-- The number of a level's colour on a terminal, if it has one. -/
def colour? : Level → Option Nat
  | debug => some 36
  | info => none
  | warning => some 33
  | error => some 31

/-- Whether the lines of a level are bold on a terminal. -/
def isBold (level : Level) : Bool :=
  warning ≤ level

end Level

/-- A message of some level. -/
structure Entry where
  level : Level
  message : String
deriving DecidableEq, Repr

namespace Entry

/-- The line of an entry behind the time of writing. -/
def plain (stamp : String) (e : Entry) : String :=
  stamp ++ "[" ++ e.level.name ++ "] " ++ e.message ++ "\n"

/-- The sequence that sets an attribute of a terminal. -/
def control (n : Nat) : String :=
  "\x1b[" ++ Text.numeral n ++ "m"

/-- The line of an entry between the sequences that set and reset the look of its level. -/
def coloured (stamp : String) (e : Entry) : String :=
  let bold := if e.level.isBold then control 1 else ""
  let colour := (e.level.colour?.map control).getD ""
  control 0 ++ bold ++ colour ++ e.plain stamp ++ control 0

end Entry

/-- The entries that reach a threshold. -/
def above (threshold : Level) (entries : List Entry) : List Entry :=
  entries.filter fun e => Level.isEnabled threshold e.level

/-- Whether a terminal shows colours, by the variables of its environment. -/
def showsColour (environment : String → Option String) : Bool :=
  match environment "TERM", environment "NO_COLOR" with
  | some terminal, none => terminal ≠ "dumb"
  | _, _ => false

end LedgerNode.Log
