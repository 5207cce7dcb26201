import LedgerNode.Calendar
import LedgerNode.Session
import Std.Time.DateTime.Timestamp

/-!
# The program

The program carries out one session with the arguments and the environment that it finds.
-/

open LedgerNode

/-- The variables of the environment that matter to a session. -/
def readEnvironment : IO (List (String × String)) := do
  let names := "TERM" :: "NO_COLOR" :: Config.Variable.all.map Config.Variable.name
  names.filterMapM fun name => do
    return (← IO.getEnv name).map fun value => (name, value)

/-- Runs one session. -/
def main (arguments : List String) : IO UInt32 := do
  let values ← readEnvironment
  let environment := fun name => values.lookup name
  let program := (← IO.appPath).toString
  let outcome := Session.respond { program, arguments, environment }
  let now ← Std.Time.Timestamp.now
  let stamp := Calendar.stamp now.toMillisecondsSinceUnixEpoch.toInt.toNat
  (← IO.getStdout).putStr outcome.output
  (← IO.getStderr).putStr (outcome.diagnosticText (Log.showsColour environment) stamp)
  return outcome.exitCode.toUInt32
