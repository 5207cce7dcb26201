import LedgerNode.Script.Instruction
import LedgerNode.Text.Lossy

/-!
# Listing scripts

A listing shows a script as text, one instruction a line: the offset, the mnemonic and the operand.

- `Script.instructions`: the instructions of a script, each with its offset.
- `Listing.line`: the line of an instruction.
- `disassemble`: the listing of a script.
-/

namespace LedgerNode

namespace Script

/-- The instructions of the code at an offset, each with its own offset. -/
def instructionsFrom (offset : Nat) : Bytes → Except Fault (List (Nat × Instruction))
  | [] => .ok []
  | b :: code => do
    let i ← Instruction.parse offset (b :: code)
    let rest ← instructionsFrom (offset + i.size) (code.drop (i.size - 1))
    return (offset, i) :: rest
termination_by code => code.length
decreasing_by
  simp only [List.length_drop, List.length_cons]
  omega

/-- The instructions of a script, each with its offset. -/
def instructions (script : Bytes) : Except Fault (List (Nat × Instruction)) :=
  instructionsFrom 0 script

end Script

namespace Listing

/-- What follows the mnemonic in a listing. -/
def operandText : Instruction → String
  | .pushData data => " 0x" ++ data.toHex
  | .pushInt value => " " ++ Text.integer value.toInt
  | .appCall contract => " 0x" ++ contract.toHex
  | .syscall name => " \"" ++ Text.ofBytesLossy name ++ "\""
  | _ => ""

/-- The line of an instruction, with its offset in four digits at least. -/
def line (offset : Nat) (i : Instruction) : String :=
  Text.padLeft '0' 4 (Text.numeral offset) ++ ": " ++ i.opcode.mnemonic ++ operandText i ++ "\n"

end Listing

/-- The listing of a script, or the fault of its first unreadable instruction. -/
def disassemble (script : Bytes) : Except Fault String := do
  let instructions ← Script.instructions script
  return String.join (instructions.map fun (offset, i) => Listing.line offset i)

end LedgerNode
