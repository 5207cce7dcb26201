import LedgerNode.Script.Instruction

/-!
# Assembling scripts

A script is built by directives, each of which appends to the code so far.

- `Directive`: a bare opcode, or an opcode with the operand to encode.
- `Directive.append`: the code with a directive's bytes behind it; an operand that does not fit its
  length byte is refused.
- `assemble`: the code of a list of directives.
-/

namespace LedgerNode

/-- One step of building a script. -/
inductive Directive where
  /-- Append the opcode and nothing else. -/
  | emit (op : Opcode)
  /-- Append an instruction that pushes a byte string. -/
  | pushData (data : Bytes)
  /-- Append an instruction that pushes an integer. -/
  | pushInt (value : Int64)
  /-- Append a call of a contract. -/
  | appCall (contract : Hash)
  /-- Append a call of a service. -/
  | syscall (name : String)
deriving DecidableEq

/-- The greatest length that a length byte holds. -/
def maxInlineLength : Nat := 255

namespace Directive

/-- The bytes of an instruction whose operand follows a length byte. -/
def inlineBytes (op : Opcode) (data : Bytes) : Except Fault Bytes :=
  if data.length ≤ maxInlineLength then .ok (op.code :: UInt8.ofNat data.length :: data)
  else .error (.operandTooLong op.mnemonic data.length)

/-- The bytes that a directive appends. -/
def bytes : Directive → Except Fault Bytes
  | emit op => .ok [op.code]
  | pushData data => inlineBytes .pushData data
  | pushInt value => .ok (Opcode.pushInt.code :: Bytes.ofInt64LE value)
  | appCall contract => .ok (Opcode.appCall.code :: contract.bytes)
  | syscall name => inlineBytes .syscall (Bytes.ofText name)

/-- The code with a directive's bytes behind it. -/
def append (code : Bytes) (d : Directive) : Except Fault Bytes :=
  d.bytes.map (code ++ ·)

end Directive

/-- The code of a list of directives, or the fault of the first that is refused. -/
def assemble (directives : List Directive) : Except Fault Bytes :=
  directives.foldlM Directive.append []

end LedgerNode
