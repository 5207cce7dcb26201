import LedgerNode.Hash

/-!
# Faults

Assembling, listing and running scripts can fail. A fault names the cause with the values that the
message shows; no fault takes the host down.

- `Fault`: the causes.
- `Fault.message`: their wording.
-/

namespace LedgerNode

/-- Why assembling, listing or running a script stopped. -/
inductive Fault where
  /-- No service is registered under the name that was called. -/
  | unsupportedService (name : String)
  /-- A script was asked for while none is loaded. -/
  | emptyInvocationStack
  /-- Fewer scripts are loaded than the request needs. -/
  | insufficientDepth (required actual : Nat)
  /-- The byte at an offset is no opcode. -/
  | invalidInstruction (opcode : UInt8) (offset : Nat)
  /-- The script ends before the bytes requested at `ip`. -/
  | unexpectedEnd (ip requested available : Nat)
  /-- The evaluation stack holds fewer items than the instruction takes. -/
  | stackUnderflow (instruction : String)
  /-- The evaluation stack has grown past its limit. -/
  | stackOverflow (size limit : Nat)
  /-- One more script would exceed the depth limit. -/
  | invocationDepthExceeded (limit : Nat)
  /-- An item has the wrong type for the instruction. -/
  | typeMismatch (instruction expected actual : String)
  /-- No contract with that hash is deployed. -/
  | unknownContract (hash : Hash)
  /-- A contract was called without a contract table. -/
  | noContractTable
  /-- The name of the service called is not valid UTF-8. -/
  | invalidServiceName
  /-- The assertion at an offset took a false item. -/
  | assertionFailed (offset : Nat)
  /-- An operand does not fit its one-byte length. -/
  | operandTooLong (instruction : String) (length : Nat)
  /-- A host function reported a failure of its own. -/
  | handler (reason : String)
deriving DecidableEq

open Text in
/-- The wording of a fault. -/
def Fault.message : Fault → String
  | unsupportedService name => "interop service not supported: " ++ name
  | emptyInvocationStack => "invocation stack is empty"
  | insufficientDepth required actual =>
    "invocation stack depth " ++ numeral actual ++ " is below the required " ++ numeral required
  | invalidInstruction opcode offset =>
    "invalid instruction 0x" ++ padLeft '0' 2 (hexNumeral opcode.toNat) ++ " at offset " ++
      numeral offset
  | unexpectedEnd ip requested available =>
    "unexpected end of script at " ++ numeral ip ++ ": requested " ++ numeral requested ++
      " bytes, " ++ numeral available ++ " available"
  | stackUnderflow instruction => instruction ++ ": evaluation stack underflow"
  | stackOverflow size limit =>
    "evaluation stack size " ++ numeral size ++ " exceeds limit " ++ numeral limit
  | invocationDepthExceeded limit => "invocation depth limit " ++ numeral limit ++ " exceeded"
  | typeMismatch instruction expected actual =>
    instruction ++ " expected " ++ expected ++ " but got " ++ actual
  | unknownContract hash => "unknown contract " ++ hash.toHex
  | noContractTable => "no contract table attached to the engine"
  | invalidServiceName => "syscall name is not valid utf-8"
  | assertionFailed offset => "assertion failed at offset " ++ numeral offset
  | operandTooLong instruction length =>
    instruction ++ ": operand of " ++ numeral length ++ " bytes exceeds 255"
  | handler reason => "interop handler failed: " ++ reason

end LedgerNode
