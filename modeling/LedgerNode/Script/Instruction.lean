import LedgerNode.Fault

/-!
# Instructions

A script is a byte string: opcodes, each with its operand behind it. Byte strings and service names
follow a length byte, integers take eight bytes, contract hashes thirty-two.

- `Opcode`: the instructions without operands, with their bytes and mnemonics.
- `Instruction`: an instruction with its operand; `Instruction.encode` is its bytes.
- `Instruction.parse`: the instruction at the front of a piece of code, or the fault that reading
  it meets.
-/

namespace LedgerNode

/-- What an instruction does, leaving its operand aside. -/
inductive Opcode where
  /-- Does nothing. -/
  | nop
  /-- Pushes a byte string. -/
  | pushData
  /-- Pushes an integer. -/
  | pushInt
  /-- Pushes the top item once more. -/
  | dup
  /-- Removes the top item. -/
  | drop
  /-- Replaces two items by whether they are equal. -/
  | equal
  /-- Removes an item and faults if it is false. -/
  | throwIfNot
  /-- Leaves the current script. -/
  | ret
  /-- Runs the contract with the hash that follows. -/
  | appCall
  /-- Calls the host service with the name that follows. -/
  | syscall
deriving DecidableEq, Repr

namespace Opcode

/-- All opcodes in ascending order of their bytes. -/
def all : List Opcode :=
  [nop, pushData, pushInt, dup, drop, equal, throwIfNot, ret, appCall, syscall]

/-- The byte of an opcode. -/
def code : Opcode → UInt8
  | nop => 0x00
  | pushData => 0x01
  | pushInt => 0x02
  | dup => 0x10
  | drop => 0x11
  | equal => 0x20
  | throwIfNot => 0x21
  | ret => 0x30
  | appCall => 0x31
  | syscall => 0x32

/-- The opcode that a byte stands for. -/
def ofCode? : UInt8 → Option Opcode
  | 0x00 => some nop
  | 0x01 => some pushData
  | 0x02 => some pushInt
  | 0x10 => some dup
  | 0x11 => some drop
  | 0x20 => some equal
  | 0x21 => some throwIfNot
  | 0x30 => some ret
  | 0x31 => some appCall
  | 0x32 => some syscall
  | _ => none

@[simp] theorem ofCode?_code (op : Opcode) : ofCode? op.code = some op := by
  cases op <;> rfl

/-- Opcodes are told apart by their bytes. -/
theorem code_inj {a b : Opcode} (h : a.code = b.code) : a = b :=
  Option.some.inj ((ofCode?_code a).symm.trans ((congrArg ofCode? h).trans (ofCode?_code b)))

/-- The name of an opcode in listings and messages. -/
def mnemonic : Opcode → String
  | nop => "NOP"
  | pushData => "PUSHDATA"
  | pushInt => "PUSHINT"
  | dup => "DUP"
  | drop => "DROP"
  | equal => "EQUAL"
  | throwIfNot => "THROWIFNOT"
  | ret => "RET"
  | appCall => "APPCALL"
  | syscall => "SYSCALL"

/-- Opcodes are told apart by their names. -/
theorem mnemonic_inj {a b : Opcode} (h : a.mnemonic = b.mnemonic) : a = b := by
  have hall : ∀ a ∈ all, ∀ b ∈ all, a.mnemonic = b.mnemonic → a = b := by decide
  have hmem : ∀ op : Opcode, op ∈ all := by
    intro op
    cases op <;> decide
  exact hall a (hmem a) b (hmem b) h

end Opcode

/-- An instruction with its operand. -/
inductive Instruction where
  | nop
  | pushData (data : Bytes)
  | pushInt (value : Int64)
  | dup
  | drop
  | equal
  | throwIfNot
  | ret
  | appCall (contract : Hash)
  | syscall (name : Bytes)
deriving DecidableEq

/-- Reads an integer of eight bytes in two's complement. -/
def Bytes.toInt64LE (bs : Bytes) : Int64 :=
  (UInt64.ofNat bs.toNatLE).toInt64

/-- The eight bytes of an integer in two's complement. -/
def Bytes.ofInt64LE (value : Int64) : Bytes :=
  Bytes.ofNatLE 8 value.toUInt64.toNat

namespace Instruction

/-- The opcode of an instruction. -/
def opcode : Instruction → Opcode
  | nop => .nop
  | pushData _ => .pushData
  | pushInt _ => .pushInt
  | dup => .dup
  | drop => .drop
  | equal => .equal
  | throwIfNot => .throwIfNot
  | ret => .ret
  | appCall _ => .appCall
  | syscall _ => .syscall

/-- The bytes behind the opcode. -/
def operand : Instruction → Bytes
  | pushData data => UInt8.ofNat data.length :: data
  | pushInt value => Bytes.ofInt64LE value
  | appCall contract => contract.bytes
  | syscall name => UInt8.ofNat name.length :: name
  | _ => []

/-- The bytes of an instruction. -/
def encode (i : Instruction) : Bytes :=
  i.opcode.code :: i.operand

/-- How many bytes an instruction takes. -/
def size (i : Instruction) : Nat :=
  i.operand.length + 1

@[simp] theorem length_encode (i : Instruction) : i.encode.length = i.size := rfl

/-! ## Reading code -/

/-- The first `n` bytes of the code at an offset. -/
def front (offset n : Nat) (code : Bytes) : Except Fault { bs : Bytes // bs.length = n } :=
  if h : n ≤ code.length then .ok ⟨code.take n, by simp [h]⟩
  else .error (.unexpectedEnd offset n code.length)

/-- The bytes behind a length byte in the code at an offset. -/
def inlineOperand (offset : Nat) : Bytes → Except Fault Bytes
  | [] => .error (.unexpectedEnd offset 1 0)
  | n :: code => (front (offset + 1) n.toNat code).map Subtype.val

/-- The instruction at the front of the code at an offset. -/
def parse (offset : Nat) : Bytes → Except Fault Instruction
  | [] => .error (.unexpectedEnd offset 1 0)
  | b :: code =>
    match Opcode.ofCode? b with
    | none => .error (.invalidInstruction b offset)
    | some .nop => .ok nop
    | some .pushData => (inlineOperand (offset + 1) code).map pushData
    | some .pushInt => (front (offset + 1) 8 code).map fun bs => pushInt bs.val.toInt64LE
    | some .dup => .ok dup
    | some .drop => .ok drop
    | some .equal => .ok equal
    | some .throwIfNot => .ok throwIfNot
    | some .ret => .ok ret
    | some .appCall => (front (offset + 1) 32 code).map fun bs => appCall (Hash.ofBlock bs)
    | some .syscall => (inlineOperand (offset + 1) code).map syscall

end Instruction

end LedgerNode
