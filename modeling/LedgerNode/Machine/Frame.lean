import LedgerNode.Script.Instruction

/-!
# Frames of the invocation stack

A frame is a script under execution: its code and the hash of that, how far it has been read, and
its place in the invocation stack.

- `Frame`, with `Frame.start`: a frame at the beginning of its script.
- `Frame.Cursor`: reading that moves the instruction pointer.
- `Frame.take`: the next bytes of the script. Bytes that are not all there are not consumed.
- `Frame.fetch`: the next instruction. What was read before a fault stays consumed.
-/

namespace LedgerNode

/-- A script under execution. -/
structure Frame where
  /-- The code. -/
  script : Bytes
  /-- The offset of the next byte to read. -/
  ip : Nat
  /-- How many frames lie below. -/
  depth : Nat
  /-- The hash of the code, computed when first asked for. -/
  codeHash : Thunk Hash
  codeHash_get : codeHash.get = Hash.digest script

namespace Frame

/-- A frame at the beginning of its script. -/
def start (script : Bytes) (depth : Nat) : Frame where
  script
  ip := 0
  depth
  codeHash := Thunk.mk fun _ => Hash.digest script
  codeHash_get := rfl

/-- Whether all of the script has been read. -/
def atEnd (f : Frame) : Bool :=
  f.script.length ≤ f.ip

/-- Reading from a script: a result or a fault, and the frame it leaves. -/
abbrev Cursor := ExceptT Fault (StateM Frame)

/-- Reads the next `n` bytes. -/
def take (n : Nat) : Cursor { bs : Bytes // bs.length = n } := fun f =>
  if h : f.ip + n ≤ f.script.length then
    (.ok ⟨(f.script.drop f.ip).take n, by simp; omega⟩, { f with ip := f.ip + n })
  else
    (.error (.unexpectedEnd f.ip n (f.script.length - f.ip)), f)

/-- Reads the next byte. -/
def takeByte : Cursor UInt8 := do
  let ⟨[b], _⟩ ← take 1
  return b

/-- Reads a length byte and as many bytes. -/
def takeInline : Cursor Bytes := do
  let n ← takeByte
  return (← take n.toNat).val

/-- Reads an integer of eight bytes. -/
def takeInteger : Cursor Int64 :=
  return (← take 8).val.toInt64LE

/-- Reads a hash. -/
def takeHash : Cursor Hash := do
  return Hash.ofBlock (← take 32)

/-- Reads the next instruction. -/
def fetch : Cursor Instruction := do
  let offset := (← get).ip
  let b ← takeByte
  match Opcode.ofCode? b with
  | none => throw (.invalidInstruction b offset)
  | some .nop => return .nop
  | some .pushData => return .pushData (← takeInline)
  | some .pushInt => return .pushInt (← takeInteger)
  | some .dup => return .dup
  | some .drop => return .drop
  | some .equal => return .equal
  | some .throwIfNot => return .throwIfNot
  | some .ret => return .ret
  | some .appCall => return .appCall (← takeHash)
  | some .syscall => return .syscall (← takeInline)

end Frame

end LedgerNode
