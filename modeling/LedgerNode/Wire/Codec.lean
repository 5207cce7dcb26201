import LedgerNode.Hash
import LedgerNode.Wire.Sink

/-!
# Codecs

A codec says how the values of a type are written as bytes and read back. Numbers are little-endian
and of fixed width; lists, byte strings and texts follow an eight-byte length; an optional value
follows a tag byte. Lengths are written whatever they are, but read only up to `maxLength`.

- `DecodeError`: what can be wrong with input.
- `Codec`: a writer into any sink together with a reader.
- `Codec.encode`, `Codec.decode`, `Codec.ofBytes`: the bytes of a value; the value at the front of
  the input and what follows it; the value that spans all of the input.
- `Codec.number`, `Codec.tagged`, `Codec.bytes`, `Codec.text`, `Codec.hash`, `Codec.list`,
  `Codec.optional`, `Codec.pair`, `Codec.map`: the codecs that all others are made of.
-/

namespace LedgerNode.Wire

/-- Why input is not the encoding of a value. -/
inductive DecodeError where
  /-- The input ends within the value. -/
  | unexpectedEnd
  /-- The bytes spell no value of the type, or more follows where nothing should. -/
  | invalidValue
  /-- A length lies beyond the greatest one that is read. -/
  | lengthOverflow
deriving DecidableEq, Repr

/-- The wording of an error. -/
def DecodeError.message : DecodeError → String
  | .unexpectedEnd => "unexpected end of input"
  | .invalidValue => "invalid value"
  | .lengthOverflow => "length prefix overflow"

/-- The greatest length that is read. -/
def maxLength : Nat := 1000000

/-- Reads a value from the front of the input and leaves the rest. -/
abbrev Reader := StateT Bytes (Except DecodeError)

namespace Reader

/-- Reads exactly `n` bytes. -/
def take (n : Nat) : Reader Bytes := fun input =>
  let (front, rest) := input.splitAt n
  if front.length = n then .ok (front, rest) else .error .unexpectedEnd

/-- Passes on a value that is there, and refuses the input otherwise. -/
def require {α : Type} : Option α → Reader α
  | some value => pure value
  | none => throw .invalidValue

end Reader

/-- A way to write the values of a type and to read them back. -/
structure Codec (α : Type) where
  /-- Writes a value to a sink. -/
  write : {σ : Type} → [Sink σ] → σ → α → σ
  /-- Reads a value. -/
  read : Reader α

namespace Codec

variable {α β : Type}

/-! ## Use -/

/-- The bytes of a value. -/
def encode (c : Codec α) (value : α) : Bytes :=
  (c.write (#[] : Array UInt8) value).toList

/-- How many bytes a value takes. -/
def encodedSize (c : Codec α) (value : α) : Nat :=
  (c.write ({} : ByteCount) value).count

/-- The value at the front of the input, and the rest of the input. -/
def decode (c : Codec α) (input : Bytes) : Except DecodeError (α × Bytes) :=
  c.read.run input

/-- The value that spans all of the input. -/
def ofBytes (c : Codec α) (input : Bytes) : Except DecodeError α :=
  match c.decode input with
  | .ok (value, []) => .ok value
  | .ok (_, _ :: _) => .error .invalidValue
  | .error e => .error e

/-! ## Numbers and tags -/

/-- Numbers of `width` bytes. -/
def number (width : Nat) (toNat : α → Nat) (ofNat : Nat → α) : Codec α where
  write out value := Sink.write out (Bytes.ofNatLE width (toNat value))
  read := return ofNat (← Reader.take width).toNatLE

/-- One byte. -/
def uint8 : Codec UInt8 := number 1 UInt8.toNat UInt8.ofNat

/-- Two bytes. -/
def uint16 : Codec UInt16 := number 2 UInt16.toNat UInt16.ofNat

/-- Four bytes. -/
def uint32 : Codec UInt32 := number 4 UInt32.toNat UInt32.ofNat

/-- Eight bytes. -/
def uint64 : Codec UInt64 := number 8 UInt64.toNat UInt64.ofNat

/-- Eight bytes in two's complement. -/
def int64 : Codec Int64 :=
  number 8 (fun value => value.toUInt64.toNat) (fun n => (UInt64.ofNat n).toInt64)

/-- Values of which each has a byte of its own. -/
def tagged (code : α → UInt8) (ofCode? : UInt8 → Option α) : Codec α where
  write out value := uint8.write out (code value)
  read := do Reader.require (ofCode? (← uint8.read))

/-- A truth value: one for true, zero for false. -/
def bool : Codec Bool :=
  tagged (fun b => if b then 1 else 0) fun
    | 0 => some false
    | 1 => some true
    | _ => none

/-! ## Sequences -/

/-- A length in front of a sequence. -/
def length : Codec Nat where
  write out n := Sink.write out (Bytes.ofNatLE 8 n)
  read := do
    let n := (← Reader.take 8).toNatLE
    if n ≤ maxLength then return n else throw .lengthOverflow

/-- A byte string behind its length. -/
def bytes : Codec Bytes where
  write out bs := Sink.write (length.write out bs.length) bs
  read := do Reader.take (← length.read)

/-- The UTF-8 form of a text behind its length. -/
def text : Codec String where
  write out s := bytes.write out (Bytes.ofText s)
  read := do Reader.require (← bytes.read).text?

/-- Exactly `n` bytes. -/
def block (n : Nat) : Codec Bytes where
  write out bs := Sink.write out bs
  read := Reader.take n

/-- The bytes of a hash. -/
def hash : Codec Hash where
  write out h := Sink.write out h.bytes
  read := do Reader.require (Hash.ofBytes? (← Reader.take Hash.size))

/-- A list behind its length. -/
def list (c : Codec α) : Codec (List α) where
  write out values := values.foldl c.write (length.write out values.length)
  read := do (List.replicate (← length.read) ()).mapM fun _ => c.read

/-- A tag byte, zero for no value and one in front of a value. -/
def optional (c : Codec α) : Codec (Option α) where
  write out
    | none => uint8.write out 0
    | some value => c.write (uint8.write out 1) value
  read := do
    match ← uint8.read with
    | 0 => return none
    | 1 => return some (← c.read)
    | _ => throw .invalidValue

/-! ## Composition -/

/-- One value behind another. -/
def pair (c : Codec α) (d : Codec β) : Codec (α × β) where
  write out value := d.write (c.write out value.1) value.2
  read := do
    let first ← c.read
    let second ← d.read
    return (first, second)

/-- The codec of a type whose values stand for those of another. -/
def map (c : Codec α) (toPlain : β → α) (ofPlain : α → β) : Codec β where
  write out value := c.write out (toPlain value)
  read := return ofPlain (← c.read)

end Codec

end LedgerNode.Wire
