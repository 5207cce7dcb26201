import LedgerNode.Transaction

/-!
# The binary format

The types of the binary format are the numbers, truth values, texts, byte strings, hashes and the
parts of transactions, closed under lists and optional values.

- `Format`: a type of the format.
- `Format.Value`: the values of a type.
- `Format.codec`: how they are written and read.
- `Format.InLimits`: no length within a value exceeds the greatest one that is read.
-/

namespace LedgerNode.Wire

/-- A type of the binary format. -/
inductive Format where
  | uint8
  | uint16
  | uint32
  | uint64
  | int64
  /-- A size, written as a number of 64 bits. -/
  | size
  | bool
  | text
  | bytes
  | hash
  | transactionKind
  | transactionAttribute
  | transactionPayload
  | transaction
  | list (item : Format)
  | optional (item : Format)
deriving DecidableEq, Repr

namespace Format

/-- The values of a type. -/
def Value : Format → Type
  | uint8 => UInt8
  | uint16 => UInt16
  | uint32 => UInt32
  | uint64 => UInt64
  | int64 => Int64
  | size => UInt64
  | bool => Bool
  | text => String
  | bytes => Bytes
  | hash => Hash
  | transactionKind => Transaction.Kind
  | transactionAttribute => Transaction.Attribute
  | transactionPayload => Transaction.Payload
  | transaction => Transaction
  | list item => List item.Value
  | optional item => Option item.Value

/-- How the values of a type are written and read. -/
def codec : (f : Format) → Codec f.Value
  | uint8 => Codec.uint8
  | uint16 => Codec.uint16
  | uint32 => Codec.uint32
  | uint64 => Codec.uint64
  | int64 => Codec.int64
  | size => Codec.uint64
  | bool => Codec.bool
  | text => Codec.text
  | bytes => Codec.bytes
  | hash => Codec.hash
  | transactionKind => Transaction.Kind.codec
  | transactionAttribute => Transaction.Attribute.codec
  | transactionPayload => Transaction.Payload.codec
  | transaction => Transaction.codec
  | list item => item.codec.list
  | optional item => item.codec.optional

/-- No length within a value exceeds the greatest one that is read. -/
def InLimits : (f : Format) → f.Value → Prop
  | text, (s : String) => (Bytes.ofText s).length ≤ maxLength
  | bytes, (bs : Bytes) => bs.length ≤ maxLength
  | transactionAttribute, (a : Transaction.Attribute) => a.data.length ≤ maxLength
  | transactionPayload, (p : Transaction.Payload) =>
    (Bytes.ofText p.recordType).length ≤ maxLength ∧ p.data.length ≤ maxLength
  | transaction, (tx : Transaction) =>
    tx.attributes.length ≤ maxLength ∧ (∀ a ∈ tx.attributes, a.data.length ≤ maxLength) ∧
      ∀ p ∈ tx.payload, (Bytes.ofText p.recordType).length ≤ maxLength ∧ p.data.length ≤ maxLength
  | list item, (values : List item.Value) =>
    values.length ≤ maxLength ∧ ∀ v ∈ values, item.InLimits v
  | optional item, (value : Option item.Value) => ∀ v ∈ value, item.InLimits v
  | _, _ => True

end Format

end LedgerNode.Wire
