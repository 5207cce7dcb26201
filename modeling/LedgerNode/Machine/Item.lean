import LedgerNode.Script.Instruction
import LedgerNode.Transaction

/-!
# Items of the evaluation stack

Scripts work on byte strings, integers, truth values and references to host objects.

- `Container`: the host object whose execution a script serves.
- `Item`: a value on the evaluation stack.
- `Item.same`: equality of items of one type, host objects by identity.
- `Item.bytes?`: the byte view of a primitive item.
- `Item.truth`: whether an assertion on the item passes.
- `Item.equalTo`: what the `EQUAL` instruction compares.
-/

namespace LedgerNode

/-- A host object that a script is run for. Two objects are the same if their identities are. -/
structure Container where
  /-- Which object this is. -/
  identity : Nat
  /-- The hash of the object. -/
  hash : Hash
  /-- What a witness of the object signs. -/
  message : Bytes
deriving DecidableEq

/-- A transaction as a host object. -/
def Transaction.container (tx : Transaction) (identity : Nat) : Container :=
  ⟨identity, tx.hash, tx.message⟩

/-- A value on the evaluation stack. -/
inductive Item where
  | bytes (data : Bytes)
  | integer (value : Int64)
  | boolean (value : Bool)
  /-- A reference to a host object. -/
  | interop (container : Container)
deriving DecidableEq

/-- The least number of bytes that spell an integer in little-endian two's complement, from a
spelling of it: a high byte that only repeats the sign of the byte below it is dropped. -/
def Bytes.dropSignBytes : Bytes → Bytes
  | last :: previous :: rest =>
    if (last = 0x00 ∧ previous < 0x80) ∨ (last = 0xff ∧ 0x80 ≤ previous) then
      dropSignBytes (previous :: rest)
    else last :: previous :: rest
  | bs => bs

/-- The shortest little-endian two's complement form of an integer; zero takes no byte. -/
def Bytes.ofInteger (value : Int64) : Bytes :=
  if value = 0 then [] else (Bytes.dropSignBytes (Bytes.ofInt64LE value).reverse).reverse

namespace Item

/-- An item that holds the bytes of a hash. -/
def ofHash (h : Hash) : Item := bytes h.bytes

/-- The name of an item's type in messages. -/
def typeName : Item → String
  | bytes _ => "ByteArray"
  | integer _ => "Integer"
  | boolean _ => "Boolean"
  | interop _ => "Interop"

/-- The byte view of a primitive item; host objects have none. -/
def bytes? : Item → Option Bytes
  | bytes data => some data
  | integer value => some (Bytes.ofInteger value)
  | boolean true => some [1]
  | boolean false => some []
  | interop _ => none

/-- The byte view of an item, or the fault of an instruction that needs one. -/
def toBytes (instruction : String) (item : Item) : Except Fault Bytes :=
  match item.bytes? with
  | some data => .ok data
  | none => .error (.typeMismatch instruction "primitive" item.typeName)

/-- Whether an item counts as true: a byte string with a non-zero byte, a non-zero integer, the
truth value itself, and every host object. -/
def truth : Item → Bool
  | bytes data => data.any (· ≠ 0)
  | integer value => value ≠ 0
  | boolean value => value
  | interop _ => true

/-- The host object that an item refers to. -/
def container? : Item → Option Container
  | interop c => some c
  | _ => none

/-- The byte string that an item holds. -/
def data? : Item → Option Bytes
  | bytes data => some data
  | _ => none

/-- Whether two items have one type and equal contents; host objects are compared by identity. -/
def same : Item → Item → Bool
  | bytes a, bytes b => a = b
  | integer a, integer b => a = b
  | boolean a, boolean b => a = b
  | interop a, interop b => a.identity = b.identity
  | _, _ => false

/-- Whether two items are equal to scripts: primitive items by their byte views, whatever their
types, and host objects by identity. -/
def equalTo (instruction : String) (a b : Item) : Except Fault Bool :=
  match a, b with
  | interop _, _ => .ok (a.same b)
  | _, interop _ => .ok (a.same b)
  | _, _ => do
    let x ← a.toBytes instruction
    let y ← b.toBytes instruction
    return x = y

end Item

end LedgerNode
