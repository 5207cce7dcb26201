import LedgerNode.Wire.Codec

/-!
# Transactions

A transaction has a kind, attributes and, if it is a record, a payload. Its identity is the hash of
its encoding behind a domain tag.

- `Transaction`, with `Transaction.Kind`, `Transaction.Attribute`, `Transaction.Payload`.
- `Transaction.codec`: the binary form; `Transaction.message` is the encoding of a transaction.
- `Transaction.hash`: the identity of a transaction.
- `Transaction.describe`: a byte string cut into description attributes.
-/

namespace LedgerNode

namespace Transaction

open Wire

/-- What a transaction does. -/
inductive Kind where
  /-- Moves assets; recorded data rides along in its attributes. -/
  | transferAsset
  /-- Records its payload. -/
  | record
deriving DecidableEq, Repr

/-- The byte of a kind. -/
def Kind.code : Kind → UInt8
  | transferAsset => 0x80
  | record => 0x81

/-- The kind that a byte stands for. -/
def Kind.ofCode? : UInt8 → Option Kind
  | 0x80 => some transferAsset
  | 0x81 => some record
  | _ => none

@[simp] theorem Kind.ofCode?_code (k : Kind) : ofCode? k.code = some k := by
  cases k <;> rfl

/-- What the data of an attribute means. -/
inductive Usage where
  /-- Free-form text. -/
  | description
deriving DecidableEq, Repr

/-- The byte of a usage. -/
def Usage.code : Usage → UInt8
  | description => 0x90

/-- The usage that a byte stands for. -/
def Usage.ofCode? : UInt8 → Option Usage
  | 0x90 => some description
  | _ => none

@[simp] theorem Usage.ofCode?_code (u : Usage) : ofCode? u.code = some u := by
  cases u
  rfl

/-- Tagged data attached to a transaction. -/
structure Attribute where
  usage : Usage
  data : Bytes
deriving DecidableEq, Repr

/-- The greatest number of bytes that an attribute may carry. -/
def Attribute.maxLength : Nat := 252

/-- An attribute that holds a description. -/
def Attribute.description (data : Bytes) : Attribute := ⟨.description, data⟩

/-- What a record transaction records. -/
structure Payload where
  recordType : String
  data : Bytes
deriving DecidableEq, Repr

end Transaction

/-- A transaction. -/
structure Transaction where
  kind : Transaction.Kind
  attributes : List Transaction.Attribute
  payload : Option Transaction.Payload
deriving DecidableEq, Repr

namespace Transaction

open Wire

/-- A transfer that carries nothing but attributes. -/
def transfer (attributes : List Attribute) : Transaction :=
  ⟨.transferAsset, attributes, none⟩

/-- A transaction that records data under a type. -/
def recording (recordType : String) (data : Bytes) : Transaction :=
  ⟨.record, [], some ⟨recordType, data⟩⟩

/-! ## Description attributes -/

/-- A byte string cut into pieces of `size` bytes, the last one possibly shorter. A piece holds one
byte at least. -/
def pieces (size : Nat) : Bytes → List Bytes
  | [] => []
  | b :: bs => (b :: bs.take (size - 1)) :: pieces size (bs.drop (size - 1))
termination_by data => data.length
decreasing_by
  simp only [List.length_drop, List.length_cons]
  omega

/-- A byte string as description attributes, each as long as may be. -/
def describe (data : Bytes) : List Attribute :=
  (pieces Attribute.maxLength data).map Attribute.description

/-! ## Binary form -/

/-- The byte of a kind. -/
def Kind.codec : Codec Kind := .tagged Kind.code Kind.ofCode?

/-- The byte of a usage. -/
def Usage.codec : Codec Usage := .tagged Usage.code Usage.ofCode?

/-- The usage and the data of an attribute. -/
def Attribute.codec : Codec Attribute :=
  (Usage.codec.pair .bytes).map (fun a => (a.usage, a.data)) (fun (usage, data) => ⟨usage, data⟩)

/-- The type and the data of a record. -/
def Payload.codec : Codec Payload :=
  (Codec.text.pair .bytes).map (fun p => (p.recordType, p.data))
    (fun (recordType, data) => ⟨recordType, data⟩)

/-- The kind, the attributes and the optional payload of a transaction. -/
def codec : Codec Transaction :=
  (Kind.codec.pair (Attribute.codec.list.pair Payload.codec.optional)).map
    (fun tx => (tx.kind, tx.attributes, tx.payload))
    (fun (kind, attributes, payload) => ⟨kind, attributes, payload⟩)

/-- The encoding of a transaction. -/
def message (tx : Transaction) : Bytes := codec.encode tx

/-! ## Identity -/

/-- What is hashed in front of a transaction. -/
def domainTag : Bytes := Bytes.ofText "TX"

/-- The identity of a transaction. -/
def hash (tx : Transaction) : Hash :=
  Hash.ofHasher (codec.write (({} : Digest.Hasher).absorb domainTag) tx)

/-- The identity of a transaction by way of the slot that remembers it. -/
def cachedHash (tx : Transaction) (cache : HashCache) : Hash × HashCache :=
  cache.getOrCompute fun _ => tx.hash

end Transaction

end LedgerNode
