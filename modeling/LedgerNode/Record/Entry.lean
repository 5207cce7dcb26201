import LedgerNode.Json.Writer

/-!
# Records

A record is what a client wants to be kept: a signed content under a key, with a sequence number and
a point in time. Transactions carry it in its JSON form.

- `Record`, with `Record.Content`: the fields of a record, each with its default.
- `Record.toJson`: the JSON form.
-/

namespace LedgerNode

/-- The signed content of a record. -/
structure Record.Content where
  /-- How the content was hashed. -/
  algorithm : String := ""
  /-- The hash of the content. -/
  hash : String := ""
  /-- The signature on the content. -/
  signature : String := ""
  /-- The text recorded. -/
  text : String := ""
deriving DecidableEq, Repr

/-- A record. -/
structure Record where
  /-- The key under which the record is made. -/
  key : String := ""
  /-- What is recorded. -/
  content : Record.Content := {}
  /-- The number of the record in its series. -/
  sequence : String := ""
  /-- When the record was made. -/
  timestamp : Binary64 := .zero false
deriving DecidableEq, Repr

namespace Record

/-- A number in JSON: an integer if it is whole and fits in 64 bits with a sign. -/
def numberJson (x : Binary64) : Json :=
  match x.whole? with
  | some n => if Int64.minValue.toInt ≤ n ∧ n ≤ Int64.maxValue.toInt then .integer n else .real x
  | none => .real x

/-- The JSON form of a content. -/
def Content.toJson (c : Content) : Json :=
  .object [("Algrithem", .text c.algorithm), ("Hash", .text c.hash),
    ("Signature", .text c.signature), ("Text", .text c.text)]

/-- The JSON form of a record. -/
def toJson (r : Record) : Json :=
  .object [("CAkey", .text r.key), ("Data", r.content.toJson), ("SeqNo", .text r.sequence),
    ("Timestamp", numberJson r.timestamp)]

end Record

end LedgerNode
