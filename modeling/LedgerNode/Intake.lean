import LedgerNode.Transaction

/-!
# Handing in transactions

Whoever makes transactions hands them in somewhere: at the pool of pending transactions, or at any
other place that takes them or says why not.

- `Refusal`: why a transaction is turned away, with its wording and its code.
- `Intake`: a place where transactions are handed in.
-/

namespace LedgerNode

/-- Why a transaction is turned away. -/
inductive Refusal where
  /-- A transaction of the same hash is pending. -/
  | duplicate (hash : Hash)
  /-- An attribute carries more bytes than it may. -/
  | attributeTooLong (length : Nat)
  /-- A record transaction carries nothing to record. -/
  | emptyRecord
deriving DecidableEq

namespace Refusal

/-- The wording of a refusal. -/
def message : Refusal → String
  | duplicate hash => "transaction " ++ hash.toHex ++ " is already in the pool"
  | attributeTooLong length =>
    "attribute of " ++ Text.numeral length ++ " bytes exceeds " ++
      Text.numeral Transaction.Attribute.maxLength
  | emptyRecord => "record transaction without payload data"

/-- The code that clients are told. -/
def code : Refusal → Int64
  | duplicate _ => 45002
  | attributeTooLong _ => 45006
  | emptyRecord => 45008

end Refusal

/-- A place where transactions are handed in. -/
class Intake (σ : Type) where
  /-- Hands in a transaction: whether it was taken, and the place afterwards. -/
  submit : Transaction → σ → Except Refusal Unit × σ

end LedgerNode
