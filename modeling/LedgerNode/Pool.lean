import LedgerNode.Intake
import Std.Data.HashMap

/-!
# The pool of pending transactions

Transactions wait in the pool in the order in which they were handed in. They are indexed by hash,
so that a second one of the same hash is found out at once.

- `Pool`: the index and the order.
- `Pool.check`: the conditions that a transaction alone has to meet.
- `Pool.submit`: adds a transaction or turns it away.
- `Pool.flush`: empties the pool.
- `Pool.transactions`: the pending transactions in order.
-/

namespace LedgerNode

/-- Pending transactions. -/
structure Pool where
  /-- The transactions by hash. -/
  index : Std.HashMap Hash Transaction := ∅
  /-- The hashes in the order in which the transactions were handed in. -/
  order : Array Hash := #[]

namespace Pool

instance : EmptyCollection Pool := ⟨{}⟩

instance : Inhabited Pool := ⟨∅⟩

/-- Whether a transaction with a given hash is pending. -/
def contains (pool : Pool) (hash : Hash) : Bool :=
  pool.index.contains hash

/-- How many transactions are pending. -/
def size (pool : Pool) : Nat :=
  pool.index.size

/-- Whether no transaction is pending. -/
def isEmpty (pool : Pool) : Bool :=
  pool.index.isEmpty

/-- The pool without its transactions. -/
def flush (_ : Pool) : Pool := ∅

/-- The pending transactions in the order in which they were handed in. -/
def transactions (pool : Pool) : List Transaction :=
  pool.order.toList.filterMap fun hash => pool.index[hash]?

/-- Whether a transaction is a record with something to record, or no record at all. -/
def hasRecord (tx : Transaction) : Bool :=
  match tx.kind, tx.payload with
  | .transferAsset, _ => true
  | .record, none => false
  | .record, some p => !p.data.isEmpty

/-- The conditions on a transaction alone. Of several overlong attributes the first is named. -/
def check (tx : Transaction) : Except Refusal Unit :=
  match tx.attributes.find? fun a => Transaction.Attribute.maxLength < a.data.length with
  | some a => .error (.attributeTooLong a.data.length)
  | none => if hasRecord tx then .ok () else .error .emptyRecord

/-- Adds a transaction behind the others, or turns it away and leaves the pool as it is. -/
def submit (tx : Transaction) (pool : Pool) : Except Refusal Unit × Pool :=
  match check tx with
  | .error refusal => (.error refusal, pool)
  | .ok () =>
    let hash := tx.hash
    if pool.contains hash then (.error (.duplicate hash), pool)
    else (.ok (), { index := pool.index.insert hash tx, order := pool.order.push hash })

instance : Intake Pool := ⟨submit⟩

end Pool

end LedgerNode
