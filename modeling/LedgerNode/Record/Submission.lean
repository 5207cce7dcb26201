import LedgerNode.Intake
import LedgerNode.Record.Request
import LedgerNode.Record.Response

/-!
# Submitting records

The bytes that a request asks to record become a transaction in one of two ways, and the response
tells what became of it.

- `Record.submitTransfer`: the bytes become attributes of a transfer, behind an attribute with the
  time of submission.
- `Record.submitRecord`: the bytes become the payload of a record transaction.
-/

namespace LedgerNode.Record

/-- The JSON form of a time of submission, in seconds. -/
def stamp (seconds : UInt64) : Bytes :=
  Bytes.ofText (Json.object [("InnerTimestamp", .integer seconds.toNat)]).render

/-- A transfer that carries bytes behind a time of submission. -/
def transferOf (seconds : UInt64) (bytes : Bytes) : Transaction :=
  .transfer (.description (stamp seconds) :: Transaction.describe bytes)

/-- The type under which records are filed. -/
def typeName : String := "record"

/-- A record transaction with bytes for its payload. -/
def recordOf (bytes : Bytes) : Transaction :=
  .recording typeName bytes

variable {σ : Type} [Intake σ]

/-- Hands in a transfer with the bytes of a request. The result is the transaction's hash if it is
taken. -/
def submitTransfer (request : Json) (seconds : UInt64) (intake : σ) : Response × σ :=
  match data request with
  | .error _ => ({ code := Response.invalidParameters }, intake)
  | .ok bytes =>
    let tx := transferOf seconds bytes
    match Intake.submit tx intake with
    | (.error refusal, intake) => ({ code := refusal.code }, intake)
    | (.ok (), intake) => ({ code := Response.success, result := tx.hash.toHex }, intake)

/-- Hands in a record transaction with the bytes of a request. The result is the transaction's hash
whether it is taken or not. -/
def submitRecord (request : Json) (intake : σ) : Response × σ :=
  match data request with
  | .error _ => ({ code := Response.invalidParameters }, intake)
  | .ok bytes =>
    let tx := recordOf bytes
    match Intake.submit tx intake with
    | (.error refusal, intake) => ({ code := refusal.code, result := tx.hash.toHex }, intake)
    | (.ok (), intake) => ({ code := Response.success, result := tx.hash.toHex }, intake)

end LedgerNode.Record
