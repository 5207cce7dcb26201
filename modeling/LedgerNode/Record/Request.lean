import LedgerNode.Bytes.Hex
import LedgerNode.Record.Selection

/-!
# Requests to record

A request is a JSON value. In raw mode it has the bytes to record as hexadecimal digits; otherwise
it has a record, which is kept in its JSON form under the key that the request itself names.

- `Record.data`: the bytes that a request asks to record.
- `Record.RequestError`: why there are none.
-/

namespace LedgerNode.Record

/-- Why a request has no bytes to record. -/
inductive RequestError where
  /-- The raw data is no text. -/
  | rawNotText
  /-- The raw data is not hexadecimal. -/
  | badHex (error : Hex.Error)
  /-- The record is no object. -/
  | notAnObject
  /-- A field of the record does not fit. -/
  | malformed (error : ShapeError)
  /-- The request names no key. -/
  | missingKey

/-- The wording of an error. -/
def RequestError.message : RequestError → String
  | rawNotText => "RecordData must be a hex string in raw mode"
  | badHex error => "RecordData is not valid hex: " ++ error.message
  | notAnObject => "RecordData must be an object"
  | malformed error => "malformed RecordData: " ++ error.message
  | missingKey => "CAkey must be a string"

/-- Whether a request is in raw mode. -/
def isRaw (request : Json) : Bool :=
  (request.get? "Raw").bind Json.text? = some "1"

/-- The bytes of a request in raw mode. -/
def rawData (request : Json) : Except RequestError Bytes :=
  match (request.get? "RecordData").bind Json.text? with
  | none => .error .rawNotText
  | some digits => (Bytes.ofHex digits).mapError .badHex

/-- The record of a request, under the key that the request names. -/
def ofRequest (request : Json) : Except RequestError Record :=
  match (request.get? "RecordData").bind Json.members? with
  | none => .error .notAnObject
  | some members =>
    match read members with
    | .error e => .error (.malformed e)
    | .ok record =>
      match (request.get? "CAkey").bind Json.text? with
      | none => .error .missingKey
      | some key => .ok { record with key }

/-- The bytes that a request asks to record. -/
def data (request : Json) : Except RequestError Bytes :=
  if isRaw request then rawData request
  else (ofRequest request).map fun record => Bytes.ofText record.toJson.render

end LedgerNode.Record
