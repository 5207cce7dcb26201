import LedgerNode.Json.Writer

/-!
# Responses

Every request is answered by a response of one form: a code, its description and a result.

- `Response`: a code with a result.
- `Response.toJson`: the JSON form, with the description of the code.
-/

namespace LedgerNode

/-- The answer to a request. -/
structure Response where
  /-- What became of the request; zero for success. -/
  code : Int64
  /-- The result, empty if there is none. -/
  result : String := ""
deriving DecidableEq, Repr

namespace Response

/-- The code of success. -/
def success : Int64 := 0

/-- The code of a request that cannot be understood. -/
def invalidParameters : Int64 := 42003

/-- The version of the interface that responses belong to. -/
def version : String := "1.0.0"

/-- The description of a code. -/
def describe (code : Int64) : String :=
  if code = success then "SUCCESS"
  else if code = invalidParameters then "INVALID PARAMS"
  else if code = 45002 then "INTERNAL ERROR"
  else if code = 45006 then "INVALID ATTRIBUTE"
  else if code = 45008 then "INVALID TRANSACTION PAYLOAD"
  else "UNKNOWN ERROR"

/-- Whether a request succeeded. -/
def isSuccess (r : Response) : Bool :=
  r.code = success

/-- The description of a response's code. -/
def description (r : Response) : String :=
  describe r.code

/-- The JSON form of a response. -/
def toJson (r : Response) : Json :=
  .object [("Action", .text ""), ("Desc", .text r.description), ("Error", .integer r.code.toInt),
    ("Result", .text r.result), ("Version", .text version)]

end Response

end LedgerNode
