import OrderTelemetry.Json.Fields
import OrderTelemetry.Notice

/-!
# Requests and responses

What goes over the wire between a client and the server, with the bodies that are JSON.
-/

namespace OrderTelemetry.Http

open Json

/-- A request. -/
structure Request where
  method : String
  /-- The path with the query after a question mark. -/
  target : String
  headers : List (String × String) := []
  body : String := ""
  deriving DecidableEq, Repr

namespace Request

/-- The target up to where its query begins. -/
def path (r : Request) : String :=
  String.ofList (r.target.toList.takeWhile fun c => c != '?' && c != '#')

/-- The query of the target. -/
def query (r : Request) : String :=
  let tail := r.target.toList.dropWhile fun c => c != '?' && c != '#'
  match tail with
  | '?' :: rest => String.ofList (rest.takeWhile (· != '#'))
  | _ => ""

/-- The value of a header, whose name may be written in any case. -/
def header? (r : Request) (name : String) : Option String :=
  (r.headers.find? fun h => h.1.toLower = name).map Prod.snd

end Request

/-- A response. -/
structure Response where
  status : Nat
  contentType : Option String := none
  disposition : Option String := none
  allow : Option String := none
  body : String := ""
  deriving DecidableEq, Repr

namespace Response

/-- The media type of JSON. -/
def jsonType : String := "application/json"

/-- The media type of plain text. -/
def textType : String := "text/plain; charset=utf-8"

/-- A response with a value. -/
def ofValue {α : Type} (status : Nat) (c : Codec α) (a : α) : Response :=
  { status, contentType := some jsonType, body := c.write a }

/-- A response with plain text. -/
def ofText (status : Nat) (body : String) : Response :=
  { status, contentType := some textType, body }

/-- The same response without its body. -/
def bodiless (r : Response) : Response := { r with body := "" }

/-- Whether the request has been carried out. -/
def isSuccess (r : Response) : Bool := 200 ≤ r.status && r.status < 300

end Response

/-! ### Bodies -/

/-- The body of a response to a request that failed. -/
structure ErrorBody where
  status : String
  message : String
  deriving DecidableEq, Repr

/-- Bodies of failed requests. -/
def ErrorBody.codec : Codec ErrorBody :=
  (Fields.codec <|
    .cons (.required "status" .text) <|
    .cons (.required "message" .text) .nil).map
  (fun (status, message, _) => { status, message })
  fun b => (b.status, b.message, ())

/-- The body of a response to a submission, with the id of its record. -/
def recordedCodec : Codec Nat :=
  (Fields.codec <| .cons (.required "id" .uint64) .nil).map (fun (id, _) => id) fun id => (id, ())

end OrderTelemetry.Http

namespace OrderTelemetry

/-- The status of a response to a request that failed. -/
def Fault.status : Fault → Nat
  | validation .. => 422
  | unavailable .. => 503
  | timeout .. => 504
  | _ => 500

/-- The response to a request that failed. -/
def Fault.response (f : Fault) : Http.Response :=
  .ofValue f.status Http.ErrorBody.codec ⟨"error", f.message⟩

/-- What is told about a request that failed.  Faults of the caller are passed over. -/
def Fault.notices (f : Fault) : List Notice := if 500 ≤ f.status then [.requestFailed f] else []

end OrderTelemetry
