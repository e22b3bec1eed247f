import OrderTelemetry.Http.Form
import OrderTelemetry.Http.Message
import OrderTelemetry.Record.Wire
import OrderTelemetry.Stats.Wire

/-!
# The client

A client asks a server for statistics and records, and sends it submissions.  How a request reaches
the server is up to a `Transport`, which may be a network or a server that is at hand as a state.

A response that is no success becomes a fault with the message of its body; a response that cannot
be read becomes a fault too.
-/

namespace OrderTelemetry.Http

/-- Carries a request to a server and gives the response, or the reason why there is none. -/
abbrev Transport (m : Type → Type) := Request → m (Except String Response)

/-- A server that cannot be reached. -/
def Transport.unreachable {m : Type → Type} [Pure m] : Transport m :=
  fun _ => pure (.error "connection refused")

/-- A client for the server at an address. -/
structure Client where
  baseUrl : String
  deriving DecidableEq, Repr

namespace Client

/-- A client for an address, which may end with slashes. -/
def ofUrl (url : String) : Client :=
  ⟨String.ofList (url.toList.reverse.dropWhile (· = '/')).reverse⟩

/-- The text after a prefix. -/
def dropText (start s : List Char) : Option (List Char) :=
  if start.isPrefixOf s then some (s.drop start.length) else none

/-- The path under which the server lives at an address. -/
def basePath (c : Client) : String :=
  let s := c.baseUrl.toList
  let afterScheme := ((dropText "http://".toList s).or (dropText "https://".toList s)).getD s
  String.ofList (afterScheme.dropWhile (· != '/'))

/-- A request that reads. -/
def get (c : Client) (path : String) (query : List (String × String) := []) : Request where
  method := "GET"
  target := c.basePath ++ path ++ (if query.isEmpty then "" else "?" ++ Form.encode query)

/-- The message of a response that is no success: the one of its body if it has one, or else the
whole body. -/
def failureMessage (r : Response) : String :=
  match ErrorBody.codec.parse r.body with
  | .ok b => b.message
  | .error _ => r.body

/-- A response if it is a success. -/
def check (r : Response) : Except Fault Response :=
  if r.isSuccess then .ok r else .error (.api r.status (failureMessage r))

/-- The value in a response. -/
def decode {α : Type} (codec : Json.Codec α) (r : Response) : Except Fault α := do
  let r ← check r
  match codec.parse r.body with
  | .ok a => .ok a
  | .error _ => .error (.http "error decoding response body")

/-- A request that sends a submission. -/
def post (c : Client) (s : Submission) : Request where
  method := "POST"
  target := c.basePath ++ "/api/logs"
  headers := [("content-type", Response.jsonType)]
  body := Submission.codec.write s

/-! ### Calls -/

section Calls

variable {m : Type → Type} [Monad m] (c : Client) (t : Transport m)

/-- Sends a request and reads what comes back. -/
def send {α : Type} (r : Request) (read : Response → Except Fault α) : m (Except Fault α) := do
  match ← t r with
  | .ok response => return read response
  | .error cause => return .error (.http cause)

/-- The statistics that are always at hand. -/
def stats : m (Except Fault Stats) := send t (c.get "/api/stats") (decode Stats.codec)

/-- The statistics that need a scan. -/
def detailedStats : m (Except Fault DetailedStats) :=
  send t (c.get "/api/stats/detailed") (decode DetailedStats.codec)

/-- The newest records, newest first. -/
def recentLogs (limit : Option Nat) : m (Except Fault (List Record)) :=
  let query := match limit with
    | some n => [("limit", n.repr)]
    | none => []
  send t (c.get "/api/logs" query) (decode (.list Record.codec))

/-- The records of an order, oldest first. -/
def logsForOrder (orderId : String) : m (Except Fault (List Record)) :=
  send t (c.get "/api/logs" [("order_id", orderId)]) (decode (.list Record.codec))

/-- Sends a submission and gives the id of its record. -/
def record (s : Submission) : m (Except Fault Nat) := send t (c.post s) (decode recordedCodec)

/-- The text of an export. -/
def exportText : m (Except Fault String) :=
  send t (c.get "/export") fun r => (check r).map Response.body

end Calls

end Client

end OrderTelemetry.Http
