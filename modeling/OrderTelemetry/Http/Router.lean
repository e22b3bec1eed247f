import OrderTelemetry.Dashboard
import OrderTelemetry.Gateway
import OrderTelemetry.Http.Form
import OrderTelemetry.Http.MediaType
import OrderTelemetry.Http.Message
import OrderTelemetry.Record.Wire
import OrderTelemetry.Stats.Wire

/-!
# The server's answers

The server reads the store through the dashboard and writes to it through the gateway.  Five paths
are known; `Service.answer` says what a request for one of them gets and what it leaves behind.

A request that only asks for the head of a response is carried out like one for the whole, and its
response has no body.
-/

namespace OrderTelemetry

open Http

/-- The state of a server. -/
structure Service where
  gateway : Gateway
  dashboard : Dashboard

namespace Service

/-- The paths of the server. -/
inductive Route where
  | health
  | logs
  | stats
  | detailedStats
  | exports
  deriving DecidableEq, Repr

namespace Route

/-- The path of a route. -/
def path : Route → String
  | health => "/health"
  | logs => "/api/logs"
  | stats => "/api/stats"
  | detailedStats => "/api/stats/detailed"
  | exports => "/export"

/-- All routes. -/
def all : List Route := [health, logs, stats, detailedStats, exports]

/-- The route of a path. -/
def ofPath? (path : String) : Option Route := all.find? fun r => r.path = path

/-- The methods that a route takes. -/
def allowed : Route → String
  | logs => "GET,HEAD,POST"
  | _ => "GET,HEAD"

end Route

/-- What a request for records asks for. -/
structure LogsQuery where
  orderId : Option String := none
  limit : Option Nat := none
  deriving DecidableEq, Repr

/-- Takes another pair of the query.  A name must not come twice, and names that are not known do
not matter. -/
def LogsQuery.add (q : LogsQuery) (pair : String × String) : Option LogsQuery :=
  if pair.1 = "order_id" then
    if q.orderId.isSome then none else some { q with orderId := some pair.2 }
  else if pair.1 = "limit" then
    if q.limit.isSome then none
    else (Decimal.uint64? pair.2).map fun n => { q with limit := some n }
  else some q

/-- What a query asks for, if it can be understood. -/
def LogsQuery.ofQuery? (query : String) : Option LogsQuery :=
  (Form.decode query).foldlM LogsQuery.add {}

/-- The store behind the server. -/
def store (s : Service) : Store := s.gateway.store

/-- The server with another store. -/
def withStore (s : Service) (store : Store) : Service :=
  { s with gateway := { s.gateway with store } }

/-- The records that a query asks for: those of an order, or the newest. -/
def logs (s : Service) (q : LogsQuery) : List Record :=
  match q.orderId.map Text.trim with
  | some orderId =>
    if orderId.isEmpty then s.dashboard.recent s.store q.limit
    else Dashboard.ofOrder s.store orderId
  | none => s.dashboard.recent s.store q.limit

/-- A response that leaves the server as it is. -/
def replying (s : Service) (r : Response) : Step Service Response :=
  { answer := .ok r, state := s }

/-- The response to a request for records. -/
def getLogs (s : Service) (query : String) : Response :=
  match LogsQuery.ofQuery? query with
  | some q => .ofValue 200 (.list Record.codec) (s.logs q)
  | none => .ofText 400 "Failed to deserialize query string: not a query for records"

/-- The response to a submission whose body cannot be read. -/
def refusal : Json.Problem → Response
  | .mismatched =>
    .ofText 422 "Failed to deserialize the JSON body into the target type: not a submission"
  | .malformed | .truncated =>
    .ofText 400 "Failed to parse the request body as JSON: not a JSON text"

/-- Takes a submission. -/
def postLog (s : Service) (r : Request) (now : Instant) : Step Service Response :=
  if ((r.header? "content-type").map MediaType.isJson).getD false then
    match Submission.codec.parse r.body with
    | .error e => s.replying (refusal e)
    | .ok submission =>
      let step := s.gateway.submit submission now
      let state := { s with gateway := step.state }
      match step.answer with
      | .ok record =>
        { answer := .ok (.ofValue 201 recordedCodec record.id), state, notices := step.notices }
      | .error (.fault f) =>
        { answer := .ok f.response, state, notices := step.notices ++ f.notices }
      | .error e => { answer := .error e, state, notices := step.notices }
  else s.replying (.ofText 415 "Expected a request with the content type application/json")

/-- The response to a request for an export, and what is told about it. -/
def getExport (s : Service) (now : Instant) : Response × List Notice :=
  let e := s.dashboard.openExport s.store
  let fileName := s.dashboard.format.fileName now
  ({ status := 200
     contentType := some "text/csv; charset=utf-8"
     disposition := some ("attachment; filename=\"" ++ fileName ++ "\"")
     body := e.text },
   [.exporting e.rowCount fileName])

/-- Carries out a request that reads. -/
def get (s : Service) (route : Route) (query : String) (now : Instant) : Step Service Response :=
  match route with
  | .health => s.replying (.ofText 200 "OK")
  | .logs => s.replying (s.getLogs query)
  | .stats =>
    let step := s.store.stats
    { answer := step.answer.map (.ofValue 200 Stats.codec)
      state := s.withStore step.state
      notices := step.notices }
  | .detailedStats => s.replying (.ofValue 200 DetailedStats.codec s.store.detailedStats)
  | .exports =>
    let (response, notices) := s.getExport now
    { answer := .ok response, state := s, notices }

/-- What a request gets and what it leaves behind. -/
def answer (s : Service) (r : Request) (now : Instant) : Step Service Response :=
  match Route.ofPath? r.path with
  | none => s.replying { status := 404 }
  | some route =>
    if r.method = "GET" then s.get route r.query now
    else if r.method = "HEAD" then
      let step := s.get route r.query now
      { step with answer := step.answer.map Response.bodiless }
    else if r.method = "POST" ∧ route = .logs then s.postLog r now
    else s.replying { status := 405, allow := some route.allowed }

end Service

end OrderTelemetry
