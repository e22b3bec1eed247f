import OrderTelemetry.Archive.Queue
import OrderTelemetry.Store.Basic

/-!
# The gateway

Everything that enters the store while the service runs comes through the gateway.  It checks a
submission and puts it into normal form (`Submission.normalize`), appends the draft to the store and
puts the stored record into the archive queue (`Gateway.submit`).  `Gateway.record` does the same
for a caller that cannot do anything about a refusal.
-/

namespace OrderTelemetry

namespace Submission

/-- A name without surrounding blanks, of which something has to be left. -/
def required (field text : String) : Except Fault String :=
  let trimmed := Text.trim text
  if trimmed.isEmpty then .error (.validation field .missing) else .ok trimmed

/-- The error text of a submission, if anything but blanks is in it. -/
def errorText (s : Submission) : Option String :=
  (s.error.map Text.trim).filter fun e => !e.isEmpty

/-- How far the phases are from the total latency. -/
def breakdownGap (l : Latencies) : Float := (l.breakdown - l.total).abs

/-- The draft for a submission whose names are given in normal form. -/
def draft (s : Submission) (orderId broker symbol : String) (receivedAt : Instant) : Draft where
  orderId
  broker
  symbol
  orderType := .ofText s.orderType
  timestamp := (s.timestamp.getD receivedAt).truncated
  latencies := s.latencies
  status := s.status
  error := if s.status.isFailure then s.errorText else none

/-- What is worth telling about a submission that is accepted for an order. -/
def remarks (s : Submission) (orderId : String) (tolerance : Float) : List Notice :=
  let l := s.latencies
  let gap := breakdownGap l
  (if OrderType.ofText s.orderType = .other ∧ !Text.blank s.orderType then
    [.unknownOrderType s.orderType orderId] else []) ++
  (if tolerance < gap then [.breakdownGap orderId gap l.breakdown l.total] else []) ++
  (match s.status, s.errorText with
    | .failure, none => [.failureUnexplained orderId]
    | .success, some e => [.errorIgnored e orderId]
    | _, _ => [])

/-- A submission in normal form.  The three names have to be there and the latencies to be finite
numbers from zero on; the first that is not decides. -/
def normalize (s : Submission) (receivedAt : Instant) (tolerance : Float) :
    Except Fault Draft × List Notice :=
  let checked : Except Fault Draft := do
    let orderId ← required "order_id" s.orderId
    let broker ← required "broker" s.broker
    let symbol ← required "symbol" s.symbol
    match s.latencies.fault? with
    | some f => .error f
    | none => .ok (s.draft orderId broker symbol receivedAt)
  match checked with
  | .error f => (.error f, [])
  | .ok d => (.ok d, s.remarks d.orderId tolerance)

end Submission

/-- The way into the store. -/
structure Gateway where
  store : Store
  /-- The queue of the archive, if there is one. -/
  queue : Option Queue
  /-- How far in milliseconds the phases may be from the total latency without a remark. -/
  tolerance : Float

namespace Gateway

/-- A gateway to a store without an archive. -/
def ofStore (store : Store) (tolerance : Float) : Gateway := ⟨store, none, tolerance⟩

/-- Puts a stored record into the queue, if there is one. -/
def enqueue (g : Gateway) (r : Record) : Gateway × List Notice :=
  match g.queue with
  | none => (g, [])
  | some q =>
    let (_, q, notices) := q.enqueue r
    ({ g with queue := some q }, notices)

/-- Appends a submission and answers the stored record. -/
def submit (g : Gateway) (s : Submission) (now : Instant) : Step Gateway Record :=
  match s.normalize now g.tolerance with
  | (.error f, notices) => { answer := .error (.fault f), state := g, notices }
  | (.ok draft, remarks) =>
    let inserted := g.store.insert draft now
    let g := { g with store := inserted.state }
    match inserted.answer with
    | .error f => { answer := .error f, state := g, notices := remarks ++ inserted.notices }
    | .ok r =>
      let (g, notices) := g.enqueue r
      { answer := .ok r
        state := g
        notices := remarks ++ inserted.notices ++ notices ++ [.recorded r] }

/-- Appends a submission if it can be, and answers the id it got.  A refusal is told and otherwise
passed over. -/
def record (g : Gateway) (s : Submission) (now : Instant) : Step Gateway (Option Nat) :=
  let step := g.submit s now
  match step.answer with
  | .ok r => { step with answer := .ok (some r.id) }
  | .error (.fault f) =>
    { step with
      answer := .ok none
      notices := step.notices ++ [.submissionDropped s.orderId f] }
  | .error e => { step with answer := .error e }

end Gateway

end OrderTelemetry
