import OrderTelemetry.Record

/-!
# Archived rows

A row of the archive's table.  Other programs may write rows too, so a row need not be a record: its
time may lie outside the calendar, its id below zero, its status be any word.
-/

namespace OrderTelemetry

/-- A row of the archive. -/
structure Row where
  /-- The key of the row, a number of sixty-four bits with a sign. -/
  id : Int
  orderId : String
  broker : String
  symbol : String
  orderType : String
  timestampMs : Int
  latencies : Latencies
  status : String
  error : Option String
  deriving DecidableEq, Repr

namespace Row

/-- A latency as the archive stores it.  Negative zero loses its sign. -/
def stored (x : Float) : Float := if x == 0.0 then 0.0 else x

/-- The row for a record.  Ids from `2 ^ 63` on become negative. -/
def ofRecord (r : Record) : Row where
  id := Int.bmod r.id 0x10000000000000000
  orderId := r.orderId
  broker := r.broker
  symbol := r.symbol
  orderType := r.orderType.name
  timestampMs := r.timestamp.millis
  latencies :=
    ⟨stored r.latencies.rtt, stored r.latencies.total, stored r.latencies.validation,
      stored r.latencies.response, stored r.latencies.overhead⟩
  status := r.status.name
  error := r.error

/-- Whether the table takes the row: every latency has to be a number. -/
def isStorable (row : Row) : Bool := row.latencies.named.all fun (_, x) => !x.isNaN

/-- The record of a row, if it is one.  The time is looked at first, then the id, then the
status. -/
def toRecord (row : Row) : Except Fault Record :=
  match Instant.ofMillis? row.timestampMs with
  | none => .error (.validation "timestamp" (.outOfRange row.timestampMs))
  | some timestamp =>
    if row.id < 0 then .error (.validation "id" (.negativeId row.id))
    else match OrderStatus.ofText? row.status with
      | none =>
        .error (.validation "status" (.unknownStatus (Text.upper (Text.trim row.status))))
      | some status =>
        .ok { id := row.id.toNat
              orderId := row.orderId
              broker := row.broker
              symbol := row.symbol
              orderType := .ofText row.orderType
              timestamp
              latencies := row.latencies
              status
              error := row.error }

end Row

end OrderTelemetry
