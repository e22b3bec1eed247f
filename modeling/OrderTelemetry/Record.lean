import OrderTelemetry.Calendar.Instant
import OrderTelemetry.Fault
import OrderTelemetry.Order

/-!
# Latency records

A measurement passes through three forms: a `Submission` as it was sent, a `Draft` that has been
checked and put into normal form, and a `Record` that the store has given an id.  All three carry
the same five `Latencies`.
-/

namespace OrderTelemetry

/-- The latencies of one order operation in milliseconds. -/
structure Latencies where
  rtt : Float
  total : Float
  validation : Float
  response : Float
  overhead : Float
  deriving DecidableEq, Repr

namespace Latencies

/-- The latencies with the names of their fields. -/
def named (l : Latencies) : List (String × Float) :=
  [("rtt_ms", l.rtt), ("total_latency_ms", l.total), ("validation_latency_ms", l.validation),
   ("response_latency_ms", l.response), ("overhead_ms", l.overhead)]

/-- The sum of the three phases. -/
def breakdown (l : Latencies) : Float := l.validation + l.response + l.overhead

/-- What is wrong with a single latency. -/
def flaw? (x : Float) : Option Flaw :=
  if !x.isFinite then some .notFinite
  else if x < 0.0 then some (.negative x)
  else none

/-- The first latency that is not a finite number from zero on. -/
def fault? (l : Latencies) : Option Fault :=
  l.named.findSome? fun (field, x) => (flaw? x).map (Fault.validation field)

end Latencies

/-- A record as it waits for its id. -/
structure Draft where
  orderId : String
  broker : String
  symbol : String
  orderType : OrderType
  timestamp : Instant
  latencies : Latencies
  status : OrderStatus
  error : Option String
  deriving DecidableEq, Repr

/-- A stored measurement of one order operation. -/
structure Record extends Draft where
  id : Nat
  deriving DecidableEq, Repr

/-- The draft with an id. -/
def Draft.withId (d : Draft) (id : Nat) : Record := { d with id }

/-- Whether the order failed. -/
def Draft.isFailure (d : Draft) : Bool := d.status.isFailure

/-- A measurement as it is sent. The order type is a word of the broker. -/
structure Submission where
  orderId : String
  broker : String
  symbol : String
  orderType : String
  timestamp : Option Instant
  latencies : Latencies
  status : OrderStatus
  error : Option String
  deriving DecidableEq, Repr

end OrderTelemetry
