import OrderTelemetry.Json.Fields
import OrderTelemetry.Record

/-!
# Records as JSON

Times are whole milliseconds since 1970, rounded down, and the five latencies are fields of the
record itself.
-/

namespace OrderTelemetry

open Json

/-- Order types by their words. -/
def OrderType.codec : Codec OrderType :=
  Codec.choice OrderType.name fun word => OrderType.all.find? fun t => t.name = word

/-- Outcomes by their words, in capitals or small letters. -/
def OrderStatus.codec : Codec OrderStatus :=
  Codec.choice OrderStatus.name fun word =>
    if word = "SUCCESS" ∨ word = "success" then some .success
    else if word = "FAILURE" ∨ word = "failure" then some .failure
    else none

/-- Instants as milliseconds. -/
def Instant.codec : Codec Instant :=
  (Codec.integer (-0x8000000000000000) 0xFFFFFFFFFFFFFFFF).filterMap Instant.ofMillis? Instant.millis

/-- The fields of a stored record. -/
def Record.fields : Fields [Nat, String, String, String, OrderType, Instant, Float, Float, Float,
    Float, Float, OrderStatus, Option String] :=
  .cons (.required "id" .uint64) <|
  .cons (.required "order_id" .text) <|
  .cons (.required "broker" .text) <|
  .cons (.required "symbol" .text) <|
  .cons (.required "order_type" OrderType.codec) <|
  .cons (.required "timestamp" Instant.codec) <|
  .cons (.required "rtt_ms" .real) <|
  .cons (.required "total_latency_ms" .real) <|
  .cons (.required "validation_latency_ms" .real) <|
  .cons (.required "response_latency_ms" .real) <|
  .cons (.required "overhead_ms" .real) <|
  .cons (.required "status" OrderStatus.codec) <|
  .cons (.nullable "error" .text) .nil

/-- Stored records. -/
def Record.codec : Codec Record :=
  Record.fields.codec.map
    (fun (id, orderId, broker, symbol, orderType, timestamp, rtt, total, validation, response,
        overhead, status, error, _) =>
      { id, orderId, broker, symbol, orderType, timestamp,
        latencies := { rtt, total, validation, response, overhead }, status, error })
    fun r => (r.id, r.orderId, r.broker, r.symbol, r.orderType, r.timestamp, r.latencies.rtt,
      r.latencies.total, r.latencies.validation, r.latencies.response, r.latencies.overhead,
      r.status, r.error, ())

/-- The fields of a submission. -/
def Submission.fields : Fields [String, String, String, String, Option Instant, Float, Float, Float,
    Float, Float, OrderStatus, Option String] :=
  .cons (.required "order_id" .text) <|
  .cons (.required "broker" .text) <|
  .cons (.required "symbol" .text) <|
  .cons (.required "order_type" .text) <|
  .cons (.withDefault "timestamp" Instant.codec.optional none) <|
  .cons (.required "rtt_ms" .real) <|
  .cons (.required "total_latency_ms" .real) <|
  .cons (.required "validation_latency_ms" .real) <|
  .cons (.required "response_latency_ms" .real) <|
  .cons (.required "overhead_ms" .real) <|
  .cons (.required "status" OrderStatus.codec) <|
  .cons (.withDefault "error" Codec.text.optional none) .nil

/-- Submissions. -/
def Submission.codec : Codec Submission :=
  Submission.fields.codec.map
    (fun (orderId, broker, symbol, orderType, timestamp, rtt, total, validation, response, overhead,
        status, error, _) =>
      { orderId, broker, symbol, orderType, timestamp,
        latencies := { rtt, total, validation, response, overhead }, status, error })
    fun s => (s.orderId, s.broker, s.symbol, s.orderType, s.timestamp, s.latencies.rtt,
      s.latencies.total, s.latencies.validation, s.latencies.response, s.latencies.overhead,
      s.status, s.error, ())

end OrderTelemetry
