import OrderTelemetry.Archive.Database
import OrderTelemetry.Decimal.Reader
import OrderTelemetry.Json.Fields

/-!
# The file of an archive

An archive is kept in a file as the list of its rows in JSON.  Latencies are texts there, so that an
infinite one has its place too.
-/

namespace OrderTelemetry

open Json

/-- Numbers of sixty-four bits with a sign. -/
def Row.integerCodec : Codec Int := .integer (-0x8000000000000000) 0x7FFFFFFFFFFFFFFF

/-- Latencies as texts. -/
def Row.latencyCodec : Codec Float := Codec.text.filterMap Decimal.real? Decimal.plain

/-- The fields of a row. -/
def Row.fields : Fields [Int, String, String, String, String, Int, Float, Float, Float, Float,
    Float, String, Option String] :=
  .cons (.required "id" integerCodec) <|
  .cons (.required "order_id" .text) <|
  .cons (.required "broker" .text) <|
  .cons (.required "symbol" .text) <|
  .cons (.required "order_type" .text) <|
  .cons (.required "timestamp_ms" integerCodec) <|
  .cons (.required "rtt_ms" latencyCodec) <|
  .cons (.required "total_latency_ms" latencyCodec) <|
  .cons (.required "validation_latency_ms" latencyCodec) <|
  .cons (.required "response_latency_ms" latencyCodec) <|
  .cons (.required "overhead_ms" latencyCodec) <|
  .cons (.required "status" .text) <|
  .cons (.nullable "error" .text) .nil

/-- Rows. -/
def Row.codec : Codec Row :=
  Row.fields.codec.map
    (fun (id, orderId, broker, symbol, orderType, timestampMs, rtt, total, validation, response,
        overhead, status, error, _) =>
      { id, orderId, broker, symbol, orderType, timestampMs
        latencies := { rtt, total, validation, response, overhead }, status, error })
    fun r => (r.id, r.orderId, r.broker, r.symbol, r.orderType, r.timestampMs, r.latencies.rtt,
      r.latencies.total, r.latencies.validation, r.latencies.response, r.latencies.overhead,
      r.status, r.error, ())

namespace Database

/-- The text of the file of an archive. -/
def text (d : Database) : String := (Codec.list Row.codec).write d.rows

/-- The archive in a file with a text, if it is one. -/
def ofText? (timeoutMs : Nat) (text : String) : Option Database :=
  match (Codec.list Row.codec).parse text with
  | .ok rows => some (rows.foldl addRow (empty timeoutMs))
  | .error _ => none

end Database

end OrderTelemetry
