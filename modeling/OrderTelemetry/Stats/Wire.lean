import OrderTelemetry.Json.Fields
import OrderTelemetry.Stats

/-!
# Statistics as JSON
-/

namespace OrderTelemetry

open Json

/-- The statistics that are always at hand. -/
def Stats.codec : Codec Stats :=
  (Fields.codec <|
    .cons (.required "total_orders" .uint64) <|
    .cons (.required "failed_orders" .uint64) <|
    .cons (.required "avg_rtt" .real) <|
    .cons (.required "p99_rtt" .real) .nil).map
  (fun (totalOrders, failedOrders, avgRtt, p99Rtt, _) =>
    { totalOrders, failedOrders, avgRtt, p99Rtt })
  fun s => (s.totalOrders, s.failedOrders, s.avgRtt, s.p99Rtt, ())

/-- Percentiles. -/
def Percentiles.codec : Codec Percentiles :=
  (Fields.codec <|
    .cons (.required "p50" .real) <|
    .cons (.required "p90" .real) <|
    .cons (.required "p95" .real) <|
    .cons (.required "p99" .real) .nil).map
  (fun (p50, p90, p95, p99, _) => { p50, p90, p95, p99 })
  fun p => (p.p50, p.p90, p.p95, p.p99, ())

/-- Shares below the bounds. -/
def SlaShares.codec : Codec SlaShares :=
  (Fields.codec <|
    .cons (.required "under_100ms_pct" .real) <|
    .cons (.required "under_150ms_pct" .real) <|
    .cons (.required "under_200ms_pct" .real) .nil).map
  (fun (under100, under150, under200, _) => { under100, under150, under200 })
  fun s => (s.under100, s.under150, s.under200, ())

/-- The statistics of one broker. -/
def BrokerStats.codec : Codec BrokerStats :=
  (Fields.codec <|
    .cons (.required "broker" .text) <|
    .cons (.required "total_orders" .uint64) <|
    .cons (.required "failed_orders" .uint64) <|
    .cons (.required "avg_rtt" .real) <|
    .cons (.required "p99_rtt" .real) .nil).map
  (fun (broker, totalOrders, failedOrders, avgRtt, p99Rtt, _) =>
    { broker, totalOrders, failedOrders, avgRtt, p99Rtt })
  fun s => (s.broker, s.totalOrders, s.failedOrders, s.avgRtt, s.p99Rtt, ())

/-- The statistics that need a scan. -/
def DetailedStats.codec : Codec DetailedStats :=
  (Fields.codec <|
    .cons (.required "total_orders" .uint64) <|
    .cons (.required "failed_orders" .uint64) <|
    .cons (.required "failure_rate_pct" .real) <|
    .cons (.required "avg_rtt" .real) <|
    .cons (.required "avg_total_latency" .real) <|
    .cons (.required "avg_overhead" .real) <|
    .cons (.required "rtt_percentiles" Percentiles.codec) <|
    .cons (.required "sla" SlaShares.codec) <|
    .cons (.required "brokers" (.list BrokerStats.codec)) .nil).map
  (fun (totalOrders, failedOrders, failureRate, avgRtt, avgTotal, avgOverhead, percentiles, sla,
      brokers, _) =>
    { totalOrders, failedOrders, failureRate, avgRtt, avgTotal, avgOverhead, percentiles, sla,
      brokers })
  fun s => (s.totalOrders, s.failedOrders, s.failureRate, s.avgRtt, s.avgTotal, s.avgOverhead,
    s.percentiles, s.sla, s.brokers, ())

end OrderTelemetry
