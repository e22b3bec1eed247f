import OrderTelemetry.Record

/-!
# Statistics

What the dashboard shows about the retained window.
-/

namespace OrderTelemetry

/-- The statistics that are always at hand. -/
structure Stats where
  totalOrders : Nat
  failedOrders : Nat
  avgRtt : Float
  p99Rtt : Float
  deriving DecidableEq, Repr

/-- A share in percent, of at least one. -/
def percentage (part whole : Nat) : Float := Float.ofNat part / Float.ofNat whole * 100.0

/-- The share of failed orders in percent, zero if there is no order. -/
def Stats.failureRate (s : Stats) : Float :=
  if s.totalOrders = 0 then 0.0 else percentage s.failedOrders s.totalOrders

/-- Four percentiles of the round-trip times. -/
structure Percentiles where
  p50 : Float
  p90 : Float
  p95 : Float
  p99 : Float
  deriving DecidableEq, Repr

/-- The shares of orders in percent whose total latency stayed below a bound. -/
structure SlaShares where
  under100 : Float
  under150 : Float
  under200 : Float
  deriving DecidableEq, Repr

/-- The statistics of one broker. -/
structure BrokerStats where
  broker : String
  totalOrders : Nat
  failedOrders : Nat
  avgRtt : Float
  p99Rtt : Float
  deriving DecidableEq, Repr

/-- The statistics that need a scan of the whole window. -/
structure DetailedStats where
  totalOrders : Nat
  failedOrders : Nat
  failureRate : Float
  avgRtt : Float
  avgTotal : Float
  avgOverhead : Float
  percentiles : Percentiles
  sla : SlaShares
  brokers : List BrokerStats
  deriving DecidableEq, Repr

/-- The statistics of an empty window. -/
def DetailedStats.empty : DetailedStats where
  totalOrders := 0
  failedOrders := 0
  failureRate := 0.0
  avgRtt := 0.0
  avgTotal := 0.0
  avgOverhead := 0.0
  percentiles := ⟨0.0, 0.0, 0.0, 0.0⟩
  sla := ⟨0.0, 0.0, 0.0⟩
  brokers := []

end OrderTelemetry
