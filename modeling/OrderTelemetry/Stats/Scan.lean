import OrderTelemetry.Stats.Percentile
import OrderTelemetry.Stats.Totals

/-!
# Detailed statistics

One pass over the records gathers sums, counts and the sample of round-trip times, for all records
and for each broker.  Brokers are kept in ascending order of their names; the order of the code
points is also the order of the bytes.
-/

namespace OrderTelemetry

/-- The totals of some records with their round-trip times. -/
structure Sample where
  totals : Totals
  rtts : Array Float

namespace Sample

/-- No records. -/
def zero : Sample := ⟨.zero, #[]⟩

/-- The sample with another record. -/
def add (s : Sample) (r : Record) : Sample := ⟨s.totals.add r, s.rtts.push r.latencies.rtt⟩

/-- The round-trip times in ascending order. -/
def sorted (s : Sample) : Array Float := (Percentile.ascending s.rtts.toList).toArray

/-- The statistics of a broker with this sample. -/
def brokerStats (s : Sample) (broker : String) : BrokerStats where
  broker
  totalOrders := s.totals.count
  failedOrders := s.totals.failed
  avgRtt := s.totals.avgRtt
  p99Rtt := Percentile.nearestRank s.sorted 99.0

end Sample

/-- Adds a record to the sample of its broker, among samples in ascending order of the brokers. -/
def addToBroker (r : Record) : List (String × Sample) → List (String × Sample)
  | [] => [(r.broker, Sample.zero.add r)]
  | (broker, sample) :: rest =>
    if r.broker < broker then (r.broker, Sample.zero.add r) :: (broker, sample) :: rest
    else if r.broker = broker then (broker, sample.add r) :: rest
    else (broker, sample) :: addToBroker r rest

/-- What one pass over the records gathers. -/
structure Scan where
  all : Sample
  totalSum : Float
  overheadSum : Float
  under100 : Nat
  under150 : Nat
  under200 : Nat
  brokers : List (String × Sample)

namespace Scan

/-- No records. -/
def zero : Scan := ⟨.zero, 0.0, 0.0, 0, 0, 0, []⟩

/-- One more if a latency is below a bound. -/
def countUnder (bound latency : Float) (n : Nat) : Nat := if latency < bound then n + 1 else n

/-- The scan of one more record. -/
def add (s : Scan) (r : Record) : Scan where
  all := s.all.add r
  totalSum := s.totalSum + r.latencies.total
  overheadSum := s.overheadSum + r.latencies.overhead
  under100 := countUnder 100.0 r.latencies.total s.under100
  under150 := countUnder 150.0 r.latencies.total s.under150
  under200 := countUnder 200.0 r.latencies.total s.under200
  brokers := addToBroker r s.brokers

/-- The scan of a list of records. -/
def ofList (records : List Record) : Scan := records.foldl add zero

/-- The statistics that a scan of at least one record gives. -/
def details (s : Scan) : DetailedStats :=
  let count := s.all.totals.count
  let n := Float.ofNat count
  let sorted := s.all.sorted
  let percentile := Percentile.nearestRank sorted
  { totalOrders := count
    failedOrders := s.all.totals.failed
    failureRate := percentage s.all.totals.failed count
    avgRtt := s.all.totals.avgRtt
    avgTotal := s.totalSum / n
    avgOverhead := s.overheadSum / n
    percentiles := ⟨percentile 50.0, percentile 90.0, percentile 95.0, percentile 99.0⟩
    sla := ⟨percentage s.under100 count, percentage s.under150 count,
      percentage s.under200 count⟩
    brokers := s.brokers.map fun (broker, sample) => sample.brokerStats broker }

end Scan

/-- The detailed statistics of a list of records. -/
def DetailedStats.ofRecords (records : List Record) : DetailedStats :=
  if records.isEmpty then .empty else (Scan.ofList records).details

end OrderTelemetry
