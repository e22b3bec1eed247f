import OrderTelemetry.Stats

/-!
# Running totals

The counts and the sum of round-trip times of a window, kept up to date as records enter it at one
end and leave it at the other.  The sum never falls below zero, and it starts anew from zero once
the window is empty, so no rounding residue outlives the records.
-/

namespace OrderTelemetry

/-- What is counted over a window. -/
structure Totals where
  count : Nat
  failed : Nat
  rttSum : Float
  deriving DecidableEq, Repr

namespace Totals

/-- The totals of an empty window. -/
def zero : Totals := ⟨0, 0, 0.0⟩

/-- The totals once a record has entered. -/
def add (t : Totals) (r : Record) : Totals where
  count := t.count + 1
  failed := if r.isFailure then t.failed + 1 else t.failed
  rttSum := t.rttSum + r.latencies.rtt

/-- A double, or zero if it is not above zero. -/
def positive (x : Float) : Float := if 0.0 < x then x else 0.0

/-- The totals once a record has left. -/
def remove (t : Totals) (r : Record) : Totals where
  count := t.count - 1
  failed := if r.isFailure then t.failed - 1 else t.failed
  rttSum := if t.count ≤ 1 then 0.0 else positive (t.rttSum - r.latencies.rtt)

/-- The mean round-trip time, zero for an empty window. -/
def avgRtt (t : Totals) : Float :=
  if t.count = 0 then 0.0 else t.rttSum / Float.ofNat t.count

/-- The statistics with a given percentile. -/
def toStats (t : Totals) (p99Rtt : Float) : Stats where
  totalOrders := t.count
  failedOrders := t.failed
  avgRtt := t.avgRtt
  p99Rtt

end Totals

end OrderTelemetry
