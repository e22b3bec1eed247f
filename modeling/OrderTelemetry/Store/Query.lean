import OrderTelemetry.Stats.Scan
import OrderTelemetry.Store.Basic

/-!
# Reading the store

Records are found by id with a binary search, since ids rise along the window, and by order through
the index.  Statistics come from the running totals; the percentile needs the sorted round-trip
times, which are sorted anew only if the window has changed since the last time.
-/

namespace OrderTelemetry.Store

/-- The record with an id between two positions of a window whose ids rise. -/
def search (window : Array Record) (id low high : Nat) : Option Record :=
  if low < high then
    let middle := (low + high) / 2
    match window[middle]? with
    | none => none
    | some r =>
      if r.id = id then some r
      else if r.id < id then search window id (middle + 1) high
      else search window id low middle
  else none
termination_by high - low

/-- The record with an id. -/
def get? (s : Store) (id : Nat) : Option Record := search s.window id 0 s.window.size

/-- The records of an order, oldest first. -/
def ofOrder (s : Store) (orderId : String) : List Record :=
  ((s.byOrder[orderId]?.getD #[]).toList).filterMap s.get?

/-- The newest records up to a number, newest first. -/
def recent (s : Store) (limit : Nat) : List Record :=
  (s.window.extract (s.window.size - limit) s.window.size).toList.reverse

/-- The sorted round-trip times of the window: the sample at hand unless it is older than the
window. -/
def sortedSample (s : Store) : SortedSample :=
  match s.sample with
  | some sample => if s.generation ≤ sample.generation then sample else fresh
  | none => fresh
where
  fresh : SortedSample :=
    ⟨s.generation,
      (Percentile.ascending (s.window.toList.map fun r => r.latencies.rtt)).toArray⟩

/-- Whether the sample at hand is that of the window as it is. -/
def sampleIsCurrent (s : Store) : Bool :=
  match s.sample with
  | some sample => s.generation ≤ sample.generation
  | none => false

/-- The statistics of the window.  They leave a current sample in the store. -/
def stats (s : Store) : Step Store Stats :=
  let sample := s.sortedSample
  { answer := .ok (s.totals.toStats (Percentile.nearestRank sample.rtts 99.0))
    state := { s with sample := some sample }
    notices :=
      if s.sampleIsCurrent then [] else [.sampleRebuilt sample.rtts.size sample.generation] }

/-- The statistics that need a scan of the window. -/
def detailedStats (s : Store) : DetailedStats := .ofRecords s.window.toList

end OrderTelemetry.Store
