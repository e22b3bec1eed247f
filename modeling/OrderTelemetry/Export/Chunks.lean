import OrderTelemetry.Export.Csv
import OrderTelemetry.Export.Format
import OrderTelemetry.Record

/-!
# Exports in chunks

An export walks over the records that were retained when it began and gives their rows in chunks of
a fixed number of rows, so the whole text need not be at hand at once.  The first chunk begins with
the names of the columns; an export of no records has just that chunk.

* `Export.next?`: the next chunk and the export after it.
* `Export.text`: all chunks together.
-/

namespace OrderTelemetry

/-- A walk over the records of an export. -/
structure Export where
  records : Array Record
  format : ExportFormat
  /-- The number of records whose rows have been written. -/
  position : Nat
  headerWritten : Bool

namespace Export

/-- The names of the columns. -/
def columns : List String :=
  ["id", "order_id", "broker", "symbol", "order_type", "timestamp", "rtt_ms", "total_latency_ms",
   "validation_latency_ms", "response_latency_ms", "overhead_ms", "status", "error"]

/-- The fields of the row for a record. -/
def rowFields (f : ExportFormat) (r : Record) : List String :=
  [r.id.repr, r.orderId, r.broker, r.symbol, r.orderType.name, f.timestamp r.timestamp,
   Decimal.plain r.latencies.rtt, Decimal.plain r.latencies.total,
   Decimal.plain r.latencies.validation, Decimal.plain r.latencies.response,
   Decimal.plain r.latencies.overhead, r.status.name, r.error.getD ""]

/-- An export at its beginning. -/
def ofRecords (records : Array Record) (format : ExportFormat) : Export :=
  ⟨records, format, 0, false⟩

/-- The number of rows of the whole export, the names of the columns aside. -/
def rowCount (e : Export) : Nat := e.records.size

/-- Whether nothing is left to write. -/
def finished (e : Export) : Bool := e.headerWritten && e.records.size ≤ e.position

/-- The records of the next chunk. -/
def pending (e : Export) : List Record :=
  (e.records.extract e.position (e.position + e.format.rowsPerChunk)).toList

/-- The text of the next chunk. -/
def chunk (e : Export) : String :=
  (if e.headerWritten then "" else Csv.row columns) ++
    String.join (e.pending.map fun r => Csv.row (rowFields e.format r))

/-- The export after its next chunk. -/
def advance (e : Export) : Export :=
  { e with
    position := min (e.position + e.format.rowsPerChunk) e.records.size
    headerWritten := true }

/-- The next chunk and the export after it, unless nothing is left. -/
def next? (e : Export) : Option (String × Export) :=
  if e.finished then none else some (e.chunk, e.advance)

/-- How far an export is from its end. -/
def remaining (e : Export) : Nat :=
  (e.records.size - e.position) + (if e.headerWritten then 0 else 1)

theorem remaining_advance {e : Export} (h : e.finished = false) :
    e.advance.remaining < e.remaining := by
  have := e.format.rowsPerChunk_pos
  cases hw : e.headerWritten <;> simp [finished, hw] at h <;>
    simp [remaining, advance, hw] <;> omega

/-- The chunks that are left. -/
def chunks (e : Export) : List String :=
  if _h : e.finished then [] else e.chunk :: e.advance.chunks
termination_by e.remaining
decreasing_by exact remaining_advance (by simpa using _h)

/-- The text of all chunks that are left. -/
def text (e : Export) : String := String.join e.chunks

end Export

end OrderTelemetry
