import OrderTelemetry.Calendar.Render

/-!
# The form of an export

How times are written for people, and how many rows a chunk of the export has.
-/

namespace OrderTelemetry

/-- The form of an export. -/
structure ExportFormat where
  /-- The offset of the zone from universal time in seconds. -/
  offset : Int
  pattern : String
  rowsPerChunk : Nat
  rowsPerChunk_pos : 0 < rowsPerChunk

namespace ExportFormat

/-- A time in the zone of the export, after its pattern. -/
def timestamp (f : ExportFormat) (t : Instant) : String :=
  (LocalTime.ofInstant t f.offset).format f.pattern

/-- The name of a file that is exported at a given time. -/
def fileName (f : ExportFormat) (now : Instant) : String :=
  "latency_logs_" ++ (LocalTime.ofInstant now f.offset).format "%Y%m%d_%H%M%S" ++ ".csv"

end ExportFormat

end OrderTelemetry
