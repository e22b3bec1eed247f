import OrderTelemetry.Settings.Basic
import OrderTelemetry.Settings.Value

/-!
# Settings from written ones

A section of the settings is written as a table, or as a list of its settings in order.  What is not
written has its usual value, and what is written but has no meaning does not matter.
-/

namespace OrderTelemetry

namespace Setting

/-- The setting of a section with a name and a position, which may not be written. -/
def part (v : Setting) (position : Nat) (name : String) : Option Setting :=
  match v with
  | table ms => ms.lookup name
  | list items => items[position]?
  | _ => none

/-- Whether a value can be a section. -/
def isSection : Setting → Bool
  | table _ | list _ => true
  | _ => false

/-- A setting of a section, or its usual value if it is not written. -/
def partOr {α : Type} (v : Setting) (position : Nat) (name : String) (read : Setting → Option α)
    (usual : α) : Option α :=
  match v.part position name with
  | some w => read w
  | none => some usual

/-- A setting of a section that has no usual value. -/
def partOrNone {α : Type} (v : Setting) (position : Nat) (name : String)
    (read : Setting → Option α) : Option (Option α) :=
  v.partOr position name (fun w => (read w).map some) none

/-- A section, or none if the value cannot be one. -/
def asSection {α : Type} (v : Setting) (read : Setting → Option α) : Option α :=
  if v.isSection then read v else none

end Setting

/-- Numbers of sixty-four bits without a sign. -/
def Setting.uint64? : Setting → Option Nat := Setting.natural? 0xFFFFFFFFFFFFFFFF

/-- Where the server listens. -/
def ServerSettings.ofSetting? (v : Setting) : Option ServerSettings :=
  let usual : ServerSettings := {}
  v.asSection fun v => do
    let host ← v.partOr 0 "host" Setting.text? usual.host
    let port ← v.partOr 1 "port" (Setting.natural? 0xFFFF) usual.port
    return { host, port }

/-- How long records are kept in memory. -/
def RetentionSettings.ofSetting? (v : Setting) : Option RetentionSettings :=
  let usual : RetentionSettings := {}
  v.asSection fun v => do
    let maxRecords ← v.partOr 0 "max_records" Setting.uint64? usual.maxRecords
    let maxAgeSecs ← v.partOrNone 1 "max_age_secs" Setting.uint64?
    let sweepIntervalSecs ←
      v.partOr 2 "sweep_interval_secs" Setting.uint64? usual.sweepIntervalSecs
    return { maxRecords, maxAgeSecs, sweepIntervalSecs }

/-- How many records a page has. -/
def QuerySettings.ofSetting? (v : Setting) : Option QuerySettings :=
  let usual : QuerySettings := {}
  v.asSection fun v => do
    let defaultLimit ← v.partOr 0 "default_limit" Setting.uint64? usual.defaultLimit
    let maxLimit ← v.partOr 1 "max_limit" Setting.uint64? usual.maxLimit
    return { defaultLimit, maxLimit }

/-- The form of exports. -/
def ExportSettings.ofSetting? (v : Setting) : Option ExportSettings :=
  let usual : ExportSettings := {}
  v.asSection fun v => do
    let utcOffsetMinutes ← v.partOr 0 "utc_offset_minutes"
      (Setting.integer? (-0x80000000) 0x7FFFFFFF) usual.utcOffsetMinutes
    let timestampFormat ← v.partOr 1 "timestamp_format" Setting.text? usual.timestampFormat
    let rowsPerChunk ← v.partOr 2 "rows_per_chunk" Setting.uint64? usual.rowsPerChunk
    return { utcOffsetMinutes, timestampFormat, rowsPerChunk }

/-- What is remarked about submissions. -/
def IngestSettings.ofSetting? (v : Setting) : Option IngestSettings :=
  let usual : IngestSettings := {}
  v.asSection fun v => do
    let breakdownToleranceMs ←
      v.partOr 0 "breakdown_tolerance_ms" Setting.real? usual.breakdownToleranceMs
    return { breakdownToleranceMs }

/-- Where and how records are archived.  The path has to be written. -/
def StorageSettings.ofSetting? (v : Setting) : Option StorageSettings :=
  let usual : StorageSettings := { path := "" }
  v.asSection fun v => do
    let path ← (v.part 0 "path").bind Setting.text?
    let timeoutMs ← v.partOr 1 "timeout_ms" Setting.uint64? usual.timeoutMs
    let queueCapacity ← v.partOr 2 "queue_capacity" Setting.uint64? usual.queueCapacity
    let batchSize ← v.partOr 3 "batch_size" Setting.uint64? usual.batchSize
    let purgeAfterDays ← v.partOrNone 4 "purge_after_days" (Setting.natural? 0xFFFFFFFF)
    return { path, timeoutMs, queueCapacity, batchSize, purgeAfterDays }

/-- All settings. -/
def Settings.ofSetting? (v : Setting) : Option Settings := do
  let server ← v.partOr 0 "server" ServerSettings.ofSetting? {}
  let retention ← v.partOr 1 "retention" RetentionSettings.ofSetting? {}
  let query ← v.partOr 2 "query" QuerySettings.ofSetting? {}
  let exports ← v.partOr 3 "export" ExportSettings.ofSetting? {}
  let ingest ← v.partOr 4 "ingest" IngestSettings.ofSetting? {}
  let storage ← v.partOrNone 5 "storage" StorageSettings.ofSetting?
  return { server, retention, query, exports, ingest, storage }

end OrderTelemetry
