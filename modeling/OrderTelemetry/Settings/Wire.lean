import OrderTelemetry.Json.Fields
import OrderTelemetry.Settings.Basic

/-!
# Settings as JSON

Every setting but the path of the archive may be left out.
-/

namespace OrderTelemetry

open Json

/-- Where the server listens. -/
def ServerSettings.codec : Codec ServerSettings :=
  let standard : ServerSettings := {}
  (Fields.codec <|
    .cons (.withDefault "host" .text standard.host) <|
    .cons (.withDefault "port" (.natural 0xFFFF) standard.port) .nil).map
  (fun (host, port, _) => { host, port })
  fun s => (s.host, s.port, ())

/-- How long records are kept in memory. -/
def RetentionSettings.codec : Codec RetentionSettings :=
  let standard : RetentionSettings := {}
  (Fields.codec <|
    .cons (.withDefault "max_records" .uint64 standard.maxRecords) <|
    .cons (.withDefault "max_age_secs" Codec.uint64.optional standard.maxAgeSecs) <|
    .cons (.withDefault "sweep_interval_secs" .uint64 standard.sweepIntervalSecs) .nil).map
  (fun (maxRecords, maxAgeSecs, sweepIntervalSecs, _) =>
    { maxRecords, maxAgeSecs, sweepIntervalSecs })
  fun s => (s.maxRecords, s.maxAgeSecs, s.sweepIntervalSecs, ())

/-- How many records a page has. -/
def QuerySettings.codec : Codec QuerySettings :=
  let standard : QuerySettings := {}
  (Fields.codec <|
    .cons (.withDefault "default_limit" .uint64 standard.defaultLimit) <|
    .cons (.withDefault "max_limit" .uint64 standard.maxLimit) .nil).map
  (fun (defaultLimit, maxLimit, _) => { defaultLimit, maxLimit })
  fun s => (s.defaultLimit, s.maxLimit, ())

/-- The form of exports. -/
def ExportSettings.codec : Codec ExportSettings :=
  let standard : ExportSettings := {}
  (Fields.codec <|
    .cons (.withDefault "utc_offset_minutes" (.integer (-0x80000000) 0x7FFFFFFF)
      standard.utcOffsetMinutes) <|
    .cons (.withDefault "timestamp_format" .text standard.timestampFormat) <|
    .cons (.withDefault "rows_per_chunk" .uint64 standard.rowsPerChunk) .nil).map
  (fun (utcOffsetMinutes, timestampFormat, rowsPerChunk, _) =>
    { utcOffsetMinutes, timestampFormat, rowsPerChunk })
  fun s => (s.utcOffsetMinutes, s.timestampFormat, s.rowsPerChunk, ())

/-- What is remarked about submissions. -/
def IngestSettings.codec : Codec IngestSettings :=
  let standard : IngestSettings := {}
  (Fields.codec <|
    .cons (.withDefault "breakdown_tolerance_ms" .real standard.breakdownToleranceMs) .nil).map
  (fun (breakdownToleranceMs, _) => { breakdownToleranceMs })
  fun s => (s.breakdownToleranceMs, ())

/-- Where and how records are archived. -/
def StorageSettings.codec : Codec StorageSettings :=
  let standard : StorageSettings := { path := "" }
  (Fields.codec <|
    .cons (.required "path" .text) <|
    .cons (.withDefault "timeout_ms" .uint64 standard.timeoutMs) <|
    .cons (.withDefault "queue_capacity" .uint64 standard.queueCapacity) <|
    .cons (.withDefault "batch_size" .uint64 standard.batchSize) <|
    .cons (.withDefault "purge_after_days" (Codec.natural 0xFFFFFFFF).optional
      standard.purgeAfterDays) .nil).map
  (fun (path, timeoutMs, queueCapacity, batchSize, purgeAfterDays, _) =>
    { path, timeoutMs, queueCapacity, batchSize, purgeAfterDays })
  fun s => (s.path, s.timeoutMs, s.queueCapacity, s.batchSize, s.purgeAfterDays, ())

/-- All settings. -/
def Settings.codec : Codec Settings :=
  (Fields.codec <|
    .cons (.withDefault "server" ServerSettings.codec {}) <|
    .cons (.withDefault "retention" RetentionSettings.codec {}) <|
    .cons (.withDefault "query" QuerySettings.codec {}) <|
    .cons (.withDefault "export" ExportSettings.codec {}) <|
    .cons (.withDefault "ingest" IngestSettings.codec {}) <|
    .cons (.nullable "storage" StorageSettings.codec) .nil).map
  (fun (server, retention, query, exports, ingest, storage, _) =>
    { server, retention, query, exports, ingest, storage })
  fun s => (s.server, s.retention, s.query, s.exports, s.ingest, s.storage, ())

end OrderTelemetry
