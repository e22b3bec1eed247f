import OrderTelemetry.Dashboard
import OrderTelemetry.Record

/-!
# Settings

What can be set about the service, with the values that hold if nothing is set.  Some values that
can be written make no sense; `Settings.flaw?` gives the first of them.
-/

namespace OrderTelemetry

/-- Where the server listens. -/
structure ServerSettings where
  host : String := "127.0.0.1"
  port : Nat := 5000
  deriving DecidableEq, Repr

/-- How long records are kept in memory. -/
structure RetentionSettings where
  maxRecords : Nat := 10000
  maxAgeSecs : Option Nat := none
  sweepIntervalSecs : Nat := 60
  deriving DecidableEq, Repr

/-- How many records a page has. -/
structure QuerySettings where
  defaultLimit : Nat := 100
  maxLimit : Nat := 1000
  deriving DecidableEq, Repr

/-- The form of exports. -/
structure ExportSettings where
  utcOffsetMinutes : Int := 330
  timestampFormat : String := "%d-%m-%Y %I:%M:%S %p"
  rowsPerChunk : Nat := 500
  deriving DecidableEq, Repr

/-- What is remarked about submissions. -/
structure IngestSettings where
  breakdownToleranceMs : Float := 1.0
  deriving DecidableEq, Repr

/-- Where and how records are archived. -/
structure StorageSettings where
  path : String
  timeoutMs : Nat := 2000
  queueCapacity : Nat := 4096
  batchSize : Nat := 256
  purgeAfterDays : Option Nat := none
  deriving DecidableEq, Repr

/-- All settings.  Without storage the records are kept in memory only. -/
structure Settings where
  server : ServerSettings := {}
  retention : RetentionSettings := {}
  query : QuerySettings := {}
  exports : ExportSettings := {}
  ingest : IngestSettings := {}
  storage : Option StorageSettings := none
  deriving DecidableEq, Repr

/-- Values of settings that make no sense. -/
inductive SettingsFlaw where
  | noRecords
  | noAge
  | noPage
  | pageBeyondMaximum (standard maximum : Nat)
  | badTolerance
  | badOffset (minutes : Int)
  | badPattern (pattern : String)
  | noPath
  | noCapacity
  deriving DecidableEq, Repr

/-- The wording of a flaw. -/
def SettingsFlaw.reason : SettingsFlaw → String
  | noRecords => "retention.max_records must be greater than 0"
  | noAge => "retention.max_age_secs must be greater than 0"
  | noPage => "query limits must be greater than 0"
  | pageBeyondMaximum standard maximum =>
    "query.default_limit (" ++ standard.repr ++ ") exceeds query.max_limit (" ++ maximum.repr ++ ")"
  | badTolerance => "ingest.breakdown_tolerance_ms must be a non-negative number"
  | badOffset minutes => "export.utc_offset_minutes out of range: " ++ toString minutes
  | badPattern pattern =>
    "export.timestamp_format is not a valid strftime pattern: '" ++ pattern ++ "'"
  | noPath => "storage.path must not be empty"
  | noCapacity => "storage timeout, queue capacity and batch size must be greater than 0"

/-- The fault of settings with a flaw. -/
def SettingsFlaw.fault (f : SettingsFlaw) : Fault := .config f.reason

/-- The address under which clients of this machine reach the server. -/
def ServerSettings.baseUrl (s : ServerSettings) : String :=
  "http://" ++ (if s.host = "0.0.0.0" then "127.0.0.1" else s.host) ++ ":" ++ s.port.repr

/-- The bounds of the store. -/
def RetentionSettings.policy (s : RetentionSettings) : Retention :=
  let p := Retention.ofCount s.maxRecords
  match s.maxAgeSecs with
  | some n => p.withMaxAge (.ofSeconds n)
  | none => p

/-- The form of exports.  The zone has to be less than a day away from universal time. -/
def ExportSettings.format (s : ExportSettings) : Except SettingsFlaw ExportFormat :=
  if 86400 ≤ (s.utcOffsetMinutes * 60).natAbs then .error (.badOffset s.utcOffsetMinutes)
  else if Pattern.isValid s.timestampFormat then
    .ok
      ⟨s.utcOffsetMinutes * 60, s.timestampFormat, max 1 s.rowsPerChunk,
        Nat.le_max_left 1 s.rowsPerChunk⟩
  else .error (.badPattern s.timestampFormat)

/-- The first flaw of the storage settings. -/
def StorageSettings.flaw? (s : StorageSettings) : Option SettingsFlaw :=
  if Text.blank s.path then some .noPath
  else if s.timeoutMs = 0 ∨ s.queueCapacity = 0 ∨ s.batchSize = 0 then some .noCapacity
  else none

namespace Settings

/-- The first flaw of the settings. -/
def flaw? (s : Settings) : Option SettingsFlaw :=
  let q := s.query
  let tolerance := s.ingest.breakdownToleranceMs
  if s.retention.maxRecords = 0 then some .noRecords
  else if s.retention.maxAgeSecs = some 0 then some .noAge
  else if q.defaultLimit = 0 ∨ q.maxLimit = 0 then some .noPage
  else if q.maxLimit < q.defaultLimit then some (.pageBeyondMaximum q.defaultLimit q.maxLimit)
  else if !tolerance.isFinite ∨ tolerance < 0.0 then some .badTolerance
  else match s.exports.format with
    | .error f => some f
    | .ok _ => s.storage.bind StorageSettings.flaw?

/-- The settings themselves if they have no flaw. -/
def validated (s : Settings) : Except Fault Settings :=
  match s.flaw? with
  | some f => .error f.fault
  | none => .ok s

end Settings

end OrderTelemetry
