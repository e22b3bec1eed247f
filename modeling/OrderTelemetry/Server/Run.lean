import OrderTelemetry.Archive.Writer
import OrderTelemetry.Demo
import OrderTelemetry.Http.Router
import OrderTelemetry.Server.Address
import OrderTelemetry.Server.Sweep
import OrderTelemetry.Settings.Basic

/-!
# Runs of the server

A run begins with the settings: the store is made, the archive is opened and the window filled from
it, and the server listens.  While it listens, requests are answered, old records are swept and a
demo feed may give submissions.  It ends when it is interrupted: the queue of the archive is
drained, so the next run over the same disk finds the records.

The process takes interrupts only once it has settled.  Setting up the file of a new archive delays
that beyond the point where the server listens, so an interrupt that follows at once ends such a run
there, and what it has not archived is lost.
-/

namespace OrderTelemetry.Server

/-- The archives on a disk by their paths. -/
abbrev Disk := List (String × Database)

/-- The disk with another state of an archive. -/
def Disk.save (disk : Disk) (path : String) (d : Database) : Disk :=
  (path, d) :: disk.filter fun entry => entry.1 != path

/-- An archive that a run has opened. -/
structure Opened where
  path : String
  archive : Archive
  /-- The writer of its queue, unless its ids could not be read. -/
  writer : Option Writer

/-- A server that listens. -/
structure Running where
  service : Service
  opened : Option Opened
  /-- The number of days that the archive keeps, if it does not keep everything. -/
  purgeAfterDays : Option Nat
  /-- The feed of a demo. -/
  feed : Option DemoFeed
  /-- The process takes interrupts. -/
  settled : Bool
  /-- Sweeps go on. -/
  sweeping : Bool

/-- The disk with an archive that a run has opened. -/
def Disk.saveOpened (disk : Disk) : Option Opened → Disk
  | some ⟨path, .database d, _⟩ => disk.save path d
  | _ => disk

/-- How a run begins. -/
structure Start where
  /-- The server, unless the run has ended before it listens. -/
  running : Option Running
  notices : List Notice
  /-- The disk, with the file of an archive that has been made. -/
  disk : Disk

/-- A store filled from the archive of the settings, with the queue of the archive. -/
structure Prepared where
  gateway : Gateway
  opened : Option Opened
  /-- The file of the archive has been made. -/
  isNew : Bool
  notices : List Notice

/-- Opens the archive of the settings and fills the gateway's store from it. -/
def prepare (gateway : Gateway) (storage : Option StorageSettings) (disk : Disk) (now : Instant) :
    Prepared :=
  match storage with
  | none => ⟨gateway, none, false, [.storageMissing]⟩
  | some s =>
    let found := disk.lookup s.path
    let database := { found.getD (.empty s.timeoutMs) with timeoutMs := s.timeoutMs }
    let archive := Archive.database database
    let step := gateway.store.restoreFrom archive gateway.store.retention.maxRecords now
    let gateway := { gateway with store := step.state }
    let told := [.archiveOpened s.path] ++ step.notices
    match step.answer with
    | .ok n =>
      { gateway := { gateway with queue := some (.ofCapacity s.queueCapacity) }
        opened := some ⟨s.path, archive, some (.ofBatchSize s.batchSize)⟩
        isNew := found.isNone
        notices := told ++ [.restored n] }
    | .error e =>
      { gateway
        opened := some ⟨s.path, archive, none⟩
        isNew := found.isNone
        notices := told ++ match e with
          | .fault f => [.idsUnreadable f]
          | _ => [] }

/-- The share of the orders of a demo that fail. -/
def demoFailureRate : Float := 0.05

/-- The time between two submissions of a demo feed. -/
def feedInterval : Duration := .ofMillis 750

namespace Running

/-- The archive that is swept.  One whose ids could not be read is left alone. -/
def sweptArchive (r : Running) : Option Archive :=
  r.opened.bind fun o => o.writer.map fun _ => o.archive

/-- Sweeps the store and the archive.  A sweep that fails is the last one. -/
def sweep (r : Running) (now : Instant) : Running × List Notice :=
  if r.sweeping then
    let step := Server.sweep r.purgeAfterDays ⟨r.service.store, r.sweptArchive⟩ now
    ({ r with
        service := r.service.withStore step.state.store
        opened := r.opened.map fun o => { o with archive := step.state.archive.getD o.archive }
        sweeping := step.answer.isOk },
      step.notices)
  else (r, [])

/-- Takes the next submission of the feed. -/
def feedNext (r : Running) (now : Instant) : Running × List Notice :=
  match r.feed.bind DemoFeed.next with
  | none => (r, [])
  | some (submission, feed) =>
    let step := r.service.gateway.record submission now
    let service := { r.service with gateway := step.state }
    ({ r with service, feed := some feed }, step.notices)

/-- What follows at once when the server listens: a sweep, and the first submission of the feed. -/
def settle (r : Running) (now : Instant) : Running × List Notice :=
  let (r, swept) := r.sweep now
  let (r, fed) := r.feedNext now
  (r, swept ++ (if r.feed.isSome then [.demoStarted feedInterval] else []) ++ fed)

/-- Answers a request. -/
def answer (r : Running) (request : Http.Request) (now : Instant) : Step Running Http.Response :=
  let step := r.service.answer request now
  { answer := step.answer
    state := { r with service := step.state }
    notices := step.notices }

/-- The queue with its writer and the archive, if records are archived. -/
def spool? (r : Running) : Option Spool :=
  match r.opened, r.service.gateway.queue with
  | some ⟨_, archive, some writer⟩, some queue => some ⟨queue, writer, archive, false⟩
  | _, _ => none

/-- The run with what its writer has made of a spool. -/
def withSpool (r : Running) (s : Spool) : Running :=
  { r with
    service :=
      { r.service with gateway := { r.service.gateway with queue := some s.queue } }
    opened := r.opened.map fun o => { o with archive := s.archive, writer := some s.writer } }

/-- Lets the writer archive what waits in the queue. -/
def write (r : Running) : Running × List Notice :=
  match r.spool? with
  | none => (r, [])
  | some s =>
    let (last, notices) := s.drain
    (r.withSpool last, notices)

/-- Lets the writer finish. -/
def flush (r : Running) : Running × List Notice :=
  match r.spool? with
  | none => (r, [])
  | some s =>
    let (finished, last, notices) := s.flush false
    (r.withSpool last, [.flushing] ++ notices ++ (if finished then [.flushed] else []))

end Running

/-- Begins a run with settings that have no flaw.  A demo has a feed. -/
def start (settings : Settings) (feed : Option DemoFeed) (disk : Disk) (now : Instant) : Start :=
  let policy := settings.retention.policy
  let gateway := Gateway.ofStore (.empty policy) settings.ingest.breakdownToleranceMs
  let p := prepare gateway settings.storage disk now
  let disk := disk.saveOpened p.opened
  let told := [.serverStarting, .retention policy.maxRecords policy.maxAge] ++ p.notices
  match settings.exports.format with
  | .error _ => ⟨none, told, disk⟩
  | .ok format =>
    let told := told ++ (if feed.isSome then [.demoMode] else [])
    match Address.ofHost? settings.server.host with
    | none => ⟨none, told, disk⟩
    | some address =>
      if address.isLocal then
        let dashboard : Dashboard :=
          ⟨.of settings.query.defaultLimit settings.query.maxLimit, format⟩
        let running : Running :=
          { service := ⟨p.gateway, dashboard⟩
            opened := p.opened
            purgeAfterDays := settings.storage.bind StorageSettings.purgeAfterDays
            feed
            settled := !p.isNew
            sweeping := true }
        let (running, settled) := running.settle now
        let host := settings.server.host ++ ":" ++ settings.server.port.repr
        ⟨some running, told ++ [.listening host] ++ settled, disk⟩
      else
        let flushed :=
          if p.gateway.queue.isSome then [.flushing, .writerStopped, .flushed] else []
        ⟨none, told ++ flushed, disk⟩

/-- How a run ends. -/
structure Ended where
  /-- The code of the process, unless the interrupt itself ended it. -/
  code : Option Nat
  notices : List Notice
  disk : Disk

/-- Ends a run by an interrupt. -/
def Running.interrupt (r : Running) (disk : Disk) : Ended :=
  if r.settled then
    let (last, notices) := r.flush
    { code := some 0
      notices := [.shutdown] ++ notices ++ [.serverStopped]
      disk := disk.saveOpened last.opened }
  else { code := none, notices := [], disk := disk.saveOpened r.opened }

end OrderTelemetry.Server
