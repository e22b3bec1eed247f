import OrderTelemetry.Proofs.Gateway.Admission
import OrderTelemetry.Proofs.Store.Filled
import OrderTelemetry.Server.Run

/-! # Runs that leave the archive alone

If the highest id of an archive cannot be read when the server starts, nobody knows which ids are
free.  Then the store stays empty, the gateway gets no queue and the archive no writer
(`Server.prepare_of_unreadable`), and whatever happens while the server listens, the archive stays
as it is (`Running.idle_of_start`, `Running.Idle.run`), also on the disk (`Running.Idle.interrupt`,
`disk_of_start`). -/

namespace OrderTelemetry

/-! ### Without a queue -/

theorem Gateway.queue_submit {g : Gateway} (h : g.queue = none) (x : Submission) (now : Instant) :
    (g.submit x now).state.queue = none := by
  rcases g.submit_cases x now with ⟨e, -, hstate⟩ | ⟨-, -, -, hstate⟩
  · rw [hstate, h]
  · rw [hstate]
    show g.queue.map _ = none
    rw [h]
    rfl

theorem Gateway.queue_record {g : Gateway} (h : g.queue = none) (x : Submission) (now : Instant) :
    (g.record x now).state.queue = none := by
  rw [g.record_state]
  exact queue_submit h x now

namespace Service

variable {s : Service}

theorem queue_postLog (h : s.gateway.queue = none) (r : Http.Request) (now : Instant) :
    (s.postLog r now).state.gateway.queue = none := by
  unfold postLog
  split_ifs
  · cases Submission.codec.parse r.body with
    | error e => exact h
    | ok x =>
      have hqueue := Gateway.queue_submit h x now
      dsimp only
      generalize s.gateway.submit x now = step at hqueue ⊢
      obtain ⟨answer, state, notices⟩ := step
      rcases answer with e | record
      · cases e <;> exact hqueue
      · exact hqueue
  · exact h

theorem queue_get (h : s.gateway.queue = none) (route : Route) (query : String) (now : Instant) :
    (s.get route query now).state.gateway.queue = none := by
  cases route <;> exact h

theorem queue_answer (h : s.gateway.queue = none) (r : Http.Request) (now : Instant) :
    (s.answer r now).state.gateway.queue = none := by
  unfold answer
  cases Route.ofPath? r.path with
  | none => exact h
  | some route =>
    dsimp only
    split_ifs
    · exact queue_get h route r.query now
    · exact queue_get h route r.query now
    · exact queue_postLog h r now
    · exact h

end Service

/-! ### A run -/

namespace Server

/-- What may happen while a server listens. -/
inductive Event where
  | request (r : Http.Request) (now : Instant)
  | sweep (now : Instant)
  | feed (now : Instant)
  | write
  | flush

/-- The database behind the settings of an archive. -/
def Disk.opened (disk : Disk) (s : StorageSettings) : Database :=
  { (disk.lookup s.path).getD (.empty s.timeoutMs) with timeoutMs := s.timeoutMs }

theorem prepare_of_unreadable (g : Gateway) {s : StorageSettings} {disk : Disk} {f : Fault}
    (h : (Archive.database (disk.opened s)).maxId = .error f) (now : Instant) :
    (prepare g (some s) disk now).gateway = g ∧
      (prepare g (some s) disk now).opened = some ⟨s.path, .database (disk.opened s), none⟩ := by
  have hrestore := g.store.restoreFrom_of_unreadable h g.store.retention.maxRecords now
  unfold prepare
  unfold Disk.opened at hrestore ⊢
  dsimp only
  rw [hrestore]
  exact ⟨rfl, rfl⟩

namespace Running

/-- The server after an event. -/
def next (r : Running) : Event → Running
  | .request request now => (r.answer request now).state
  | .sweep now => (r.sweep now).1
  | .feed now => (r.feedNext now).1
  | .write => r.write.1
  | .flush => r.flush.1

/-- The server after some events. -/
def run (r : Running) (events : List Event) : Running := events.foldl next r

/-- A server with an archive that has no writer. -/
structure Idle (r : Running) (o : Opened) : Prop where
  opened : r.opened = some o
  writer : o.writer = none
  queue : r.service.gateway.queue = none

variable {r : Running} {o : Opened}

theorem Idle.spool? (h : r.Idle o) : r.spool? = none := by
  obtain ⟨path, archive, writer⟩ := o
  obtain ⟨hopened, hwriter, hqueue⟩ := h
  obtain rfl : writer = none := hwriter
  unfold Running.spool?
  rw [hopened, hqueue]

/-- **Whatever happens, a server whose archive has no writer leaves it alone.** -/
theorem Idle.next (h : r.Idle o) (e : Event) : (r.next e).Idle o := by
  cases e with
  | request request now =>
    exact ⟨h.opened, h.writer, Service.queue_answer h.queue request now⟩
  | sweep now =>
    -- without a writer the archive is not even handed to the sweep
    obtain ⟨path, archive, writer⟩ := o
    obtain ⟨hopened, hwriter, hqueue⟩ := h
    obtain rfl : writer = none := hwriter
    simp only [Running.next, Running.sweep]
    split_ifs
    · refine ⟨?_, rfl, hqueue⟩
      simp only [sweptArchive, hopened, Option.bind_some, Option.map_none, Option.map_some]
      cases r.purgeAfterDays <;> rfl
    · exact ⟨hopened, rfl, hqueue⟩
  | feed now =>
    simp only [Running.next, Running.feedNext]
    cases r.feed.bind DemoFeed.next with
    | none => exact h
    | some fed =>
      obtain ⟨submission, feed⟩ := fed
      have hqueue := Gateway.queue_record h.queue submission now
      dsimp only
      generalize r.service.gateway.record submission now = step at hqueue ⊢
      exact ⟨h.opened, h.writer, hqueue⟩
  | write =>
    simp only [Running.next, Running.write, h.spool?]
    exact h
  | flush =>
    simp only [Running.next, Running.flush, h.spool?]
    exact h

theorem Idle.run (h : r.Idle o) (events : List Event) : (r.run events).Idle o := by
  induction events generalizing r with
  | nil => exact h
  | cons e rest ih => exact ih (h.next e)

theorem Idle.settle (h : r.Idle o) (now : Instant) : (r.settle now).1.Idle o :=
  (h.next (.sweep now)).next (.feed now)

/-- An interrupt saves the archive as it was opened. -/
theorem Idle.interrupt (h : r.Idle o) (disk : Disk) :
    (r.interrupt disk).disk = disk.saveOpened (some o) := by
  unfold Running.interrupt
  split_ifs
  · simp only [Running.flush, h.spool?, h.opened]
  · simp only [h.opened]

end Running

/-! ### From its start to its end -/

/-- A server that listens has settled with what was prepared for it. -/
theorem Running.settled_of_start {settings : Settings} {feed : Option DemoFeed} {disk : Disk}
    {now : Instant} {r : Running} (hr : (start settings feed disk now).running = some r) :
    let p := prepare (Gateway.ofStore (.empty settings.retention.policy)
      settings.ingest.breakdownToleranceMs) settings.storage disk now
    ∃ first : Running, (first.settle now).1 = r ∧ first.service.gateway = p.gateway ∧
      first.opened = p.opened ∧ first.sweeping = true ∧
      first.purgeAfterDays = settings.storage.bind StorageSettings.purgeAfterDays := by
  unfold start at hr
  dsimp only at hr
  cases hformat : settings.exports.format with
  | error e => rw [hformat] at hr; cases hr
  | ok format =>
    rw [hformat] at hr
    dsimp only at hr
    cases haddress : Address.ofHost? settings.server.host with
    | none => rw [haddress] at hr; cases hr
    | some address =>
      rw [haddress] at hr
      dsimp only at hr
      by_cases hlocal : address.isLocal = true
      · rw [if_pos hlocal] at hr
        exact ⟨_, Option.some.inj hr, rfl, rfl, rfl, rfl⟩
      · rw [if_neg hlocal] at hr
        cases hr

section Start
variable {settings : Settings} {s : StorageSettings} (hs : settings.storage = some s) {disk : Disk}
  {f : Fault} (hf : (Archive.database (disk.opened s)).maxId = .error f) (feed : Option DemoFeed)
  (now : Instant)
include hs hf

/-- A server that listens has begun without a writer. -/
theorem Running.idle_of_start {r : Running}
    (hr : (start settings feed disk now).running = some r) :
    r.Idle ⟨s.path, .database (disk.opened s), none⟩ := by
  obtain ⟨hgateway, hopened⟩ := prepare_of_unreadable
    (Gateway.ofStore (.empty settings.retention.policy) settings.ingest.breakdownToleranceMs) hf now
  obtain ⟨first, rfl, hfirst, hfirstOpened, -, -⟩ := Running.settled_of_start hr
  rw [hs] at hfirst hfirstOpened
  refine Running.Idle.settle ⟨hfirstOpened.trans hopened, rfl, ?_⟩ now
  rw [hfirst, hgateway]
  rfl

/-- The disk keeps the database as it was opened, also if the server has not come to listen. -/
theorem disk_of_start :
    (start settings feed disk now).disk =
      disk.saveOpened (some ⟨s.path, .database (disk.opened s), none⟩) := by
  have hopened := (prepare_of_unreadable
    (Gateway.ofStore (.empty settings.retention.policy) settings.ingest.breakdownToleranceMs)
    hf now).2
  rw [← hopened]
  unfold start
  rw [hs]
  dsimp only
  split
  · rfl
  · split
    · rfl
    · split_ifs <;> rfl

end Start

theorem Disk.lookup_saveOpened (disk : Disk) (path : String) (d : Database) :
    (disk.saveOpened (some ⟨path, .database d, none⟩)).lookup path = some d := by
  simp [saveOpened, save]

end Server

end OrderTelemetry
