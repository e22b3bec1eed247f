import OrderTelemetry.Proofs.Archive.Schedule
import OrderTelemetry.Proofs.Gateway.Admission
import OrderTelemetry.Proofs.Store.Refill

/-! # A store with an archive behind it

While the service runs, submissions and the writer of the archive take turns in any order.  A
submission that is accepted goes into the store and is offered to the queue, and the writer takes it
from there.

* `Pipeline.run`: the store and the spool after a list of events.
* `Pipeline.stored`, `Pipeline.taken`: the records that the events append to the store, and those
  that the queue takes of them.
* `Pipeline.store_run`, `Pipeline.spool_run`: seen from the store the events are calls, and seen
  from the spool they are a schedule. -/

namespace OrderTelemetry

/-- A store, and the spool that its gateway fills. -/
structure Pipeline where
  store : Store
  spool : Spool
  /-- How far in milliseconds the phases may be from the total latency without a remark. -/
  tolerance : Float

namespace Pipeline

/-- What may happen while the service runs. -/
inductive Event where
  | submit (s : Submission) (now : Instant)
  /-- Someone reads the statistics. -/
  | stats
  | write
  /-- The gateway lets go of the queue. -/
  | close
  /-- Another program takes hold of the archive's table or lets go of it. -/
  | lock (held : Bool)

/-- An empty store with an empty archive. -/
def start (policy : Retention) (capacity batchSize timeoutMs : Nat) (tolerance : Float) :
    Pipeline :=
  ⟨.empty policy, .start capacity batchSize (.database (.empty timeoutMs)), tolerance⟩

/-- The gateway to the store and the queue. -/
def gateway (p : Pipeline) : Gateway := ⟨p.store, some p.spool.queue, p.tolerance⟩

/-- What the gateway has left behind. -/
def withGateway (p : Pipeline) (g : Gateway) : Pipeline :=
  { p with
    store := g.store
    spool := { p.spool with queue := g.queue.getD p.spool.queue } }

/-- The pipeline after an event. -/
def next (p : Pipeline) : Event → Pipeline
  | .submit s now => p.withGateway (p.gateway.submit s now).state
  | .stats => { p with store := p.store.stats.state }
  | .write => { p with spool := p.spool.next .write }
  | .close => { p with spool := p.spool.next .close }
  | .lock held => { p with spool := p.spool.next (.lock held) }

/-- The record that an event appends to the store, if it does. -/
def storedBy (p : Pipeline) : Event → List Record
  | .submit s now => (p.gateway.submit s now).answer.toOption.toList
  | _ => []

/-- What an event is for the store. -/
def callsBy (p : Pipeline) : Event → List Call
  | .submit s now => (p.storedBy (.submit s now)).map fun _ => .insert (s.normalForm now) now
  | .stats => [.stats]
  | _ => []

/-- What an event is for the spool. -/
def movesBy (p : Pipeline) : Event → List Spool.Event
  | .submit s now => (p.storedBy (.submit s now)).map .offer
  | .stats => []
  | .write => [.write]
  | .close => [.close]
  | .lock held => [.lock held]

/-- The pipeline after some events. -/
def run (p : Pipeline) (events : List Event) : Pipeline := events.foldl next p

/-- The records that some events append to the store, in their order. -/
def stored (p : Pipeline) : List Event → List Record
  | [] => []
  | e :: rest => p.storedBy e ++ (p.next e).stored rest

/-- What some events are for the store. -/
def calls (p : Pipeline) : List Event → List Call
  | [] => []
  | e :: rest => p.callsBy e ++ (p.next e).calls rest

/-- What some events are for the spool. -/
def schedule (p : Pipeline) : List Event → List Spool.Event
  | [] => []
  | e :: rest => p.movesBy e ++ (p.next e).schedule rest

/-- The records that the queue takes, in their order. -/
def taken (p : Pipeline) (events : List Event) : List Record := p.spool.taken (p.schedule events)

/-- The attempts to archive a batch, in their order. -/
def attempts (p : Pipeline) (events : List Event) : List Attempt :=
  p.spool.attempts (p.schedule events)

/-! ### One event -/

/-- A submission leaves everything as it is, or it inserts its normal form and offers the record. -/
theorem submit_cases (p : Pipeline) (s : Submission) (now : Instant) :
    (p.storedBy (.submit s now) = [] ∧ p.next (.submit s now) = p) ∨
      s.Admissible ∧
        p.storedBy (.submit s now) = [(s.normalForm now).withId p.store.nextId] ∧
        (p.next (.submit s now)).store = p.store.after (.insert (s.normalForm now) now) ∧
        p.store.pushed (.insert (s.normalForm now) now) =
          [(s.normalForm now).withId p.store.nextId] ∧
        (p.next (.submit s now)).spool =
          p.spool.next (.offer ((s.normalForm now).withId p.store.nextId)) := by
  rcases p.gateway.submit_cases s now with ⟨e, hanswer, hstate⟩ | ⟨h, hid, hanswer, hstate⟩
  · refine Or.inl ⟨?_, ?_⟩
    · rw [storedBy, hanswer]
      rfl
    · rw [next, hstate]
      rfl
  · obtain ⟨hinserted, hafter⟩ := Store.insert_of_sound (h.fault? now) hid now
    refine Or.inr ⟨h, ?_, ?_, ?_, ?_⟩
    · rw [storedBy, hanswer]
      rfl
    · rw [next, hstate]
      exact hafter.symm
    · rw [Store.pushed]
      have hinserted : (p.store.insert (s.normalForm now) now).answer = _ := hinserted
      rw [hinserted]
      rfl
    · rw [next, hstate]
      rfl

/-- One event is some calls for the store, and a schedule for the spool. -/
theorem next_eq (p : Pipeline) (e : Event) :
    (p.next e).store = p.store.run (p.callsBy e) ∧
      p.storedBy e = p.store.history (p.callsBy e) ∧
      (p.next e).spool = p.spool.run (p.movesBy e) := by
  cases e with
  | submit s now =>
    rw [callsBy, movesBy]
    rcases p.submit_cases s now with ⟨hstored, hnext⟩ | ⟨-, hstored, hstore, hpushed, hspool⟩
    · rw [hstored, hnext]
      exact ⟨rfl, rfl, rfl⟩
    · rw [hstored, List.map_singleton, List.map_singleton, Store.history, hpushed]
      exact ⟨hstore, rfl, hspool⟩
  | stats => exact ⟨rfl, rfl, rfl⟩
  | write => exact ⟨rfl, rfl, rfl⟩
  | close => exact ⟨rfl, rfl, rfl⟩
  | lock held => exact ⟨rfl, rfl, rfl⟩

theorem live_callsBy (p : Pipeline) (e : Event) : ∀ c ∈ p.callsBy e, c.Live := by
  cases e with
  | submit s now =>
    intro c hc
    obtain ⟨r, -, rfl⟩ := List.mem_map.mp hc
    trivial
  | stats =>
    intro c hc
    rw [List.mem_singleton.mp hc]
    trivial
  | write => exact fun _ hc => (List.not_mem_nil hc).elim
  | close => exact fun _ hc => (List.not_mem_nil hc).elim
  | lock held => exact fun _ hc => (List.not_mem_nil hc).elim

/-! ### Runs -/

/-- Seen from the store, a run is a run of calls. -/
theorem store_run (p : Pipeline) (events : List Event) :
    (p.run events).store = p.store.run (p.calls events) := by
  induction events generalizing p with
  | nil => rfl
  | cons e rest ih =>
    show ((p.next e).run rest).store = _
    rw [ih, (p.next_eq e).1, calls, Store.run_append]

theorem stored_eq (p : Pipeline) (events : List Event) :
    p.stored events = p.store.history (p.calls events) := by
  induction events generalizing p with
  | nil => rfl
  | cons e rest ih =>
    rw [stored, calls, Store.history_append, ih, (p.next_eq e).2.1, (p.next_eq e).1]

/-- Seen from the spool, a run is a schedule. -/
theorem spool_run (p : Pipeline) (events : List Event) :
    (p.run events).spool = p.spool.run (p.schedule events) := by
  induction events generalizing p with
  | nil => rfl
  | cons e rest ih =>
    show ((p.next e).run rest).spool = _
    rw [ih, (p.next_eq e).2.2, schedule]
    exact List.foldl_append.symm

theorem live_calls (p : Pipeline) (events : List Event) : ∀ c ∈ p.calls events, c.Live := by
  induction events generalizing p with
  | nil => exact fun _ hc => (List.not_mem_nil hc).elim
  | cons e rest ih =>
    intro c hc
    rcases List.mem_append.mp hc with hc | hc
    · exact p.live_callsBy e c hc
    · exact ih _ c hc

end Pipeline

end OrderTelemetry
