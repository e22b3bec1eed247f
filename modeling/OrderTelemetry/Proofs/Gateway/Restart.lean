import OrderTelemetry.Proofs.Archive.Drained
import OrderTelemetry.Proofs.Calendar.Millis
import OrderTelemetry.Proofs.Gateway.Pipeline

/-! # Restarts

What the service has stored is in the archive once the queue is drained, unless the queue was full
or an attempt failed.  A new store that is filled from the archive then takes the place of the old
one.

* `Pipeline.stored_archivable`: every record that comes through the gateway is one that its row
  gives back.
* `Pipeline.restart_alike`: the new store holds the same records, answers alike and goes on with the
  same id. -/

namespace OrderTelemetry

/-! ### What the gateway stores -/

/-- Everything that is stored has been cut down to what a row has room for, but for its id and for
negative zeros. -/
theorem Submission.Admissible.archivable {s : Submission} (h : s.Admissible) {now : Instant}
    (htime : (s.timestamp.getD now).Regular) (hzero : ∀ x ∈ s.latencies.values, x ≠ -0.0) {id : Nat}
    (hid : id < Row.idBound) : ((s.normalForm now).withId id).Archivable where
  id := hid
  timestamp := htime.ofMillis?_truncated
  latencies := by
    have hvalues : ∀ x ∈ s.latencies.named.map Prod.snd, x.isNaN = false ∧ x ≠ -0.0 := fun x hx =>
      ⟨Double.isNaN_of_isFinite (h.latencies x hx).1, hzero x hx⟩
    intro e he
    exact hvalues e.2 (List.mem_map_of_mem he)

namespace Pipeline

/-- The time of a submission lies in the calendar and not in a leap second, and no latency is
negative zero. -/
def Event.Plain : Event → Prop
  | .submit s now => (s.timestamp.getD now).Regular ∧ ∀ x ∈ s.latencies.values, x ≠ -0.0
  | _ => True

instance (e : Event) : Decidable e.Plain := by
  cases e <;> unfold Event.Plain <;> infer_instance

theorem stored_archivable {p : Pipeline} {events : List Event} (hevents : ∀ e ∈ events, e.Plain)
    (hids : ∀ r ∈ p.stored events, r.id < Row.idBound) : ∀ r ∈ p.stored events, r.Archivable := by
  induction events generalizing p with
  | nil => exact fun _ hr => (List.not_mem_nil hr).elim
  | cons e rest ih =>
    intro r hr
    rcases List.mem_append.mp hr with hr | hr
    · have hid : r.id < Row.idBound := hids r (List.mem_append_left _ hr)
      cases e with
      | submit s now =>
        obtain ⟨htime, hzero⟩ : Event.Plain (.submit s now) := hevents _ List.mem_cons_self
        rcases p.submit_cases s now with ⟨hstored, -⟩ | ⟨h, hstored, -⟩
        · rw [hstored] at hr
          cases hr
        · rw [hstored, List.mem_singleton] at hr
          subst hr
          exact h.archivable htime hzero hid
      | stats => cases hr
      | write => cases hr
      | close => cases hr
      | lock held => cases hr
    · exact ih (fun d hd => hevents d (List.mem_cons_of_mem _ hd))
        (fun a ha => hids a (List.mem_append_right _ ha)) r hr

/-! ### The new store -/

/-- A run that loses nothing on the way into the archive, and nothing in it. -/
structure Lossless (p : Pipeline) (events : List Event) : Prop where
  plain : ∀ e ∈ events, e.Plain
  /-- The ids have room in the rows. -/
  ids : ∀ r ∈ p.stored events, r.id < Row.idBound
  /-- The queue takes every record. -/
  taken : p.taken events = p.stored events
  /-- No attempt to archive a batch fails. -/
  archived : ∀ a ∈ p.attempts events, a.outcome = .done
  /-- In the end no record is on its way any more. -/
  drained : (p.run events).spool.Drained

section Start
variable {p : Pipeline} {limit : Nat} (hstore : p.store = .empty ⟨limit, none⟩)
include hstore

theorem stored_climbs (events : List Event) : Store.Climbs 1 (p.stored events) := by
  rw [stored_eq, hstore]
  exact Store.history_climbs (.empty ⟨limit, none⟩) _

/-- The old store reflects what has been stored. -/
theorem store_reflects (events : List Event) :
    Store.Reflects limit (p.stored events) (p.run events).store := by
  rw [store_run, stored_eq, hstore]
  exact (Store.Reflects.empty limit).run (p.live_calls events)

/-- The archive has what has been stored. -/
theorem Lossless.rows {events : List Event} (h : p.Lossless events)
    {capacity batchSize timeoutMs : Nat}
    (hspool : p.spool = .start capacity batchSize (.database (.empty timeoutMs))) :
    ∃ d, (p.run events).spool.archive = .database d ∧ d.dropped = false ∧
      d.rows = (p.stored events).map Row.ofRecord := by
  have hdrained := h.drained
  have harchived := h.archived
  have hrecords := stored_archivable h.plain h.ids
  have hordered := (stored_climbs hstore events).ordered
  rw [← h.taken] at hrecords hordered ⊢
  rw [spool_run] at hdrained ⊢
  unfold Pipeline.taken at hrecords hordered ⊢
  unfold Pipeline.attempts at harchived
  rw [hspool] at hdrained harchived hrecords hordered ⊢
  exact Spool.rows_of_drained (.start capacity batchSize _) rfl rfl rfl harchived hdrained hrecords
    hordered

end Start

/-- **Restarts.**  A service starts with an empty store without a bound on the age and an empty
archive, and submissions, readings and steps of the writer follow in any order.  If nothing is lost
on the way into the archive, a new store that is filled from it, once nobody else holds its table,
holds the same records as the old one, answers alike and goes on with the same id. -/
theorem restart_alike (limit capacity batchSize timeoutMs : Nat) (tolerance : Float)
    (events : List Event) (now : Instant)
    (h : (start ⟨limit, none⟩ capacity batchSize timeoutMs tolerance).Lossless events) :
    let last := (start ⟨limit, none⟩ capacity batchSize timeoutMs tolerance).run events
    let step := (Store.empty ⟨limit, none⟩).restoreFrom (last.spool.archive.lock false) limit now
    step.answer = .ok last.store.size ∧ Store.Alike last.store step.state := by
  intro last step
  have hids := h.ids
  have hrecords := stored_archivable h.plain hids
  have hclimbs :=
    stored_climbs (p := start ⟨limit, none⟩ capacity batchSize timeoutMs tolerance) rfl events
  have hold : Store.Reflects limit _ last.store := store_reflects rfl events
  obtain ⟨d, harchive, hdropped, hrows⟩ := h.rows rfl rfl
  generalize (start ⟨limit, none⟩ capacity batchSize timeoutMs tolerance).stored events =
    records at *
  have hlast : ∀ r ∈ records, r.id ≠ Store.lastId := by
    intro r hr
    have hid := hids r hr
    unfold Row.idBound at hid
    unfold Store.lastId
    omega
  obtain ⟨hanswer, hnew⟩ := Store.restoreFrom_reflects hclimbs hlast
    (Archive.maxId_of_rows hdropped hrows hrecords)
    (Archive.loadRecent_of_rows hdropped hrows hrecords limit) now
  rw [← harchive] at hanswer hnew
  refine ⟨?_, hold.alike hnew⟩
  have hsize : last.store.size = ((⟨limit, none⟩ : Retention).newest records).length := by
    rw [← hold.window, Array.length_toList]
    rfl
  rw [hsize]
  exact hanswer

/-- A submission without a time of its own. -/
def undated (orderId broker : String) : Submission :=
  { orderId, broker, symbol := "S", orderType := "mkt", timestamp := none,
    latencies := ⟨1.0, 2.0, 0.5, 1.0, 0.5⟩, status := .failure, error := some " no margin " }

/-- Three submissions, of which the second is refused, and a fourth that comes while the first batch
is written. -/
def interleaved : List Event :=
  [.submit (undated "A" "b") ⟨100, 1234567⟩, .submit (undated "B" " ") ⟨101, 0⟩,
    .submit (undated "C" "b") ⟨102, 5⟩, .write, .write, .stats, .write,
    .submit (undated "A" "c") ⟨99, 999999999⟩, .write, .close, .write, .write, .write, .write]

/-- The new store has the two newest of the three records, and goes on with the fourth id. -/
theorem restart_alike_interleaved :
    let last := (start ⟨2, none⟩ 2 2 10 1.0).run interleaved
    let step := (Store.empty ⟨2, none⟩).restoreFrom (last.spool.archive.lock false) 2 ⟨200, 0⟩
    (start ⟨2, none⟩ 2 2 10 1.0).Lossless interleaved ∧ Store.Alike last.store step.state ∧
      (step.state.window.toList.map fun r => (r.id, r.timestamp)) =
        [(2, ⟨102, 0⟩), (3, ⟨99, 999000000⟩)] ∧ step.state.nextId = 4 := by
  intro last step
  have hlossless : (start ⟨2, none⟩ 2 2 10 1.0).Lossless interleaved :=
    ⟨by decide +kernel, by decide +kernel, by decide +kernel, by decide +kernel,
      by decide +kernel⟩
  obtain ⟨-, halike⟩ := restart_alike 2 2 2 10 1.0 interleaved ⟨200, 0⟩ hlossless
  have halike : Store.Alike last.store step.state := halike
  refine ⟨hlossless, halike, ?_, ?_⟩
  · rw [halike.window]
    decide +kernel
  · rw [halike.nextId]
    decide +kernel

end Pipeline

end OrderTelemetry
