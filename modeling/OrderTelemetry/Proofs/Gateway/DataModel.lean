import OrderTelemetry.Proofs.Archive.Handover
import OrderTelemetry.Proofs.Archive.Restarts
import OrderTelemetry.Proofs.Gateway.Restart
import OrderTelemetry.Proofs.Store.Statistics
import OrderTelemetry.Proofs.Text.Blank

/-! # Well-formed records

Whoever reads the store relies on the form of what is in it: names are there and have no blanks
around them, latencies are finite numbers from zero on, only failures have an error text, and times
are whole milliseconds.  The gateway brings records into this form.  A record that is restored from
the archive is not looked at again.  It is well-formed all the same, as long as all rows come from
the writer, since a row keeps everything that matters here.

* `Record.WellFormed`: what is true of every record that is read.
* `Submission.Admissible.wellFormed`: the gateway makes well-formed records.
* `Row.wellFormed_ofRecord`: a row of such a record is that of a well-formed record.
* `Pipeline.Turn`: what may happen over many runs of the service.
* `Pipeline.wellFormed_after_restarts`: all retained records are well-formed at any time. -/

namespace OrderTelemetry

/-! ### Names -/

/-- A text that is not empty and has no blank character at its ends. -/
structure Text.Proper (s : String) : Prop where
  nonempty : s ≠ ""
  first : ∀ c ∈ s.toList.head?, isBlank c = false
  last : ∀ c ∈ s.toList.getLast?, isBlank c = false

theorem Text.getLast?_trimEnd (s : List Char) : ∀ c ∈ (trimEnd s).getLast?, isBlank c = false := by
  unfold trimEnd
  rw [List.getLast?_reverse]
  exact head?_trimStart s.reverse

/-- What is left of a text is proper, if anything is left. -/
theorem Text.proper_trim {s : String} (h : trim s ≠ "") : Proper (trim s) := by
  refine ⟨h, ?_, ?_⟩
  · unfold trim
    rw [String.toList_ofList]
    exact head?_trimEnd (head?_trimStart _)
  · unfold trim
    rw [String.toList_ofList]
    exact getLast?_trimEnd _

/-! ### Records -/

/-- A record as it is documented. -/
structure Record.WellFormed (r : Record) : Prop where
  orderId : Text.Proper r.orderId
  broker : Text.Proper r.broker
  symbol : Text.Proper r.symbol
  latencies : ∀ x ∈ r.latencies.values, x.isFinite = true ∧ ¬ x < 0.0
  error : ∀ e ∈ r.error, r.status = .failure ∧ Text.Proper e
  /-- The time is a whole number of milliseconds. -/
  timestamp : Instant.ofMillis? r.timestamp.millis = some r.timestamp

theorem Submission.proper_errorText {x : Submission} {e : String} (h : x.errorText = some e) :
    Text.Proper e := by
  unfold errorText at h
  obtain ⟨hmap, hnonempty⟩ := Option.filter_eq_some_iff.mp h
  obtain ⟨raw, -, rfl⟩ := Option.map_eq_some_iff.mp hmap
  exact Text.proper_trim (by simpa using hnonempty)

theorem Submission.proper_of_error {x : Submission} {now : Instant} {e : String}
    (h : (x.normalForm now).error = some e) : x.status = .failure ∧ Text.Proper e := by
  have herror : (if x.status.isFailure then x.errorText else none) = some e := h
  cases hstatus : x.status with
  | success =>
    rw [hstatus] at herror
    cases herror
  | failure =>
    rw [hstatus] at herror
    exact ⟨rfl, proper_errorText herror⟩

/-- **The gateway makes well-formed records.** -/
theorem Submission.Admissible.wellFormed {x : Submission} {now : Instant} (h : x.Admissible)
    (htime : (x.timestamp.getD now).Regular) (id : Nat) :
    ((x.normalForm now).withId id).WellFormed where
  orderId := Text.proper_trim h.orderId
  broker := Text.proper_trim h.broker
  symbol := Text.proper_trim h.symbol
  latencies := h.latencies
  timestamp := htime.ofMillis?_truncated
  error := fun _ he => proper_of_error he

/-! ### Rows -/

/-- A row that is that of a well-formed record, if it is that of a record. -/
def Row.WellFormed (row : Row) : Prop := ∀ r, row.toRecord = .ok r → r.WellFormed

/-- What a row makes of a latency is still one. -/
theorem Row.latency_stored {x : Float} (h : x.isFinite = true ∧ ¬ x < 0.0) :
    (stored x).isFinite = true ∧ ¬ stored x < 0.0 := by
  unfold stored
  split_ifs
  · exact ⟨by decide +kernel, by decide +kernel⟩
  · exact h

/-- **The row of a well-formed record is that of a well-formed record**, which need not be the
same. -/
theorem Row.wellFormed_ofRecord {r : Record} (h : r.WellFormed) : (ofRecord r).WellFormed := by
  intro a ha
  have hstatus : OrderStatus.ofText? (ofRecord r).status = some r.status :=
    OrderStatus.ofText?_name r.status
  have htime : Instant.ofMillis? (ofRecord r).timestampMs = some r.timestamp := h.timestamp
  unfold toRecord at ha
  rw [htime, hstatus] at ha
  dsimp only at ha
  split_ifs at ha
  cases ha
  refine ⟨h.orderId, h.broker, h.symbol, ?_, h.error, h.timestamp⟩
  have hvalues : ∀ x ∈ r.latencies.values.map stored, x.isFinite = true ∧ ¬ x < 0.0 :=
    List.forall_mem_map.mpr fun x hx => latency_stored (h.latencies x hx)
  exact hvalues

namespace Archive

/-- An archive that is a table of well-formed rows. -/
def WellFormed : Archive → Prop
  | database d => ∀ row ∈ d.rows, row.WellFormed
  | scripted _ => False

variable {a : Archive}

theorem WellFormed.persist (h : a.WellFormed) {batch : List Record}
    (hbatch : ∀ r ∈ batch, r.WellFormed) {outcome : Persisted} {b : Archive}
    (hpersist : a.persist batch = (outcome, b)) : b.WellFormed := by
  cases a with
  | scripted s => exact h.elim
  | database d =>
    rcases persist_database d batch with ⟨f, hfailed⟩ | ⟨e, hdone, hrows⟩
    · rw [hfailed] at hpersist
      cases hpersist
      exact h
    · rw [hdone] at hpersist
      cases hpersist
      intro row hrow
      rw [hrows] at hrow
      rcases Database.mem_foldl_addRow hrow with hnew | hold
      · obtain ⟨r, hr, rfl⟩ := List.mem_map.mp hnew
        exact Row.wellFormed_ofRecord (hbatch r hr)
      · exact h row hold

theorem WellFormed.lock (h : a.WellFormed) (held : Bool) : (a.lock held).WellFormed := by
  cases a with
  | scripted s => exact h
  | database d => exact h

/-- The archive without its rows from before an instant, if they can be removed. -/
def purged (a : Archive) (cutoff : Instant) : Archive :=
  match a.purgeBefore cutoff with
  | .ok (_, b) => b
  | .error _ => a

theorem WellFormed.purged (h : a.WellFormed) (cutoff : Instant) : (a.purged cutoff).WellFormed := by
  cases a with
  | scripted s => exact h.elim
  | database d =>
    unfold Archive.purged
    cases hpurge : (database d).purgeBefore cutoff with
    | error f => exact h
    | ok removed =>
      obtain ⟨n, b⟩ := removed
      cases b with
      | database e => exact fun row hrow => h row ((Database.rows_purge hpurge).subset hrow)
      | scripted s =>
        rw [purgeBefore.eq_1] at hpurge
        cases hguarded : d.purgeBefore cutoff with
        | error f => rw [hguarded] at hpurge; cases hpurge
        | ok e => rw [hguarded] at hpurge; cases hpurge

/-- What such an archive gives back are well-formed records. -/
theorem WellFormed.loadRecent (h : a.WellFormed) {limit : Nat}
    {found : List Record × List Notice} (hfound : a.loadRecent limit = .ok found) :
    ∀ r ∈ found.1, r.WellFormed := by
  cases a with
  | scripted s => exact h.elim
  | database d =>
    unfold Archive.loadRecent at hfound
    dsimp only at hfound
    cases hload : d.loadRecent limit with
    | error f =>
      rw [hload] at hfound
      cases hfound
    | ok answers =>
      obtain rfl : answers = (d.newest limit).map Row.toRecord := Database.eq_of_guarded hload
      rw [hload] at hfound
      cases hfound
      intro r hr
      obtain ⟨answer, hanswer, hr⟩ := List.mem_filterMap.mp hr
      obtain ⟨row, hrow, rfl⟩ := List.mem_map.mp hanswer
      cases hrecord : row.toRecord with
      | error f =>
        rw [hrecord] at hr
        cases hr
      | ok a =>
        rw [hrecord] at hr
        cases hr
        exact h row (List.mem_of_mem_drop hrow) r hrecord

end Archive

/-! ### The store and the spool -/

namespace Store

/-- A store of well-formed records. -/
def WellFormed (s : Store) : Prop := ∀ r ∈ s.window.toList, r.WellFormed

variable {s : Store}

/-- All that is in the window after a call was there before, or the call has appended it. -/
theorem WellFormed.after (h : s.WellFormed) {c : Call} (hc : ∀ r ∈ s.pushed c, r.WellFormed) :
    (s.after c).WellFormed := by
  obtain ⟨gone, hwindow, -⟩ := s.after_conserves c
  intro r hr
  have hmem : r ∈ s.window.toList ++ s.pushed c := by
    rw [hwindow]
    exact List.mem_append_right gone hr
  rcases List.mem_append.mp hmem with hold | hnew
  · exact h r hold
  · exact hc r hnew

theorem WellFormed.unpushed (h : s.WellFormed) {c : Call} (hc : s.pushed c = []) :
    (s.after c).WellFormed := by
  refine h.after ?_
  rw [hc]
  exact List.forall_mem_nil _

theorem WellFormed.restore (h : s.WellFormed) {records : List Record}
    (hrecords : ∀ r ∈ records, r.WellFormed) (now : Instant) :
    (s.restore records now).state.WellFormed :=
  h.after (c := .restore records now) fun r hr =>
    hrecords r (List.mem_mergeSort.mp (mem_of_mem_accepted hr))

theorem WellFormed.resumeAfter (h : s.WellFormed) (id : Nat) :
    (s.resumeAfter id).state.WellFormed :=
  h.unpushed (c := .resumeAfter id) rfl

/-- Nothing is looked at when a store is filled, and nothing has to be. -/
theorem WellFormed.restoreFrom (h : s.WellFormed) {a : Archive} (ha : a.WellFormed) (limit : Nat)
    (now : Instant) : (s.restoreFrom a limit now).state.WellFormed := by
  unfold Store.restoreFrom
  cases a.maxId with
  | error f => exact h
  | ok highest =>
    dsimp only
    cases hload : a.loadRecent limit with
    | error f =>
      cases highest with
      | none => exact h
      | some id => exact h.resumeAfter id
    | ok found =>
      have hrestored := h.restore (ha.loadRecent hload) now
      dsimp only
      cases (s.restore found.1 now).answer with
      | error e => exact hrestored
      | ok n =>
        cases highest with
        | none => exact hrestored
        | some id => exact hrestored.resumeAfter id

end Store

/-- A spool in which there are only well-formed records, wherever they are on their way. -/
structure Spool.WellFormed (s : Spool) : Prop where
  pending : ∀ r ∈ s.queue.pending, r.WellFormed
  batch : ∀ r ∈ s.writer.phase.batch, r.WellFormed
  archive : s.archive.WellFormed

namespace Spool.WellFormed

variable {s t : Spool}

theorem start {a : Archive} (h : a.WellFormed) (capacity batchSize : Nat) :
    (Spool.start capacity batchSize a).WellFormed :=
  ⟨List.forall_mem_nil _, List.forall_mem_nil _, h⟩

theorem step {made : List Attempt} (h : s.WellFormed) (hstep : Step s made t) : t.WellFormed := by
  obtain ⟨hpending, hbatch, harchive⟩ := h
  cases hstep with
  | receive r rest hphase hqueue =>
    rw [hqueue, List.forall_mem_cons] at hpending
    exact ⟨hpending.2, List.forall_mem_singleton.mpr hpending.1, harchive⟩
  | fill batch r rest hphase hqueue hroom =>
    rw [hqueue, List.forall_mem_cons] at hpending
    rw [hphase] at hbatch
    refine ⟨hpending.2, ?_, harchive⟩
    exact List.forall_mem_append.mpr ⟨hbatch, List.forall_mem_singleton.mpr hpending.1⟩
  | finish batch hphase =>
    rw [hphase] at hbatch
    exact ⟨hpending, hbatch, harchive⟩
  | commit batch outcome archive hphase hpersist hsurvived =>
    rw [hphase] at hbatch
    exact ⟨hpending, List.forall_mem_nil _, harchive.persist hbatch hpersist⟩
  | crash batch cause archive hphase hpersist =>
    rw [hphase] at hbatch
    exact ⟨hpending, List.forall_mem_nil _, harchive.persist hbatch hpersist⟩
  | stop hphase hqueue hclosed =>
    exact ⟨hpending, List.forall_mem_nil _, harchive⟩

theorem move {taken : List Record} {made : List Attempt} (h : s.WellFormed)
    (htaken : ∀ r ∈ taken, r.WellFormed) (hmove : Move s taken made t) : t.WellFormed := by
  cases hmove with
  | rest => exact h
  | take r hroom hopen =>
    exact ⟨List.forall_mem_append.mpr ⟨h.pending, htaken⟩, h.batch, h.archive⟩
  | close => exact ⟨h.pending, h.batch, h.archive⟩
  | lock held => exact ⟨h.pending, h.batch, h.archive.lock held⟩
  | write hstep => exact h.step hstep

theorem next (h : s.WellFormed) {e : Event} (he : ∀ r ∈ s.takenBy e, r.WellFormed) :
    (s.next e).WellFormed :=
  h.move he (s.next_move e)

/-- The queue takes a record as it is, or it does not take it. -/
theorem offer (h : s.WellFormed) {r : Record} (hr : r.WellFormed) :
    (s.next (.offer r)).WellFormed := by
  refine h.next ?_
  show ∀ a ∈ (if (s.offer r).1 then [r] else []), a.WellFormed
  split_ifs
  · exact List.forall_mem_singleton.mpr hr
  · exact List.forall_mem_nil _

end Spool.WellFormed

/-! ### Many runs -/

namespace Pipeline

/-- What may happen over many runs of the service. -/
inductive Turn where
  | event (e : Event)
  /-- A submission of a caller that cannot do anything about a refusal. -/
  | record (x : Submission) (now : Instant)
  /-- Records that are too old leave the store. -/
  | sweep (now : Instant)
  /-- Rows that are too old leave the archive. -/
  | purge (cutoff : Instant)
  /-- The service stops, with whatever is on its way to the archive, and starts again.  A service
  that cannot read the archive has no queue, which is to say that its writer never makes a step. -/
  | restart (policy : Retention) (capacity batchSize limit : Nat) (tolerance : Float)
      (now : Instant)

/-- The time of a submission, or else the one at which it comes in, does not lie in a leap
second. -/
def Turn.Regular : Turn → Prop
  | event (.submit x now) => (x.timestamp.getD now).Regular
  | record x now => (x.timestamp.getD now).Regular
  | _ => True

instance : DecidablePred Turn.Regular
  | .event (.submit x now) => inferInstanceAs (Decidable (x.timestamp.getD now).Regular)
  | .record x now => inferInstanceAs (Decidable (x.timestamp.getD now).Regular)
  | .event .stats | .event .write | .event .close | .event (.lock _) => isTrue trivial
  | .sweep _ | .purge _ | .restart .. => isTrue trivial

/-- The pipeline after a turn. -/
def turn (p : Pipeline) : Turn → Pipeline
  | .event e => p.next e
  | .record x now => p.withGateway (p.gateway.record x now).state
  | .sweep now => { p with store := (p.store.evictExpired now).2 }
  | .purge cutoff => { p with spool := { p.spool with archive := p.spool.archive.purged cutoff } }
  | .restart policy capacity batchSize limit tolerance now =>
    { store := ((Store.empty policy).restoreFrom p.spool.archive limit now).state
      spool := .start capacity batchSize p.spool.archive
      tolerance }

/-- The pipeline after some turns. -/
def after (p : Pipeline) (turns : List Turn) : Pipeline := turns.foldl turn p

/-- Well-formed records are in the store and on their way to the archive, and the archive gives such
records back. -/
structure WellFormed (p : Pipeline) : Prop where
  store : p.store.WellFormed
  spool : p.spool.WellFormed

namespace WellFormed

variable {p : Pipeline}

theorem start (policy : Retention) (capacity batchSize timeoutMs : Nat) (tolerance : Float) :
    (Pipeline.start policy capacity batchSize timeoutMs tolerance).WellFormed :=
  ⟨List.forall_mem_nil _,
    .start (a := .database (.empty timeoutMs)) (List.forall_mem_nil _) _ _⟩

section Turns
variable (h : p.WellFormed)
include h

theorem submit {x : Submission} {now : Instant} (htime : (x.timestamp.getD now).Regular) :
    (p.next (.submit x now)).WellFormed := by
  rcases p.submit_cases x now with ⟨-, hnext⟩ | ⟨hx, -, hstore, hpushed, hspool⟩
  · rw [hnext]
    exact h
  · have hnew := hx.wellFormed htime p.store.nextId
    refine ⟨?_, ?_⟩
    · rw [hstore]
      refine h.store.after ?_
      rw [hpushed]
      exact List.forall_mem_singleton.mpr hnew
    · rw [hspool]
      exact h.spool.offer hnew

/-- **Whatever happens, all records stay well-formed.** -/
theorem turn {t : Turn} (ht : t.Regular) : (p.turn t).WellFormed := by
  cases t with
  | event e =>
    cases e with
    | submit x now => exact h.submit ht
    | stats => exact ⟨h.store.unpushed (c := .stats) rfl, h.spool⟩
    | write => exact ⟨h.store, h.spool.next (e := .write) (List.forall_mem_nil _)⟩
    | close => exact ⟨h.store, h.spool.next (e := .close) (List.forall_mem_nil _)⟩
    | lock held =>
      exact ⟨h.store, h.spool.next (e := .lock held) (List.forall_mem_nil _)⟩
  | record x now =>
    have hsame : p.turn (.record x now) = p.next (.submit x now) :=
      congrArg p.withGateway (p.gateway.record_state x now)
    rw [hsame]
    exact h.submit ht
  | sweep now => exact ⟨h.store.unpushed (c := .evictExpired now) rfl, h.spool⟩
  | purge cutoff =>
    exact ⟨h.store, h.spool.pending, h.spool.batch, h.spool.archive.purged cutoff⟩
  | restart policy capacity batchSize limit tolerance now =>
    have hempty : (Store.empty policy).WellFormed := List.forall_mem_nil _
    exact ⟨hempty.restoreFrom h.spool.archive limit now, .start h.spool.archive _ _⟩

theorem after {turns : List Turn} (hturns : ∀ t ∈ turns, t.Regular) :
    (p.after turns).WellFormed := by
  induction turns generalizing p with
  | nil => exact h
  | cons t rest ih =>
    rw [List.forall_mem_cons] at hturns
    exact ih (h.turn hturns.1) hturns.2

end Turns

end WellFormed

/-- **All retained records are well-formed.**  A service starts with an empty store and an empty
archive.  Submissions come in, the writer makes its steps, the store and the archive are swept, and
the service is stopped and started again, all in any order and with any settings.  Then all that is
in the store has the form of the documentation. -/
theorem wellFormed_after_restarts (policy : Retention) (capacity batchSize timeoutMs : Nat)
    (tolerance : Float) {turns : List Turn} (hturns : ∀ t ∈ turns, t.Regular) :
    ∀ r ∈ ((start policy capacity batchSize timeoutMs tolerance).after turns).store.window.toList,
      r.WellFormed :=
  ((WellFormed.start policy capacity batchSize timeoutMs tolerance).after hturns).store

/-- Three submissions, of which the second is refused.  The other two are archived, and the next run
restores the newer one of them before it takes a fourth. -/
def restarted : List Turn :=
  [.event (.submit (undated " A" "b") ⟨100, 1234567⟩), .record (undated "B" "\t") ⟨101, 0⟩,
    .record (undated "C\n" "b") ⟨-1, 999999999⟩, .event .write, .event .write, .event .write,
    .event .write, .restart ⟨2, some (.ofSeconds 200)⟩ 1 1 1 1.0 ⟨102, 0⟩, .sweep ⟨103, 0⟩,
    .purge ⟨50, 0⟩, .record (undated "\u3000D" "b") ⟨104, 5⟩]

theorem wellFormed_after_restarts_restarted :
    let p := (start ⟨9, none⟩ 4 2 10 1.0).after restarted
    (∀ t ∈ restarted, t.Regular) ∧
      p.store.window.toList.map (fun r => (r.id, r.orderId, r.error, r.timestamp)) =
        [(2, "C", some "no margin", ⟨-1, 999000000⟩), (3, "D", some "no margin", ⟨104, 0⟩)] ∧
      ∀ r ∈ p.store.window.toList, r.WellFormed := by
  have hturns : ∀ t ∈ restarted, t.Regular := by decide +kernel
  exact ⟨hturns, by decide +kernel, wellFormed_after_restarts ⟨9, none⟩ 4 2 10 1.0 hturns⟩

end Pipeline

end OrderTelemetry
