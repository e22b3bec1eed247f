import OrderTelemetry.Proofs.Archive.Handover
import OrderTelemetry.Proofs.Archive.Rows

/-! # A drained spool

Once nothing is on its way any more, the table behind a spool has the rows of all records that the
queue took, unless an attempt failed, and gives these records back.

* `Archive.Standing`: an archive whose table nobody has dropped.
* `Spool.Drained`: neither the queue nor the writer has a record.
* `Spool.rows_of_drained`: the table has the rows of the records taken, and no others.
* `Archive.loadRecent_of_rows`, `Archive.maxId_of_rows`: what it answers then. -/

namespace OrderTelemetry

/-- A table that nobody has dropped. -/
def Archive.Standing : Archive → Prop
  | database d => d.dropped = false
  | scripted _ => False

namespace Archive

variable {a : Archive}

theorem Standing.lock (h : a.Standing) (held : Bool) : (a.lock held).Standing := by
  cases a <;> exact h

theorem Standing.persist (h : a.Standing) (batch : List Record) :
    (a.persist batch).2.Standing := by
  cases a with
  | scripted script => exact h.elim
  | database d =>
    have hdropped : d.dropped = false := h
    unfold Archive.persist Database.persist Database.guarded
    by_cases hempty : batch.isEmpty = true
    · simp only [if_pos hempty]
      exact hdropped
    · simp only [if_neg hempty]
      cases d.obstacle? "persist" with
      | some f => exact hdropped
      | none => exact (Database.dropped_foldl_addRow d _).trans hdropped

end Archive

namespace Spool

theorem Move.standing {s t : Spool} {more : List Record} {made : List Attempt}
    (hmove : Move s more made t) (h : s.archive.Standing) : t.archive.Standing := by
  cases hmove with
  | rest => exact h
  | take r hroom hopen => exact h
  | close => exact h
  | lock held => exact h.lock held
  | write hstep =>
    cases hstep with
    | receive r rest hphase hqueue => exact h
    | fill batch r rest hphase hqueue hroom => exact h
    | finish batch hphase => exact h
    | commit batch outcome archive hphase hpersist hsurvived =>
      have hstanding := h.persist batch
      rw [hpersist] at hstanding
      exact hstanding
    | crash batch cause archive hphase hpersist =>
      have hstanding := h.persist batch
      rw [hpersist] at hstanding
      exact hstanding
    | stop hphase hqueue hclosed => exact h

/-- No record is on its way into the archive. -/
def Drained (s : Spool) : Prop := s.queue.pending = [] ∧ s.writer.phase.batch = []

instance (s : Spool) : Decidable s.Drained := inferInstanceAs (Decidable (_ ∧ _))

end Spool

theorem Attempt.kept_of_done {attempts : List Attempt} (h : ∀ a ∈ attempts, a.outcome = .done) :
    Attempt.kept attempts = attempts.flatMap Attempt.batch := by
  unfold Attempt.kept
  rw [List.filter_eq_self.mpr fun a ha => by simp [h a ha]]

/-- **What a drained spool leaves behind**: if its table was empty in the beginning and no attempt
has failed, the table has the rows of the records that the queue took, in their order. -/
theorem Spool.rows_of_drained {s : Spool} {d : Database} {room size : Nat}
    (hstart : Balanced room size [] [] s) (harchive : s.archive = .database d)
    (hempty : d.rows = []) (hdropped : d.dropped = false) {events : List Event}
    (hdone : ∀ a ∈ s.attempts events, a.outcome = .done) (hdrained : (s.run events).Drained)
    (hrecords : ∀ r ∈ s.taken events, r.Archivable)
    (hordered : (s.taken events).Pairwise fun a b => a.id < b.id) :
    ∃ e, (s.run events).archive = .database e ∧ e.dropped = false ∧
      e.rows = (s.taken events).map Row.ofRecord := by
  have hbalanced : Balanced room size (s.taken events) (s.attempts events) (s.run events) :=
    run_keeps (fun h hmove => h.move hmove) hstart events
  have hrecorded : Recorded s.archive (s.attempts events) (s.run events) :=
    run_keeps (P := fun _ => Recorded s.archive) (fun h hmove => h.move hmove)
      ⟨.refl _, by simp⟩ events
  have hstanding : (s.run events).archive.Standing :=
    run_keeps (P := fun _ _ t => t.archive.Standing) (fun h hmove => hmove.standing h)
      (by rw [harchive]; exact hdropped) events
  have hkept : Attempt.kept (s.attempts events) = s.taken events := by
    rw [Attempt.kept_of_done hdone, hbalanced.order, hdrained.1, hdrained.2, List.append_nil,
      List.append_nil]
  have hgrown := hrecorded.archive
  rw [harchive] at hgrown
  cases hlast : (s.run events).archive with
  | scripted script =>
    rw [hlast] at hstanding
    exact hstanding.elim
  | database e =>
    rw [hlast] at hgrown hstanding
    have hrows : e.rows =
        (((Attempt.kept (s.attempts events)).map Row.ofRecord).foldl Database.addRow d).rows :=
      hgrown
    refine ⟨e, rfl, hstanding, ?_⟩
    have hnone : d.rows = ([] : List Record).map Row.ofRecord := hempty
    rw [hrows, hkept]
    exact Database.rows_addRow hnone hrecords hordered

namespace Archive
variable {d : Database} {records : List Record} (hdropped : d.dropped = false)
  (hrows : d.rows = records.map Row.ofRecord) (hrecords : ∀ r ∈ records, r.Archivable)
include hdropped hrows hrecords

/-- The table gives the newest records back, and every row is one. -/
theorem loadRecent_of_rows (limit : Nat) :
    ((database d).lock false).loadRecent limit =
      .ok (records.drop (records.length - limit), []) := by
  have hloaded := Database.loadRecent_of_rows (d := { d with locked := false }) rfl hdropped hrows
    hrecords limit
  unfold Archive.lock Archive.loadRecent
  dsimp only
  rw [hloaded]
  generalize records.drop (records.length - limit) = kept
  show Except.ok ((kept.map _).filterMap _, (kept.map _).filterMap _) = _
  rw [List.filterMap_map, List.filterMap_map]
  congr 2
  · exact List.filterMap_some
  · exact List.filterMap_eq_nil_iff.mpr fun _ _ => rfl

theorem maxId_of_rows :
    ((database d).lock false).maxId = .ok (records.getLast?.map Record.id) :=
  Database.maxId_of_rows (d := { d with locked := false }) rfl hdropped hrows hrecords

end Archive

end OrderTelemetry
