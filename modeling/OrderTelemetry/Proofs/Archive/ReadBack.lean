import Mathlib.Data.List.Find
import OrderTelemetry.Proofs.Archive.History
import OrderTelemetry.Proofs.Calendar.Millis

/-! # Reading an archive back

Whatever else a table holds, under an id it keeps the first record that it has been given with it,
and the newest rows are read back by ascending ids, those left out that are no records.

A row has a number of milliseconds for the time of its record.  A record whose time is a whole
number of them and not inside a leap second is read back as it is.  The milliseconds inside a leap
second are those of the second that follows, and after the end of the calendar there is none: a
record from there comes back with another time, or not at all.

* `Record.Whole`: records with ids, times and latencies for which a row has room.
* `Database.Ordered.mem_newest_iff`: the newest rows are those with few rows above them.
* `Database.exists_loadRecent`: the records among the newest rows.
* `Database.loadRecent_run`: what is read back after any accesses that do not purge.
* `Database.loadRecent_leap`: what becomes of records from leap seconds. -/

namespace OrderTelemetry

/-- A record with an id for which a row has room, a time of whole milliseconds, and latencies that
are finite and not negative zero. -/
structure Record.Whole (r : Record) : Prop where
  id : r.id < Row.idBound
  onCalendar : r.timestamp.OnCalendar
  millis : 1000000 ∣ r.timestamp.nanos
  latencies : ∀ x ∈ r.latencies.values, x.isFinite = true ∧ x ≠ -0.0

instance (r : Record) : Decidable r.Whole :=
  decidable_of_iff (r.id < Row.idBound ∧ r.timestamp.OnCalendar ∧ 1000000 ∣ r.timestamp.nanos ∧
      ∀ x ∈ r.latencies.values, x.isFinite = true ∧ x ≠ -0.0)
    ⟨fun h => ⟨h.1, h.2.1, h.2.2.1, h.2.2.2⟩,
      fun h => ⟨h.id, h.onCalendar, h.millis, h.latencies⟩⟩

namespace Record.Whole

variable {r : Record} (h : r.Whole)
include h

theorem isStorable : (Row.ofRecord r).isStorable = true :=
  Row.isStorable_of_isFinite fun x hx => (h.latencies x hx).1

/-- Outside leap seconds nothing is lost. -/
theorem archivable (hleap : r.timestamp.isLeap = false) : r.Archivable where
  id := h.id
  timestamp := by
    have hnanos : r.timestamp.nanos < 1000000000 := by simpa [Instant.isLeap] using hleap
    rw [Instant.Regular.ofMillis?_millis ⟨h.onCalendar.first, h.onCalendar.last, hnanos⟩,
      Nat.div_mul_cancel h.millis]
  latencies e he := by
    have hvalue : e.2 ∈ r.latencies.values := List.mem_map_of_mem he
    obtain ⟨hfinite, hzero⟩ := h.latencies e.2 hvalue
    exact ⟨Double.isNaN_of_isFinite hfinite, hzero⟩

end Record.Whole

namespace Row

/-- A table takes the rows of all records that are whole. -/
theorem ofRecords_of_whole {records : List Record} (h : ∀ r ∈ records, r.Whole) :
    ofRecords records = records.map ofRecord :=
  List.filter_eq_self.mpr (List.forall_mem_map.mpr fun r hr => (h r hr).isStorable)

theorem find?_ofRecords {records : List Record} (h : ∀ r ∈ records, r.Whole) (id : Int) :
    (ofRecords records).find? (fun row => row.id = id) =
      (records.find? fun r => (r.id : Int) = id).map ofRecord := by
  rw [ofRecords_of_whole h, List.find?_map]
  refine congrArg (Option.map ofRecord) (List.find?_congr fun r hr => ?_)
  rw [Function.comp_apply, id_ofRecord_of_lt (h r hr).id]

/-- A row that is a record has its id. -/
theorem id_of_toRecord {row : Row} {r : Record} (h : row.toRecord = .ok r) : row.id = r.id := by
  unfold toRecord at h
  cases htimestamp : Instant.ofMillis? row.timestampMs with
  | none =>
    rw [htimestamp] at h
    cases h
  | some timestamp =>
    rw [htimestamp] at h
    dsimp only at h
    split_ifs at h with hid
    cases hstatus : OrderStatus.ofText? row.status with
    | none =>
      rw [hstatus] at h
      cases h
    | some status =>
      rw [hstatus] at h
      cases h
      show row.id = (row.id.toNat : Int)
      omega

end Row

namespace Database

variable {d : Database} {row : Row}

/-! ### The newest rows -/

/-- The rows above a row are those that come after it. -/
theorem filter_above {before after : List Row}
    (h : (before ++ row :: after).Pairwise fun a b => a.id < b.id) :
    (before ++ row :: after).filter (fun a => row.id < a.id) = after := by
  obtain ⟨-, hrest, hcross⟩ := List.pairwise_append.mp h
  have hbelow : before.filter (fun a => row.id < a.id) = [] :=
    List.filter_eq_nil_iff.mpr fun a ha => by
      have := hcross a ha row List.mem_cons_self
      simp only [decide_eq_true_eq]
      omega
  have habove : after.filter (fun a => row.id < a.id) = after :=
    List.filter_eq_self.mpr fun a ha => by simpa using (List.pairwise_cons.mp hrest).1 a ha
  rw [List.filter_append, hbelow, List.nil_append, List.filter_cons, habove]
  simp

/-- **The newest rows** up to a number are those with fewer rows than that above them. -/
theorem Ordered.mem_newest_iff (h : d.Ordered) {limit : Nat} :
    row ∈ d.newest limit ↔
      row ∈ d.rows ∧ (d.rows.filter fun a => row.id < a.id).length < limit := by
  unfold newest
  by_cases hrow : row ∈ d.rows
  swap
  · exact iff_of_false (fun hmem => hrow (List.mem_of_mem_drop hmem)) fun hmem => hrow hmem.1
  obtain ⟨before, after, hrows⟩ := List.append_of_mem hrow
  unfold Ordered at h
  rw [hrows] at h hrow ⊢
  rw [filter_above h, and_iff_right hrow, List.length_append, List.length_cons]
  refine ⟨fun hmem => Decidable.byContradiction fun hmany => ?_, fun hfew => ?_⟩
  · -- all that is left comes after the row
    have hgone : (before ++ [row]).drop (before.length + (after.length + 1) - limit) = [] :=
      List.drop_eq_nil_of_le (by rw [List.length_append, List.length_singleton]; omega)
    rw [List.append_cons, List.drop_append, hgone, List.nil_append] at hmem
    have hrest := (List.pairwise_append.mp h).2.1
    have hlt := (List.pairwise_cons.mp hrest).1 row (List.mem_of_mem_drop hmem)
    exact Int.lt_irrefl _ hlt
  · rw [List.drop_append_of_le_length (by omega)]
    exact List.mem_append_right _ List.mem_cons_self

/-- The records among the newest rows are read back by ascending ids, each once. -/
theorem exists_loadRecent (h : d.Ordered) (hlocked : d.locked = false)
    (hdropped : d.dropped = false) (limit : Nat) :
    ∃ found notices, (Archive.database d).loadRecent limit = .ok (found, notices) ∧
      (found.Pairwise fun a b => a.id < b.id) ∧
      ∀ r, r ∈ found ↔ ∃ row ∈ d.rows, row.toRecord = .ok r ∧
        (d.rows.filter fun a => row.id < a.id).length < limit := by
  obtain ⟨notices, hanswer⟩ : ∃ notices, (Archive.database d).loadRecent limit =
      .ok ((d.newest limit).filterMap (Except.toOption ∘ Row.toRecord), notices) := by
    have hload : d.loadRecent limit = .ok ((d.newest limit).map Row.toRecord) :=
      guarded_of_free hlocked hdropped _ _
    rw [← List.filterMap_map]
    unfold Archive.loadRecent
    simp only [hload]
    exact ⟨_, rfl⟩
  have hreadable : ∀ {row : Row} {r : Record},
      row.toRecord.toOption = some r ↔ row.toRecord = .ok r := by
    intro row r
    cases row.toRecord <;> simp [Except.toOption]
  refine ⟨_, notices, hanswer, ?_, fun r => ?_⟩
  · have hnewest : (d.newest limit).Pairwise fun a b => a.id < b.id :=
      List.Pairwise.sublist (List.drop_sublist _ _) h
    refine hnewest.filterMap _ fun a b hlt r hr u hu => ?_
    rw [Row.id_of_toRecord (hreadable.mp hr), Row.id_of_toRecord (hreadable.mp hu)] at hlt
    exact Int.ofNat_lt.mp hlt
  · rw [List.mem_filterMap]
    refine exists_congr fun row => ?_
    rw [Function.comp_apply, h.mem_newest_iff, hreadable]
    tauto

/-- **What is read back from a table**, whatever it held before and however often it is given the
same records.  A table within reach takes them all.  Under every id it keeps the row that it had, or
else that of the first record with the id.  Records that it has taken change nothing if they are
handed over again.  The rows of those outside leap seconds are read back as they were.  If the table
is within reach, the records among its newest rows are given by ascending ids. -/
theorem loadRecent_run {accesses : List Access} (h : d.Ordered)
    (hkeep : ∀ cutoff, .purge cutoff ∉ accesses) (hwhole : ∀ r ∈ d.taken accesses, r.Whole) :
    let e := d.run accesses
    let taken := d.taken accesses
    (∀ batches : List (List Record), accesses = batches.map .persist →
        d.locked = false → d.dropped = false →
        taken = batches.flatten ∧ e.locked = false ∧ e.dropped = false) ∧
      (∀ id : Int, e.row? id =
        (d.row? id).or ((taken.find? fun r => (r.id : Int) = id).map Row.ofRecord)) ∧
      (∀ row ∈ e.rows, row ∈ d.rows ∨ ∃ r ∈ taken, row = Row.ofRecord r) ∧
      (∀ batch, (∀ r ∈ batch, r ∈ taken) → e.after (.persist batch) = e) ∧
      (∀ r ∈ taken, r.timestamp.isLeap = false → (Row.ofRecord r).toRecord = .ok r) ∧
      (e.locked = false → e.dropped = false → ∀ limit,
        ∃ found notices, (Archive.database e).loadRecent limit = .ok (found, notices) ∧
          (found.Pairwise fun a b => a.id < b.id) ∧
          ∀ r, r ∈ found ↔ ∃ row ∈ e.rows, row.toRecord = .ok r ∧
            (e.rows.filter fun a => row.id < a.id).length < limit) := by
  intro e taken
  have hrow : ∀ id : Int, e.row? id =
      (d.row? id).or ((taken.find? fun r => (r.id : Int) = id).map Row.ofRecord) := by
    intro id
    rw [← Row.find?_ofRecords hwhole]
    exact row?_run h hkeep id
  refine ⟨?_, hrow, fun row => mem_rows_run, fun batch => after_persist_taken h hkeep,
    fun r hr hleap => Row.toRecord_ofRecord ((hwhole r hr).archivable hleap),
    exists_loadRecent (Ordered.run h accesses)⟩
  rintro batches rfl hlocked hdropped
  obtain ⟨htaken, hrun⟩ := run_batches hlocked hdropped batches
  have he : e = (batches.flatten.map Row.ofRecord).foldl addRow d := hrun
  rw [he, locked_foldl_addRow, dropped_foldl_addRow]
  exact ⟨htaken, hlocked, hdropped⟩

/-- A record with nothing to remark but its id and its time. -/
def timed (id : Nat) (t : Instant) : Record :=
  { orderId := "A", broker := "b", symbol := "S", orderType := .market, timestamp := t,
    latencies := ⟨1.0, 2.0, 0.5, 1.0, 0.5⟩, status := .success, error := none, id }

/-- Half a second into the leap second at the end of 2016. -/
def leapSecond : Instant := ⟨1483228799, 1500000000⟩

/-- Half a second into a leap second at the end of the calendar. -/
def endOfCalendar : Instant := ⟨Instant.lastSecond, 1500000000⟩

/-- The record of a leap second is read back with a time in the next second.  The one of a leap
second at the end of the calendar is not read back at all. -/
theorem loadRecent_leap :
    (timed 1 leapSecond).Whole ∧ (timed 1 endOfCalendar).Whole ∧
      (Archive.database ((empty 5000).run [.persist [timed 1 leapSecond]])).loadRecent 10 =
        .ok ([timed 1 ⟨1483228800, 500000000⟩], []) ∧
      (Row.ofRecord (timed 1 leapSecond)).toRecord ≠ .ok (timed 1 leapSecond) ∧
      (Archive.database ((empty 5000).run [.persist [timed 1 endOfCalendar]])).loadRecent 10 =
        .ok ([], [.rowUnreadable (.validation "timestamp" (.outOfRange 8210266876800500))]) := by
  decide +kernel

/-- A table with a row of a status that no record has, and one with an id below zero. -/
def foreign : Database :=
  let unknown : Row := { Row.ofRecord (timed 2 ⟨100, 0⟩) with status := "PENDING" }
  let below : Row := { Row.ofRecord (timed 2 ⟨100, 0⟩) with id := -1 }
  ⟨[below, unknown], 5000, false, false⟩

/-- Batches that overlap, one of them while another program holds the table. -/
def overlapping : List Access :=
  [.persist [timed 1 ⟨200, 0⟩, timed 3 ⟨200, 0⟩], .lock true, .persist [timed 9 ⟨300, 0⟩],
    .lock false, .persist [timed 3 ⟨400, 0⟩, timed 2 ⟨400, 0⟩, timed 4 ⟨400, 1000000⟩]]

/-- The first record with the id 3 stays, and so does the row that was there before.  Of the three
newest rows two are records. -/
theorem loadRecent_overlapping :
    let e := foreign.run overlapping
    foreign.Ordered ∧ (∀ r ∈ foreign.taken overlapping, r.Whole) ∧
      e.row? 3 = some (Row.ofRecord (timed 3 ⟨200, 0⟩)) ∧ e.row? 2 = foreign.row? 2 ∧
      e.after (.persist [timed 4 ⟨400, 1000000⟩, timed 3 ⟨400, 0⟩]) = e ∧
      (Row.ofRecord (timed 4 ⟨400, 1000000⟩)).toRecord = .ok (timed 4 ⟨400, 1000000⟩) ∧
      ∃ found notices, (Archive.database e).loadRecent 3 = .ok (found, notices) ∧
        timed 3 ⟨200, 0⟩ ∈ found ∧ timed 4 ⟨400, 1000000⟩ ∈ found ∧ timed 1 ⟨200, 0⟩ ∉ found := by
  intro e
  have hordered : foreign.Ordered := by decide +kernel
  have hkeep : ∀ cutoff, .purge cutoff ∉ overlapping := by simp [overlapping]
  have hwhole : ∀ r ∈ foreign.taken overlapping, r.Whole := by decide +kernel
  obtain ⟨-, hrow, -, hagain, hback, hload⟩ := loadRecent_run hordered hkeep hwhole
  obtain ⟨found, notices, hanswer, -, hmem⟩ := hload (by decide +kernel) (by decide +kernel) 3
  refine ⟨hordered, hwhole, ?_, ?_, hagain _ (by decide +kernel),
    hback _ (by decide +kernel) (by decide +kernel), found, notices, hanswer,
    (hmem _).mpr (by decide +kernel), (hmem _).mpr (by decide +kernel),
    fun h => absurd ((hmem _).mp h) (by decide +kernel)⟩
  · rw [show e.row? 3 = _ from hrow 3]
    decide +kernel
  · rw [show e.row? 2 = _ from hrow 2]
    decide +kernel

end Database

end OrderTelemetry
