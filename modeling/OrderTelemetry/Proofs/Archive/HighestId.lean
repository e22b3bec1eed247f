import OrderTelemetry.Proofs.Archive.ReadBack
import OrderTelemetry.Proofs.Store.Restoring

/-! # The highest id of a table

A store goes on above the highest id of the table that it is filled from.  The id of a record has
sixty-four bits, and so has that of its row, but the row has one of them for the sign.  An id from
`2 ^ 63` on is below zero there and does not count when the highest one is asked for: the answer is
an id below it, and a store that goes on above the answer gives ids again that are lower than one
of the table.  Below `2 ^ 63` the highest id is what it should be.

* `Row.signed`: the id of a row for the id of a record.
* `Database.Signed`, `Database.Holds`: tables with ids of sixty-four bits, and the ids they have.
* `Store.restoreFrom_highest`: where a store goes on that is filled from an archive.
* `Database.maxId_run`: which ids of a table the highest one covers. -/

namespace OrderTelemetry

/-! ### Stores that go on above a highest id -/

namespace Store

variable {s : Store} {a : Archive} {limit highest : Nat}

theorem nextId_restore_le {records : List Record} (h : ∀ r ∈ records, r.id ≤ highest)
    (hhighest : highest < lastId) (hs : s.nextId ≤ highest + 1) (now : Instant) :
    (s.restore records now).state.nextId ≤ highest + 1 := by
  have hids : ∀ r ∈ records, r.id < lastId := fun r hr => Nat.lt_of_le_of_lt (h r hr) hhighest
  have hpushed : ∀ r ∈ s.pushed (.restore records now), r.id < highest + 1 := by
    intro r hr
    have hmem := (exists_pushed hids now r.id).mp ⟨r, hr, rfl⟩
    obtain ⟨b, hb, hid⟩ := List.mem_map.mp (List.mem_filter.mp hmem).1
    have := h b hb
    omega
  rw [(s.restore_of_lt hids now).2]
  exact nextId_acceptAll_le hs hpushed

/-- A store that is filled from an archive goes on right above the highest id of the archive, if no
record that it gets has a higher one. -/
theorem restoreFrom_highest (hmax : a.maxId = .ok (some highest)) (hhighest : highest < lastId)
    (hloaded : ∀ found, a.loadRecent limit = .ok found → ∀ r ∈ found.1, r.id ≤ highest)
    (hs : s.nextId ≤ highest + 1) (now : Instant) :
    (s.restoreFrom a limit now).answer.isOk = true ∧
      (s.restoreFrom a limit now).state.nextId = highest + 1 := by
  have hok : (s.restoreFrom a limit now).answer.isOk = true :=
    isOk_restoreFrom s hmax (by rintro id ⟨⟩; omega)
      (fun found hfound r hr => by have := hloaded found hfound r hr; omega) now
  refine ⟨hok, Nat.le_antisymm ?_ ?_⟩
  · have hid : highest ≠ lastId := by omega
    unfold restoreFrom
    rw [hmax]
    cases hload : a.loadRecent limit with
    | error f =>
      dsimp only
      rw [(resumeAfter_of_ne hid).2]
      exact Nat.max_le.mpr ⟨hs, Nat.le_refl _⟩
    | ok found =>
      have hfound := hloaded found hload
      have hids : ∀ r ∈ found.1, r.id ≠ lastId := fun r hr => by
        have := hfound r hr
        omega
      obtain ⟨n, hn⟩ := restore_of_ne (s := s) hids now
      dsimp only
      rw [hn]
      dsimp only
      rw [(resumeAfter_of_ne hid).2]
      exact Nat.max_le.mpr ⟨nextId_restore_le hfound hhighest hs now, Nat.le_refl _⟩
  · obtain ⟨known, hknown, hlt⟩ := lt_nextId_restoreFrom hok
    rw [hmax] at hknown
    cases hknown
    exact hlt highest rfl

/-- Ids are given from the next one on. -/
theorem nextId_le_of_granted {calls : List Call} {id : Nat} (h : id ∈ s.granted calls) :
    s.nextId ≤ id := by
  obtain ⟨r, hr, rfl⟩ := List.mem_map.mp ((s.granted_sublist calls).mem h)
  exact (s.history_climbs calls).start r hr

end Store

/-! ### Signed ids -/

/-- The id that the row of a record has for the id of the record. -/
def Row.signed (id : Nat) : Int := Int.bmod id 0x10000000000000000

namespace Row

theorem id_ofRecord_eq (r : Record) : (ofRecord r).id = signed r.id :=
  calc
    (ofRecord r).id = Int.bmod r.id 0x10000000000000000 := by
      unfold ofRecord
      dsimp only
    _ = signed r.id := by
      unfold signed
      rfl

theorem signed_of_lt {id : Nat} (h : id < idBound) : signed id = id := by
  unfold idBound at h
  exact Int.bmod_eq_of_le_mul_two (by omega) (by omega)

end Row

namespace Database

/-- The ids of the rows have sixty-four bits, one of them for the sign. -/
def Signed (d : Database) : Prop :=
  ∀ row ∈ d.rows, -(Row.idBound : Int) ≤ row.id ∧ row.id < Row.idBound

/-- There is a row for the id of a record. -/
def Holds (d : Database) (id : Nat) : Prop := ∃ row ∈ d.rows, row.id = Row.signed id

instance (d : Database) : Decidable d.Signed := by unfold Signed; infer_instance

instance (d : Database) (id : Nat) : Decidable (d.Holds id) := by unfold Holds; infer_instance

variable {d : Database} {id : Nat}

theorem Signed.run (h : d.Signed) (accesses : List Access) : (d.run accesses).Signed := by
  intro row hrow
  rcases mem_rows_run hrow with hold | ⟨r, -, rfl⟩
  · exact h row hold
  · rw [Row.id_ofRecord_eq]
    unfold Row.signed Row.idBound
    have hlow := Int.le_bmod (x := r.id) (m := 0x10000000000000000) (by decide)
    have hhigh := Int.bmod_lt (x := r.id) (m := 0x10000000000000000) (by decide)
    omega

section Taken
variable {e : Database} {batch : List Record} {r : Record} (hpersist : d.persist batch = .ok e)
include hpersist

theorem run_persist : d.run [.persist batch] = e := after_of_persist hpersist

variable (hr : r ∈ batch)
include hr

/-- A table that takes a batch with a record in it is within reach, and stays so. -/
theorem free_of_persist : e.locked = false ∧ e.dropped = false := by
  have hne : ¬ batch.isEmpty = true := by simpa using List.ne_nil_of_mem hr
  unfold persist guarded obstacle? at hpersist
  rw [if_neg hne] at hpersist
  split_ifs at hpersist with hlocked hdropped
  cases hpersist
  rw [locked_foldl_addRow, dropped_foldl_addRow]
  exact ⟨by simpa using hlocked, by simpa using hdropped⟩

/-- A record with numbers for its latencies has a row once the table has taken it. -/
theorem holds_of_persist (h : d.Ordered) (hnumbers : ∀ x ∈ r.latencies.values, x.isNaN = false) :
    e.Holds r.id := by
  have htaken : d.taken [.persist batch] = batch := by
    rw [taken, taken, takenBy_of_persist hpersist, List.append_nil]
  have hrow : Row.ofRecord r ∈ Row.ofRecords (d.taken [.persist batch]) := by
    rw [htaken]
    exact List.mem_filter.mpr ⟨List.mem_map_of_mem hr, Row.isStorable_of_numbers hnumbers⟩
  obtain ⟨b, hb, hid⟩ := exists_row_run h (by simp) (List.mem_append_right d.rows hrow)
  rw [run_persist hpersist] at hb
  exact ⟨b, hb, hid.trans (Row.id_ofRecord_eq r)⟩

end Taken

/-! ### The highest id -/

section Reach
variable (h : d.Ordered) (hlocked : d.locked = false) (hdropped : d.dropped = false)
include h hlocked hdropped

/-- The highest id is that of a row, or zero if it is below, and none is higher. -/
theorem exists_maxId {row : Row} (hrow : row ∈ d.rows) :
    ∃ last ∈ d.rows, d.maxId = .ok (some last.id.toNat) ∧ ∀ a ∈ d.rows, a.id ≤ last.id := by
  cases hlast : d.rows.getLast? with
  | none =>
    rw [List.getLast?_eq_none_iff.mp hlast] at hrow
    exact absurd hrow List.not_mem_nil
  | some last =>
    refine ⟨last, List.mem_of_getLast? hlast, ?_, h.le_last hlast⟩
    unfold maxId
    rw [guarded_of_free hlocked hdropped, hlast]
    rfl

/-- The highest id covers those of the records with a row, unless they do not fit with the sign. -/
theorem exists_maxId_iff (hsigned : d.Signed) (hid : d.Holds id) :
    ∃ m, d.maxId = .ok (some m) ∧ m < Row.idBound ∧ (∀ a ∈ d.rows, a.id ≤ m) ∧
      (id ≤ m ↔ id < Row.idBound) := by
  obtain ⟨row, hrow, hkey⟩ := hid
  obtain ⟨last, hlast, hmax, hle⟩ := exists_maxId h hlocked hdropped hrow
  have hbound : last.id.toNat < Row.idBound := by
    have := (hsigned last hlast).2
    unfold Row.idBound at this ⊢
    omega
  refine ⟨_, hmax, hbound, fun a ha => ?_, fun hcovered => by omega, fun hlow => ?_⟩
  · have := hle a ha
    omega
  · rw [Row.signed_of_lt hlow] at hkey
    have := hle row hrow
    omega

/-- The records that are read back have the ids of rows. -/
theorem exists_row_of_loaded {limit : Nat} {found : List Record × List Notice}
    (hfound : (Archive.database d).loadRecent limit = .ok found) :
    ∀ r ∈ found.1, ∃ row ∈ d.rows, row.id = r.id := by
  obtain ⟨records, notices, hanswer, -, hmem⟩ := exists_loadRecent h hlocked hdropped limit
  rw [hanswer] at hfound
  cases hfound
  intro r hr
  obtain ⟨row, hrow, hreadable, -⟩ := (hmem r).mp hr
  exact ⟨row, hrow, Row.id_of_toRecord hreadable⟩

end Reach

/-- **The highest id of a table covers the ids below `2 ^ 63`, and no others.**  A record of a batch
that the table has taken has a row.  As long as a record has a row, whatever else is done to the
table, its id is covered if it is below `2 ^ 63`, and a new store that is filled from the table
gives greater ids only.  If it is not, the highest id that the table knows is smaller, and the next
id of the store is not greater. -/
theorem maxId_run (h : d.Ordered) (hsigned : d.Signed) (accesses : List Access) :
    let e := d.run accesses
    (∀ batch t, e.persist batch = .ok t → ∀ r ∈ batch,
        (∀ x ∈ r.latencies.values, x.isNaN = false) →
        t.Holds r.id ∧ ∃ m, t.maxId = .ok (some m) ∧ (r.id ≤ m ↔ r.id < Row.idBound)) ∧
      (e.locked = false → e.dropped = false → ∀ id, e.Holds id →
        (∃ m, e.maxId = .ok (some m) ∧ (id ≤ m ↔ id < Row.idBound)) ∧
          ∀ p limit now,
            let step := (Store.empty p).restoreFrom (.database e) limit now
            step.answer.isOk = true ∧
              (id < Row.idBound → ∀ calls, ∀ later ∈ step.state.granted calls, id < later) ∧
              (Row.idBound ≤ id → step.state.nextId ≤ id)) := by
  intro e
  have he : e.Ordered := Ordered.run h accesses
  have hesigned : e.Signed := Signed.run hsigned accesses
  refine ⟨fun batch t hpersist r hr hnumbers => ?_, fun hlocked hdropped id hid => ?_⟩
  · have ht : t.Ordered := run_persist hpersist ▸ Ordered.run he _
    have htsigned : t.Signed := run_persist hpersist ▸ Signed.run hesigned _
    have hholds : t.Holds r.id := holds_of_persist hpersist hr he hnumbers
    obtain ⟨hlocked, hdropped⟩ := free_of_persist hpersist hr
    obtain ⟨m, hmax, -, -, hcovers⟩ := exists_maxId_iff ht hlocked hdropped htsigned hholds
    exact ⟨hholds, m, hmax, hcovers⟩
  · obtain ⟨m, hmax, hm, hrows, hcovers⟩ := exists_maxId_iff he hlocked hdropped hesigned hid
    refine ⟨⟨m, hmax, hcovers⟩, fun p limit now => ?_⟩
    have harchive : (Archive.database e).maxId = .ok (some m) := hmax
    have hlast : m < Store.lastId := Nat.lt_trans hm (by decide)
    have hloaded : ∀ found, (Archive.database e).loadRecent limit = .ok found →
        ∀ r ∈ found.1, r.id ≤ m := by
      intro found hfound r hr
      obtain ⟨row, hrow, hrid⟩ := exists_row_of_loaded he hlocked hdropped hfound r hr
      have := hrows row hrow
      omega
    obtain ⟨hok, hnext⟩ := Store.restoreFrom_highest (s := Store.empty p) harchive hlast hloaded
      (Nat.le_add_left 1 m) now
    refine ⟨hok, fun hlow calls later hlater => ?_, fun hhigh => ?_⟩
    · have hle := Store.nextId_le_of_granted hlater
      have := hcovers.mpr hlow
      omega
    · rw [hnext]
      omega

/-- Two records, the second with an id that has no room next to the sign. -/
def beyond : List Access := [.persist [timed 3 ⟨100, 0⟩, timed Row.idBound ⟨100, 0⟩]]

/-- The highest id of a table with an id beyond `2 ^ 63` is the highest one below. -/
theorem maxId_beyond :
    let e := (empty 5000).run beyond
    let s := ((Store.empty ⟨10, none⟩).restoreFrom (.database e) 10 ⟨200, 0⟩).state
    (empty 5000).Ordered ∧ (empty 5000).Signed ∧ e.Holds 3 ∧ e.Holds Row.idBound ∧
      e.maxId = .ok (some 3) ∧ (∀ calls, ∀ later ∈ s.granted calls, 3 < later) ∧
      s.nextId ≤ Row.idBound ∧
      ∃ t, e.persist [timed 7 ⟨100, 0⟩] = .ok t ∧ t.Holds 7 ∧ t.maxId = .ok (some 7) := by
  intro e s
  have hordered : (empty 5000).Ordered := by decide +kernel
  have hsigned : (empty 5000).Signed := by decide +kernel
  have hthree : e.Holds 3 := by decide +kernel
  have hbeyond : e.Holds Row.idBound := by decide +kernel
  obtain ⟨htaken, hheld⟩ := maxId_run hordered hsigned beyond
  have hreach := hheld (by decide +kernel) (by decide +kernel)
  obtain ⟨t, ht⟩ : ∃ t, e.persist [timed 7 ⟨100, 0⟩] = .ok t := ⟨_, rfl⟩
  obtain ⟨hseven, -⟩ := htaken _ t ht (timed 7 ⟨100, 0⟩) List.mem_cons_self (by decide +kernel)
  refine ⟨hordered, hsigned, hthree, hbeyond, by decide +kernel,
    ((hreach 3 hthree).2 ⟨10, none⟩ 10 ⟨200, 0⟩).2.1 (by decide),
    ((hreach Row.idBound hbeyond).2 ⟨10, none⟩ 10 ⟨200, 0⟩).2.2 (Nat.le_refl _), t, ht, hseven, ?_⟩
  cases ht
  decide +kernel

end Database

end OrderTelemetry
