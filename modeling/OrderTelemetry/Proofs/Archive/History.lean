import OrderTelemetry.Proofs.Archive.Schedule
import OrderTelemetry.Proofs.Archive.Table

/-! # The history of a table

Batches of records are handed to a table, old rows are purged, and other programs take hold of the
table and let go of it, in any order.  An access that fails leaves the table as it is.

To a lookup it makes no difference where in the table a row is put.  As long as nothing is purged, a
table is for it the rows that were there and then those of the records that the table has taken, and
the first row of an id is the one that is found (`Database.find?_run`).

* `Database.run`, `Database.taken`: a table after some accesses, and the records that it takes.
* `Database.Ordered.run`: there is one row for each id at any time.
* `Database.row?_run`: the row that is found under an id.
* `Database.after_persist_taken`: records that have been taken may be handed over again. -/

namespace OrderTelemetry

/-- What is done to a table. -/
inductive Access where
  | persist (batch : List Record)
  | purge (cutoff : Instant)
  /-- Another program takes hold of the table or lets go of it. -/
  | lock (held : Bool)
  deriving DecidableEq

/-- The rows that a table takes of some records.  One with a latency that is not a number is left
out. -/
def Row.ofRecords (records : List Record) : List Row :=
  (records.map ofRecord).filter isStorable

theorem Row.ofRecords_append (first last : List Record) :
    ofRecords (first ++ last) = ofRecords first ++ ofRecords last := by
  unfold ofRecords
  rw [List.map_append, List.filter_append]

namespace Database

/-- The table after an access. -/
def after (d : Database) : Access → Database
  | .persist batch =>
    match d.persist batch with
    | .ok e => e
    | .error _ => d
  | .purge cutoff =>
    match d.purgeBefore cutoff with
    | .ok (_, e) => e
    | .error _ => d
  | .lock held => { d with locked := held }

/-- The records that a table takes with an access. -/
def takenBy (d : Database) : Access → List Record
  | .persist batch =>
    match d.persist batch with
    | .ok _ => batch
    | .error _ => []
  | _ => []

/-- The table after some accesses. -/
def run (d : Database) (accesses : List Access) : Database := accesses.foldl after d

/-- The records that a table takes with some accesses, in the order in which it takes them. -/
def taken (d : Database) : List Access → List Record
  | [] => []
  | a :: rest => d.takenBy a ++ (d.after a).taken rest

/-- The row with an id. -/
def row? (d : Database) (id : Int) : Option Row := d.rows.find? fun row => row.id = id

variable {d : Database} {row : Row} {rows : List Row}

/-! ### Rows that are put into a table -/

/-- A row is put where no lookup can tell it from one at the end. -/
theorem find?_insertRow (h : rows.Pairwise fun a b => a.id < b.id) (id : Int) :
    (insertRow row rows).find? (fun a => a.id = id) =
      (rows ++ [row]).find? fun a => a.id = id := by
  induction rows with
  | nil => rfl
  | cons first rest ih =>
    obtain ⟨hfirst, hrest⟩ := List.pairwise_cons.mp h
    unfold insertRow
    split_ifs with hlt heq
    · by_cases hid : row.id = id
      · have hnone : (first :: rest).find? (fun a => a.id = id) = none := by
          refine List.find?_eq_none.mpr fun a ha => ?_
          simp only [decide_eq_true_eq]
          rcases List.mem_cons.mp ha with rfl | ha
          · omega
          · have := hfirst a ha
            omega
        rw [List.find?_append, hnone]
        simp [hid]
      · rw [List.find?_append, List.find?_cons_of_neg (by simpa using hid)]
        simp [hid]
    · by_cases hid : first.id = id
      · simp [hid]
      · have hrow : ¬ row.id = id := by omega
        rw [List.find?_append]
        simp [hid, hrow]
    · rw [List.cons_append]
      by_cases hid : first.id = id
      · simp [hid]
      · have hskip : ∀ others : List Row, (first :: others).find? (fun a => a.id = id) =
            others.find? fun a => a.id = id :=
          fun _ => List.find?_cons_of_neg (by simpa using hid)
        rw [hskip, hskip]
        exact ih hrest

/-- A row whose id is taken is not put into the table. -/
theorem insertRow_of_present (h : rows.Pairwise fun a b => a.id < b.id)
    (hpresent : ∃ a ∈ rows, a.id = row.id) : insertRow row rows = rows := by
  induction rows with
  | nil =>
    obtain ⟨a, ha, -⟩ := hpresent
    exact (List.not_mem_nil ha).elim
  | cons first rest ih =>
    obtain ⟨hfirst, hrest⟩ := List.pairwise_cons.mp h
    obtain ⟨a, ha, hid⟩ := hpresent
    unfold insertRow
    split_ifs with hlt heq
    · rcases List.mem_cons.mp ha with rfl | ha
      · omega
      · have := hfirst a ha
        omega
    · rfl
    · rcases List.mem_cons.mp ha with rfl | ha
      · exact absurd hid.symm heq
      · rw [ih hrest ⟨a, ha, hid⟩]

theorem Ordered.find?_addRows (h : d.Ordered) (added : List Row) (id : Int) :
    (added.foldl Database.addRow d).row? id =
      (d.rows ++ added.filter Row.isStorable).find? fun a => a.id = id := by
  induction added generalizing d with
  | nil =>
    rw [List.filter_nil, List.append_nil]
    rfl
  | cons first rest ih =>
    rw [List.foldl_cons, ih (h.addRow first)]
    unfold Database.addRow
    split_ifs with hstorable
    · have hfirst : (insertRow first d.rows).find? (fun a => a.id = id) =
          (d.rows ++ [first]).find? fun a => a.id = id := find?_insertRow h id
      rw [List.filter_cons_of_pos hstorable, List.find?_append]
      show ((insertRow first d.rows).find? _).or _ = _
      rw [hfirst, ← List.find?_append, List.append_assoc]
      rfl
    · rw [List.filter_cons_of_neg hstorable]

/-- Rows whose ids are taken leave the table as it is, and so do those that it cannot take. -/
theorem Ordered.addRows_of_present (h : d.Ordered) {added : List Row}
    (hpresent : ∀ a ∈ added, a.isStorable = true → ∃ b ∈ d.rows, b.id = a.id) :
    added.foldl Database.addRow d = d := by
  induction added with
  | nil => rfl
  | cons first rest ih =>
    rw [List.forall_mem_cons] at hpresent
    have hfirst : Database.addRow d first = d := by
      unfold Database.addRow
      split_ifs with hstorable
      · rw [insertRow_of_present h (hpresent.1 hstorable)]
      · rfl
    rw [List.foldl_cons, hfirst]
    exact ih hpresent.2

/-! ### One access -/

section Persisted
variable {e : Database} {batch : List Record} (hpersist : d.persist batch = .ok e)
include hpersist

theorem takenBy_of_persist : d.takenBy (.persist batch) = batch := by
  simp only [takenBy, hpersist]

theorem after_of_persist : d.after (.persist batch) = e := by
  simp only [after, hpersist]

end Persisted

theorem mem_of_mem_takenBy {batch : List Record} {r : Record}
    (hr : r ∈ d.takenBy (.persist batch)) : r ∈ batch := by
  unfold takenBy at hr
  dsimp only at hr
  cases hpersist : d.persist batch with
  | error f =>
    rw [hpersist] at hr
    exact absurd hr List.not_mem_nil
  | ok e =>
    rw [hpersist] at hr
    exact hr

/-- A batch adds the rows of the records that the table takes of it, which may be none. -/
theorem after_persist (d : Database) (batch : List Record) :
    d.after (.persist batch) =
      ((d.takenBy (.persist batch)).map Row.ofRecord).foldl addRow d := by
  unfold after takenBy
  rcases d.persist_cases batch with ⟨f, hfailed⟩ | hdone
  · simp only [hfailed]
    rfl
  · simp only [hdone]

theorem rows_after_purge (d : Database) (cutoff : Instant) :
    (d.after (.purge cutoff)).rows.Sublist d.rows := by
  unfold after
  dsimp only
  cases hpurge : d.purgeBefore cutoff with
  | error f => exact .refl _
  | ok purged => exact rows_purgeBefore hpurge

/-- An access that does not purge adds the rows of the records that the table takes. -/
theorem rows_after {a : Access} (ha : ∀ cutoff, a ≠ .purge cutoff) :
    (d.after a).rows = (((d.takenBy a).map Row.ofRecord).foldl addRow d).rows := by
  cases a with
  | persist batch => exact congrArg rows (d.after_persist batch)
  | purge cutoff => exact absurd rfl (ha cutoff)
  | lock held => rfl

/-- After an access the table has no other rows than before but those of the records that it
takes. -/
theorem mem_rows_after {a : Access} (hrow : row ∈ (d.after a).rows) :
    row ∈ d.rows ∨ ∃ r ∈ d.takenBy a, row = Row.ofRecord r := by
  cases a with
  | persist batch =>
    rw [after_persist] at hrow
    rcases mem_foldl_addRow hrow with hnew | hold
    · obtain ⟨r, hr, rfl⟩ := List.mem_map.mp hnew
      exact .inr ⟨r, hr, rfl⟩
    · exact .inl hold
  | purge cutoff => exact .inl ((d.rows_after_purge cutoff).mem hrow)
  | lock held => exact .inl hrow

/-- Every access leaves one row for each id. -/
theorem Ordered.after (h : d.Ordered) (a : Access) : (d.after a).Ordered := by
  cases a with
  | persist batch =>
    rw [after_persist]
    exact h.addRows _
  | purge cutoff => exact h.sublist (d.rows_after_purge cutoff)
  | lock held => exact h

/-! ### Any accesses -/

theorem persist_of_free (hlocked : d.locked = false) (hdropped : d.dropped = false)
    (batch : List Record) : d.persist batch = .ok ((batch.map Row.ofRecord).foldl addRow d) := by
  unfold persist
  split_ifs with hempty
  · rw [List.isEmpty_iff.mp hempty]
    rfl
  · exact guarded_of_free hlocked hdropped _ _

/-- A table within reach takes all batches, and stays within reach. -/
theorem run_batches (hlocked : d.locked = false) (hdropped : d.dropped = false)
    (batches : List (List Record)) :
    d.taken (batches.map .persist) = batches.flatten ∧
      d.run (batches.map .persist) = (batches.flatten.map Row.ofRecord).foldl addRow d := by
  induction batches generalizing d with
  | nil => exact ⟨rfl, rfl⟩
  | cons batch rest ih =>
    have hpersist := persist_of_free hlocked hdropped batch
    obtain ⟨hrest, hrun⟩ :=
      ih ((locked_foldl_addRow d _).trans hlocked) ((dropped_foldl_addRow d _).trans hdropped)
    have hafter := after_of_persist hpersist
    rw [List.map_cons, taken, takenBy_of_persist hpersist, hafter, hrest, List.flatten_cons,
      List.map_append, List.foldl_append, ← hrun]
    exact ⟨rfl, congrArg (Database.run · _) hafter⟩

theorem Ordered.run (h : d.Ordered) (accesses : List Access) : (d.run accesses).Ordered := by
  induction accesses generalizing d with
  | nil => exact h
  | cons a rest ih => exact ih (h.after a)

/-- Every row was there before or is that of a record that the table has taken. -/
theorem mem_rows_run {accesses : List Access} (hrow : row ∈ (d.run accesses).rows) :
    row ∈ d.rows ∨ ∃ r ∈ d.taken accesses, row = Row.ofRecord r := by
  induction accesses generalizing d with
  | nil => exact .inl hrow
  | cons a rest ih =>
    unfold taken
    rcases ih (d := d.after a) hrow with hbefore | ⟨r, hr, heq⟩
    · rcases mem_rows_after hbefore with hold | ⟨r, hr, heq⟩
      · exact .inl hold
      · exact .inr ⟨r, List.mem_append_left _ hr, heq⟩
    · exact .inr ⟨r, List.mem_append_right _ hr, heq⟩

section Kept
variable (h : d.Ordered) {accesses : List Access} (hkeep : ∀ cutoff, .purge cutoff ∉ accesses)
include h hkeep

/-- **Lookups in a table** find the rows that were there before those of the records that it takes,
and among these the earlier before the later. -/
theorem find?_run (id : Int) :
    (d.run accesses).row? id =
      (d.rows ++ Row.ofRecords (d.taken accesses)).find? fun a => a.id = id := by
  induction accesses generalizing d with
  | nil =>
    show _ = (d.rows ++ []).find? _
    rw [List.append_nil]
    rfl
  | cons a rest ih =>
    have hone : (d.after a).row? id =
        (d.rows ++ Row.ofRecords (d.takenBy a)).find? fun a => a.id = id := by
      unfold row?
      rw [rows_after fun cutoff ha => hkeep cutoff (ha ▸ List.mem_cons_self)]
      exact Ordered.find?_addRows h _ id
    have hlater := ih (h.after a) fun cutoff hc => hkeep cutoff (List.mem_cons_of_mem a hc)
    show ((d.after a).run rest).row? id = _
    rw [hlater, List.find?_append, taken, Row.ofRecords_append, ← List.append_assoc]
    exact (congrArg (Option.or · _) hone).trans List.find?_append.symm

/-- Under an id there is the row that was there, or that of the first record with the id that the
table has taken. -/
theorem row?_run (id : Int) :
    (d.run accesses).row? id =
      (d.row? id).or ((Row.ofRecords (d.taken accesses)).find? fun a => a.id = id) := by
  rw [find?_run h hkeep, List.find?_append]
  rfl

/-- Every row stays, and every record that the table takes has a row with its id. -/
theorem exists_row_run {a : Row} (ha : a ∈ d.rows ++ Row.ofRecords (d.taken accesses)) :
    ∃ b ∈ (d.run accesses).rows, b.id = a.id := by
  have hrun := find?_run h hkeep a.id
  cases hrow : (d.run accesses).row? a.id with
  | none =>
    rw [hrow] at hrun
    have hnone := List.find?_eq_none.mp hrun.symm a ha
    simp at hnone
  | some b => exact ⟨b, List.mem_of_find?_eq_some hrow, by simpa using List.find?_some hrow⟩

/-- **Records that the table has taken may be handed over again**, in any batches, and nothing
changes. -/
theorem after_persist_taken {batch : List Record} (hbatch : ∀ r ∈ batch, r ∈ d.taken accesses) :
    (d.run accesses).after (.persist batch) = d.run accesses := by
  rw [after_persist]
  refine Ordered.addRows_of_present (Ordered.run h accesses) ?_
  refine List.forall_mem_map.mpr fun r hr hstorable => exists_row_run h hkeep ?_
  have hrow : Row.ofRecord r ∈ Row.ofRecords (d.taken accesses) :=
    List.mem_filter.mpr ⟨List.mem_map_of_mem (hbatch r (mem_of_mem_takenBy hr)), hstorable⟩
  exact List.mem_append_right _ hrow

end Kept

end Database

end OrderTelemetry
