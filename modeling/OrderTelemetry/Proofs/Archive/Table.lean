import Mathlib.Data.List.Perm.Basic
import OrderTelemetry.Proofs.Archive.Rows
import OrderTelemetry.Proofs.Gateway.Admission

/-! # New rows of a table

A table has one row for each id.  A row whose id is free becomes a new row of the table and leaves
the others as they are (`perm_insertRow`), so a batch of records with free ids adds the rows of all
its records (`perm_foldl_addRow`).  The last row has the highest id (`le_last`). -/

namespace OrderTelemetry

/-- The rows are in ascending order of their ids, no two of which are the same. -/
def Database.Ordered (d : Database) : Prop := d.rows.Pairwise fun a b => a.id < b.id

instance (d : Database) : Decidable d.Ordered := by unfold Database.Ordered; infer_instance

namespace Row

theorem isNaN_stored {x : Float} (h : x.isNaN = false) : (stored x).isNaN = false := by
  unfold stored
  split_ifs
  · decide +kernel
  · exact h

/-- A table takes a record whose latencies are numbers. -/
theorem isStorable_of_numbers {r : Record} (h : ∀ x ∈ r.latencies.values, x.isNaN = false) :
    (ofRecord r).isStorable = true := by
  have hnumbers : ∀ x ∈ (r.latencies.values.map stored), x.isNaN = false :=
    List.forall_mem_map.mpr fun x hx => isNaN_stored (h x hx)
  have hnamed : (ofRecord r).latencies.named.map Prod.snd = r.latencies.values.map stored := rfl
  rw [← hnamed] at hnumbers
  unfold isStorable
  rw [List.all_eq_true]
  intro e he
  show (!e.2.isNaN) = true
  rw [hnumbers e.2 (List.mem_map_of_mem he)]
  rfl

/-- A table takes a record whose latencies are finite. -/
theorem isStorable_of_isFinite {r : Record} (h : ∀ x ∈ r.latencies.values, x.isFinite = true) :
    (ofRecord r).isStorable = true :=
  isStorable_of_numbers fun x hx => Double.isNaN_of_isFinite (h x hx)

end Row

namespace Database

variable {d : Database} {row : Row} {rows : List Row}

theorem eq_of_guarded {α : Type} {operation : String} {a b : α}
    (h : d.guarded operation a = .ok b) : b = a := by
  unfold guarded at h
  cases hfree : d.obstacle? operation with
  | some f => rw [hfree] at h; cases h
  | none => rw [hfree] at h; cases h; rfl

/-- Purging a table leaves no other rows. -/
theorem rows_purgeBefore {cutoff : Instant} {purged : Nat × Database}
    (h : d.purgeBefore cutoff = .ok purged) : purged.2.rows.Sublist d.rows := by
  rw [eq_of_guarded h]
  exact List.filter_sublist

theorem perm_insertRow (h : ∀ a ∈ rows, a.id ≠ row.id) :
    (insertRow row rows).Perm (rows ++ [row]) := by
  induction rows with
  | nil => exact .refl _
  | cons first rest ih =>
    rw [List.forall_mem_cons] at h
    unfold insertRow
    split_ifs with hlt heq
    · exact (List.perm_append_singleton row (first :: rest)).symm
    · exact absurd heq.symm h.1
    · exact (ih h.2).cons first

theorem mem_insertRow {a : Row} (h : a ∈ insertRow row rows) : a = row ∨ a ∈ rows := by
  induction rows with
  | nil => exact .inl (List.mem_singleton.mp h)
  | cons first rest ih =>
    unfold insertRow at h
    split_ifs at h with hlt heq
    · exact List.mem_cons.mp h
    · exact .inr h
    · rcases List.mem_cons.mp h with rfl | h
      · exact .inr List.mem_cons_self
      · exact (ih h).imp_right (List.mem_cons_of_mem first)

/-- A table takes no rows but those that it is given. -/
theorem mem_foldl_addRow {added : List Row} (h : row ∈ (added.foldl addRow d).rows) :
    row ∈ added ∨ row ∈ d.rows := by
  induction added generalizing d with
  | nil => exact .inr h
  | cons first rest ih =>
    rcases ih h with hrest | hfirst
    · exact .inl (List.mem_cons_of_mem first hrest)
    · unfold addRow at hfirst
      split_ifs at hfirst
      · rcases mem_insertRow hfirst with rfl | hold
        · exact .inl List.mem_cons_self
        · exact .inr hold
      · exact .inr hfirst

theorem pairwise_insertRow (h : rows.Pairwise fun a b => a.id < b.id) :
    (insertRow row rows).Pairwise fun a b => a.id < b.id := by
  induction rows with
  | nil => exact List.pairwise_singleton _ _
  | cons first rest ih =>
    obtain ⟨hfirst, hrest⟩ := List.pairwise_cons.mp h
    unfold insertRow
    split_ifs with hlt heq
    · refine List.pairwise_cons.mpr ⟨fun a ha => ?_, h⟩
      rcases List.mem_cons.mp ha with rfl | ha
      · exact hlt
      · exact Int.lt_trans hlt (hfirst a ha)
    · exact h
    · refine List.pairwise_cons.mpr ⟨fun a ha => ?_, ih hrest⟩
      rcases mem_insertRow ha with rfl | ha
      · omega
      · exact hfirst a ha

theorem Ordered.addRow (h : d.Ordered) (row : Row) : (d.addRow row).Ordered := by
  unfold Database.addRow
  split_ifs
  · exact pairwise_insertRow h
  · exact h

theorem Ordered.addRows (h : d.Ordered) (added : List Row) :
    (added.foldl Database.addRow d).Ordered := by
  induction added generalizing d with
  | nil => exact h
  | cons row rest ih => exact ih (h.addRow row)

/-- **A batch of records with free ids adds the rows of all its records.** -/
theorem perm_foldl_addRow {added : List Row} (hstorable : ∀ a ∈ added, a.isStorable = true)
    (hdistinct : added.Pairwise fun a b => a.id ≠ b.id)
    (hfree : ∀ a ∈ added, ∀ b ∈ d.rows, b.id ≠ a.id) :
    (added.foldl addRow d).rows.Perm (d.rows ++ added) := by
  induction added generalizing d with
  | nil => simp
  | cons row rest ih =>
    rw [List.forall_mem_cons] at hstorable hfree
    obtain ⟨hrow, hrest⟩ := List.pairwise_cons.mp hdistinct
    have hnext : (d.addRow row).rows = insertRow row d.rows := by
      unfold addRow
      rw [if_pos hstorable.1]
    -- the rest of the batch meets the new row too, whose id is none of theirs
    have hlater := ih (d := d.addRow row) hstorable.2 hrest (by
      intro a ha b hb
      rw [hnext] at hb
      rcases mem_insertRow hb with rfl | hb
      · exact hrow a ha
      · exact hfree.2 a ha b hb)
    rw [hnext] at hlater
    refine hlater.trans ?_
    rw [List.append_cons]
    exact (perm_insertRow hfree.1).append_right rest

theorem Ordered.le_last (h : d.Ordered) {last : Row} (hlast : d.rows.getLast? = some last) :
    ∀ row ∈ d.rows, row.id ≤ last.id := by
  obtain ⟨before, hrows⟩ := List.getLast?_eq_some_iff.mp hlast
  unfold Ordered at h
  rw [hrows] at h ⊢
  intro row hrow
  rcases List.mem_append.mp hrow with hrow | hrow
  · have hlt := (List.pairwise_append.mp h).2.2 row hrow last (List.mem_singleton_self last)
    exact Int.le_of_lt hlt
  · exact Int.le_of_eq (congrArg Row.id (List.mem_singleton.mp hrow))

end Database

end OrderTelemetry
