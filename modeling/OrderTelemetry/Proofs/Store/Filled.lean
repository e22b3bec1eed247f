import OrderTelemetry.Proofs.Store.Refill

/-! # Stores filled from any archive

An archive need not give back what it holds.  A store that is filled from it takes what it gets, and
what it knows afterwards depends on the highest id alone: if the archive tells it, the store goes on
above it (`lt_nextId_restoreFrom`), and if the archive does not, the store stays as it is
(`restoreFrom_of_unreadable`).  Only the last of all ids is in the way of filling
(`isOk_restoreFrom`). -/

namespace OrderTelemetry.Store

variable {s : Store} {a : Archive} {limit : Nat}

theorem restoreFrom_of_unreadable (s : Store) {f : Fault} (h : a.maxId = .error f) (limit : Nat)
    (now : Instant) :
    s.restoreFrom a limit now = { answer := .error (.fault f), state := s } := by
  unfold restoreFrom
  rw [h]

/-! ### Above the highest id -/

theorem lt_nextId_of_map {id n : Nat}
    (h : ((s.resumeAfter id).answer.map fun _ => n).isOk = true) :
    id < (s.resumeAfter id).state.nextId := by
  refine lt_nextId_resumeAfter ?_
  cases hanswer : (s.resumeAfter id).answer with
  | error e => rw [hanswer] at h; cases h
  | ok u => rfl

/-- A store that could be filled from an archive goes on above its highest id, whatever records it
has taken. -/
theorem lt_nextId_restoreFrom {now : Instant}
    (h : (s.restoreFrom a limit now).answer.isOk = true) :
    ∃ highest, a.maxId = .ok highest ∧
      ∀ id ∈ highest, id < (s.restoreFrom a limit now).state.nextId := by
  unfold restoreFrom at h ⊢
  cases hmax : a.maxId with
  | error f =>
    rw [hmax] at h
    cases h
  | ok highest =>
    refine ⟨highest, rfl, ?_⟩
    intro id hid
    obtain rfl : highest = some id := hid
    rw [hmax] at h
    -- the store passes the highest id last, with the records or without them
    cases hload : a.loadRecent limit with
    | error f =>
      rw [hload] at h
      exact lt_nextId_of_map h
    | ok found =>
      rw [hload] at h
      dsimp only at h ⊢
      cases hanswer : (s.restore found.1 now).answer with
      | error e => rw [hanswer] at h; cases h
      | ok n =>
        rw [hanswer] at h
        exact lt_nextId_of_map h

/-! ### All ids but the last -/

theorem readmitAll_of_ne {records : List Record} (h : ∀ r ∈ records, r.id ≠ lastId) :
    ∃ t, s.readmitAll records = .ok t := by
  induction records generalizing s with
  | nil => exact ⟨s, rfl⟩
  | cons r rest ih =>
    rw [List.forall_mem_cons] at h
    unfold readmitAll readmit
    rw [if_neg h.1]
    split_ifs
    · exact ih h.2
    · exact ih h.2

theorem restore_of_ne {records : List Record} (h : ∀ r ∈ records, r.id ≠ lastId) (now : Instant) :
    ∃ n, (s.restore records now).answer = .ok n := by
  have hsorted : ∀ r ∈ records.mergeSort fun a b => decide (a.id ≤ b.id), r.id ≠ lastId :=
    fun r hr => h r (List.mem_mergeSort.mp hr)
  obtain ⟨t, ht⟩ := readmitAll_of_ne (s := s) hsorted
  unfold restore
  rw [ht]
  exact ⟨_, rfl⟩

/-- A store can be filled from an archive that knows its highest id. -/
theorem isOk_restoreFrom (s : Store) {highest : Option Nat} (hmax : a.maxId = .ok highest)
    (hhighest : ∀ id ∈ highest, id ≠ lastId)
    (hloaded : ∀ found, a.loadRecent limit = .ok found → ∀ r ∈ found.1, r.id ≠ lastId)
    (now : Instant) : (s.restoreFrom a limit now).answer.isOk = true := by
  unfold restoreFrom
  rw [hmax]
  cases hload : a.loadRecent limit with
  | error f =>
    cases highest with
    | none => rfl
    | some id =>
      dsimp only
      rw [(resumeAfter_of_ne (hhighest id rfl)).1]
      rfl
  | ok found =>
    obtain ⟨n, hn⟩ := restore_of_ne (s := s) (hloaded found hload) now
    dsimp only
    rw [hn]
    cases highest with
    | none => rfl
    | some id =>
      dsimp only
      rw [(resumeAfter_of_ne (hhighest id rfl)).1]
      rfl

end OrderTelemetry.Store
