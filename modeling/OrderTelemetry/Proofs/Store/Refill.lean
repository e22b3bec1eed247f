import OrderTelemetry.Archive.Basic
import OrderTelemetry.Proofs.Store.Ids
import OrderTelemetry.Proofs.Store.Statistics
import OrderTelemetry.Proofs.Store.Window

/-! # Filling a store again

A store without a bound on the age loses nothing but its oldest records.  What it answers, and the
id that it gives next, come down to the records appended to it, whether they have been inserted one
by one or read back from an archive.

* `Store.Reflects`: the window has the newest of some records, and ids go on after the last of them.
* `Store.Reflects.run`: insertions leave a store that reflects the records inserted.
* `Store.restoreFrom_reflects`: so does an archive that gives the newest of them back.
* `Store.Alike`: stores that hold the same records and answer alike, as those do that reflect the
  same records (`Store.Reflects.alike`). -/

namespace OrderTelemetry

/-- What changes a store while the service runs: insertions, and readings of the statistics. -/
def Call.Live : Call → Prop
  | .insert _ _ => True
  | .stats => True
  | _ => False

namespace Store

/-- The id that follows those of some records. -/
def idAfter (records : List Record) : Nat := (records.getLast?.map fun r => r.id + 1).getD 1

/-- A store that keeps records of any age has the newest of some records, and goes on with the id
after the last of them. -/
structure Reflects (limit : Nat) (records : List Record) (s : Store) : Prop where
  reachable : ∃ calls, s = (empty ⟨limit, none⟩).run calls
  retention : s.retention = ⟨limit, none⟩
  window : s.window.toList = (⟨limit, none⟩ : Retention).newest records
  nextId : s.nextId = idAfter records

/-- The newest records are followed by the same id as all of them, unless there are none. -/
theorem max_idAfter_newest {p : Retention} {records : List Record} {last : Record}
    (h : records.getLast? = some last) :
    max (idAfter (p.newest records)) (last.id + 1) = idAfter records := by
  unfold idAfter Retention.newest
  rw [List.getLast?_drop, h]
  split_ifs
  · exact Nat.max_eq_right (Nat.le_add_left 1 last.id)
  · exact Nat.max_self _

theorem Reflects.indexed {limit : Nat} {records : List Record} {s : Store}
    (h : s.Reflects limit records) : s.Indexed := by
  obtain ⟨calls, rfl⟩ := h.reachable
  exact indexed_run _ calls

theorem Reflects.accounted {limit : Nat} {records : List Record} {s : Store}
    (h : s.Reflects limit records) : s.Accounted := by
  obtain ⟨calls, rfl⟩ := h.reachable
  exact accounted_run _ calls

/-! ### Insertions -/

section Insertions
variable {limit : Nat} {records : List Record} {s : Store}

/-- Without a bound on the age only the number of records matters. -/
theorem toList_enforce_of_ageless (h : s.retention = ⟨limit, none⟩) (now : Instant) :
    (s.enforce now).window.toList = (⟨limit, none⟩ : Retention).newest s.window.toList := by
  unfold enforce surplus staleFrom Retention.cutoff Retention.newest excess
  rw [toList_evict, h]
  simp

theorem Reflects.empty (limit : Nat) : Reflects limit [] (empty ⟨limit, none⟩) :=
  ⟨⟨[], rfl⟩, rfl, by simp [Retention.newest, Store.empty], rfl⟩

theorem Reflects.after (h : Reflects limit records s) {c : Call} (hc : c.Live) :
    Reflects limit (records ++ s.pushed c) (s.after c) := by
  obtain ⟨calls, hcalls⟩ := h.reachable
  have hreachable : ∃ calls, s.after c = (Store.empty ⟨limit, none⟩).run calls :=
    ⟨calls ++ [c], by rw [run_append, ← hcalls]; rfl⟩
  cases c with
  | insert d now =>
    rcases s.insert_cases d now with ⟨e, ha, hs⟩ | ⟨ha, hs⟩
    · have hpushed : s.pushed (.insert d now) = [] := by rw [pushed, ha]
      rw [hpushed, List.append_nil, Store.after, hs]
      exact h
    · have hpushed : s.pushed (.insert d now) = [d.withId s.nextId] := by rw [pushed, ha]
      rw [hpushed]
      rw [Store.after, hs] at hreachable ⊢
      have hretention : (s.accept (d.withId s.nextId)).retention = ⟨limit, none⟩ := h.retention
      refine ⟨hreachable, hretention, ?_, ?_⟩
      · rw [toList_enforce_of_ageless hretention, toList_accept, h.window,
          Retention.newest_append_newest]
      · show s.nextId + 1 = idAfter (records ++ [d.withId s.nextId])
        simp [idAfter, Draft.withId]
  | stats =>
    have hpushed : s.pushed .stats = [] := rfl
    rw [hpushed, List.append_nil]
    exact ⟨hreachable, h.retention, h.window, h.nextId⟩
  | restore records now => exact hc.elim
  | resumeAfter id => exact hc.elim
  | evictExpired now => exact hc.elim

/-- Insertions leave a store that reflects the records that they append. -/
theorem Reflects.run (h : Reflects limit records s) {calls : List Call}
    (hcalls : ∀ c ∈ calls, c.Live) : Reflects limit (records ++ s.history calls) (s.run calls) := by
  induction calls generalizing s records with
  | nil => simpa [history] using h
  | cons c rest ih =>
    have hnext := ih (h.after (hcalls c List.mem_cons_self))
      fun d hd => hcalls d (List.mem_cons_of_mem _ hd)
    rw [List.append_assoc] at hnext
    exact hnext

end Insertions

/-! ### Archived records -/

section Archived
variable {s : Store} {records : List Record}

/-- Records whose ids rise from the next id on are all taken. -/
theorem readmitAll_of_climbs (h : Climbs s.nextId records) (hids : ∀ r ∈ records, r.id ≠ lastId) :
    s.readmitAll records = .ok (s.acceptAll records) := by
  induction records generalizing s with
  | nil => rfl
  | cons r rest ih =>
    have hr := h.start r List.mem_cons_self
    unfold readmitAll readmit
    rw [if_neg (by omega), if_neg (hids r List.mem_cons_self)]
    exact ih (s := s.accept r) h.tail fun a ha => hids a (List.mem_cons_of_mem _ ha)

theorem restore_of_climbs (h : Climbs s.nextId records) (hids : ∀ r ∈ records, r.id ≠ lastId)
    (now : Instant) :
    (s.restore records now).answer = .ok records.length ∧
      (s.restore records now).state = (s.acceptAll records).enforce now := by
  have hsorted : (records.mergeSort fun a b => decide (a.id ≤ b.id)) = records :=
    List.mergeSort_of_pairwise (h.ordered.imp fun hab => decide_eq_true (Nat.le_of_lt hab))
  unfold restore
  rw [hsorted, readmitAll_of_climbs h hids]
  refine ⟨?_, rfl⟩
  dsimp only
  rw [generation_acceptAll, Nat.add_sub_cancel_left]

theorem nextId_acceptAll (s : Store) (records : List Record) :
    (s.acceptAll records).nextId = (records.getLast?.map fun r => r.id + 1).getD s.nextId := by
  induction records generalizing s with
  | nil => rfl
  | cons r rest ih =>
    rw [acceptAll_cons, ih, List.getLast?_cons]
    cases rest.getLast? <;> rfl

theorem resumeAfter_of_ne {id : Nat} (hid : id ≠ lastId) :
    (s.resumeAfter id).answer = .ok () ∧
      (s.resumeAfter id).state = { s with nextId := max s.nextId (id + 1) } := by
  unfold resumeAfter
  split_ifs with hlow
  · rw [Nat.max_eq_left hlow]
    exact ⟨rfl, rfl⟩
  · rw [Nat.max_eq_right (by omega)]
    exact ⟨rfl, rfl⟩

end Archived

section Filling
variable {limit : Nat} {records : List Record}

/-- An empty store that takes records whose ids rise reflects them. -/
theorem reflects_restore (limit : Nat) (h : Climbs 1 records)
    (hids : ∀ r ∈ records, r.id ≠ lastId) (now : Instant) :
    ((empty ⟨limit, none⟩).restore records now).answer = .ok records.length ∧
      Reflects limit records ((empty ⟨limit, none⟩).restore records now).state := by
  obtain ⟨hanswer, hstate⟩ := restore_of_climbs (s := empty ⟨limit, none⟩) h hids now
  have hretention : ((empty ⟨limit, none⟩).acceptAll records).retention = ⟨limit, none⟩ :=
    retention_acceptAll _ records
  refine ⟨hanswer, ⟨[.restore records now], rfl⟩, ?_, ?_, ?_⟩
  · rw [hstate]
    exact hretention
  · rw [hstate, toList_enforce_of_ageless hretention, toList_acceptAll]
    rfl
  · rw [hstate]
    exact nextId_acceptAll _ records

/-- A store that reflects the newest of some records, and passes the id of the last of them,
reflects them all. -/
theorem Reflects.resumeAfter {s : Store}
    (h : Reflects limit ((⟨limit, none⟩ : Retention).newest records) s) {last : Record}
    (hlast : records.getLast? = some last) (hid : last.id ≠ lastId) :
    Reflects limit records (s.resumeAfter last.id).state := by
  obtain ⟨calls, hcalls⟩ := h.reachable
  have hreachable : (s.resumeAfter last.id).state =
      (Store.empty ⟨limit, none⟩).run (calls ++ [.resumeAfter last.id]) := by
    rw [run_append, ← hcalls]
    rfl
  rw [(resumeAfter_of_ne hid).2] at hreachable ⊢
  refine ⟨⟨_, hreachable⟩, h.retention, ?_, ?_⟩
  · exact h.window.trans (Retention.newest_newest _ records)
  · show max s.nextId (last.id + 1) = idAfter records
    rw [h.nextId]
    exact max_idAfter_newest hlast

/-- **Filling from an archive**: if an archive knows the highest id of some records and gives the
newest of them back, an empty store that is filled from it reflects all of them. -/
theorem restoreFrom_reflects {a : Archive} {unreadable : List Notice} (h : Climbs 1 records)
    (hids : ∀ r ∈ records, r.id ≠ lastId)
    (hhighest : a.maxId = .ok (records.getLast?.map Record.id))
    (hloaded : a.loadRecent limit =
      .ok ((⟨limit, none⟩ : Retention).newest records, unreadable)) (now : Instant) :
    let step := (empty ⟨limit, none⟩).restoreFrom a limit now
    step.answer = .ok ((⟨limit, none⟩ : Retention).newest records).length ∧
      Reflects limit records step.state := by
  have hsuffix := (⟨limit, none⟩ : Retention).newest_suffix records
  have hclimbs : Climbs 1 ((⟨limit, none⟩ : Retention).newest records) :=
    ⟨h.ordered.sublist hsuffix.sublist, fun r hr => h.start r (hsuffix.mem hr)⟩
  obtain ⟨hanswer, hnewest⟩ :=
    reflects_restore limit hclimbs (fun r hr => hids r (hsuffix.mem hr)) now
  unfold restoreFrom
  rw [hhighest, hloaded]
  dsimp only
  rw [hanswer]
  cases hlast : records.getLast? with
  | none =>
    have hall : (⟨limit, none⟩ : Retention).newest records = records := by
      rw [List.getLast?_eq_none_iff.mp hlast]
      exact List.drop_nil
    rw [hall] at hnewest ⊢
    exact ⟨rfl, hnewest⟩
  | some last =>
    have hid : last.id ≠ lastId := hids last (List.mem_of_getLast? hlast)
    dsimp only [Option.map_some]
    rw [(resumeAfter_of_ne hid).1]
    exact ⟨rfl, hnewest.resumeAfter hlast hid⟩

end Filling

/-! ### What can be asked -/

/-- Two stores hold the same records and answer alike.  Of the statistics that are always at hand
the mean is left out: its sum depends on the records that have left, too. -/
structure Alike (s t : Store) : Prop where
  window : t.window = s.window
  get? : ∀ id, t.get? id = s.get? id
  ofOrder : ∀ orderId, t.ofOrder orderId = s.ofOrder orderId
  recent : ∀ limit, t.recent limit = s.recent limit
  detailedStats : t.detailedStats = s.detailedStats
  stats : ∃ a b : Stats, s.stats.answer = .ok a ∧ t.stats.answer = .ok b ∧
    b.totalOrders = a.totalOrders ∧ b.failedOrders = a.failedOrders ∧ b.p99Rtt = a.p99Rtt
  nextId : t.nextId = s.nextId
  insert : ∀ d now, (t.insert d now).answer = (s.insert d now).answer

/-- Whether an insertion succeeds, and with which record, is up to the draft and the next id. -/
theorem insert_answer_eq {s t : Store} (h : t.nextId = s.nextId) (d : Draft) (now : Instant) :
    (t.insert d now).answer = (s.insert d now).answer := by
  unfold Store.insert
  rw [h]
  cases d.latencies.fault? with
  | some f => rfl
  | none =>
    dsimp only
    split_ifs <;> rfl

/-- **Stores that reflect the same records answer alike.** -/
theorem Reflects.alike {limit : Nat} {records : List Record} {s t : Store}
    (hs : s.Reflects limit records) (ht : t.Reflects limit records) : Alike s t := by
  have hlist : t.window.toList = s.window.toList := ht.window.trans hs.window.symm
  have hwindow : t.window = s.window := Array.toList_inj.mp hlist
  have hnextId : t.nextId = s.nextId := ht.nextId.trans hs.nextId.symm
  refine ⟨hwindow, ?_, ?_, ?_, ?_, ?_, hnextId, insert_answer_eq hnextId⟩
  · intro id
    unfold get?
    rw [hwindow]
  · intro orderId
    rw [ht.indexed.ofOrder, hs.indexed.ofOrder, hlist]
  · intro limit
    unfold recent
    rw [hwindow]
  · unfold detailedStats
    rw [hlist]
  · refine ⟨_, _, hs.accounted.stats, ht.accounted.stats, ?_, ?_, ?_⟩
    · show t.totals.count = s.totals.count
      rw [ht.accounted.totals.count, hs.accounted.totals.count, hlist]
    · show t.totals.failed = s.totals.failed
      rw [ht.accounted.totals.failed, hs.accounted.totals.failed, hlist]
    · show Percentile.ninetyNinth t.rtts = Percentile.ninetyNinth s.rtts
      unfold rtts
      rw [hlist]

end Store

end OrderTelemetry
