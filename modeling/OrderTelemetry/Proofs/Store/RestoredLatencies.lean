import OrderTelemetry.Archive.Row
import OrderTelemetry.Proofs.Gateway.Admission
import OrderTelemetry.Proofs.Store.Restoring
import OrderTelemetry.Proofs.Store.Statistics
import OrderTelemetry.Proofs.Store.Window

/-! # The latencies of restored records

An insertion refuses a draft unless its latencies are sound, which is to say finite numbers from
zero on.  Nothing of that kind happens to records that are restored: which of them are taken depends
on their ids, and which of them stay depends on their times and their number.  So other latencies in
their place would be retained just so (`Store.restore_remeasured`), and a window with sound
latencies stays so if those of the restored records are sound (`Store.sound_run`), but not in any
other case (`Store.sound_restore_iff`). -/

namespace OrderTelemetry

/-! ### Other latencies -/

/-- The latencies that an insertion takes. -/
def Latencies.Sound (l : Latencies) : Prop := ∀ x ∈ l.values, x.isFinite = true ∧ ¬ x < 0.0

/-- The record with other latencies. -/
def Record.remeasured (measured : Record → Latencies) (r : Record) : Record :=
  { r with latencies := measured r }

/-- A row that is a record is one with any latencies. -/
theorem Row.toRecord_remeasured (row : Row) (l : Latencies) :
    ({ row with latencies := l } : Row).toRecord =
      row.toRecord.map (Record.remeasured fun _ => l) := by
  unfold toRecord
  dsimp only
  cases Instant.ofMillis? row.timestampMs with
  | none => rfl
  | some timestamp =>
    dsimp only
    split_ifs
    · rfl
    · cases OrderStatus.ofText? row.status <;> simp only [Except.map, Record.remeasured]

namespace Store

variable {s : Store} {records : List Record}

theorem isOk_insert_iff_sound (hid : s.nextId ≠ lastId) (d : Draft) (now : Instant) :
    (s.insert d now).answer.isOk = true ↔ d.latencies.Sound := by
  rw [s.isOk_insert, and_iff_left hid]
  exact Latencies.fault?_eq_none_iff

/-! ### What restoring looks at -/

section Map
variable {f : Record → Record} (hids : ∀ r, (f r).id = r.id)
include hids

/-- Which records are taken is a matter of their ids. -/
theorem accepted_map (records : List Record) (next : Nat) :
    accepted next (records.map f) = (accepted next records).map f := by
  induction records generalizing next with
  | nil => rfl
  | cons r rest ih =>
    rw [List.map_cons]
    unfold accepted
    rw [hids]
    split_ifs
    · exact ih next
    · rfl
    · rw [List.map_cons, ih]

theorem sorted_map (records : List Record) : sorted (records.map f) = (sorted records).map f := by
  refine (List.map_mergeSort fun a _ b _ => ?_).symm
  rw [hids, hids]

theorem pushed_restore_map (s : Store) (records : List Record) (now : Instant) :
    s.pushed (.restore (records.map f) now) = (s.pushed (.restore records now)).map f := by
  show accepted s.nextId (sorted (records.map f)) = (accepted s.nextId (sorted records)).map f
  rw [sorted_map hids, accepted_map hids]

/-- So is whether restoring fails. -/
theorem isOk_readmitAll_map {t : Store} (h : s.nextId = t.nextId) (records : List Record) :
    (s.readmitAll (records.map f)).isOk = (t.readmitAll records).isOk := by
  induction records generalizing s t with
  | nil => rfl
  | cons r rest ih =>
    rw [List.map_cons]
    unfold readmitAll readmit
    rw [hids, h]
    split_ifs
    · exact ih h
    · rfl
    · exact ih rfl

theorem isOk_restore_map (s : Store) (records : List Record) (now : Instant) :
    (s.restore (records.map f) now).answer.isOk = (s.restore records now).answer.isOk := by
  have hsame := isOk_readmitAll_map hids (rfl : s.nextId = s.nextId) (sorted records)
  rw [← sorted_map hids] at hsame
  have hanswer : ∀ list now, (s.restore list now).answer.isOk =
      (s.readmitAll (sorted list)).isOk := by
    intro list now
    unfold restore
    show _ = (s.readmitAll (list.mergeSort _)).isOk
    cases s.readmitAll (list.mergeSort fun a b => decide (a.id ≤ b.id)) <;> rfl
  rw [hanswer, hanswer, hsame]

end Map

/-- How many records have to go is a matter of the bounds, their times and their number. -/
theorem surplus_congr {t : Store} (hretention : s.retention = t.retention)
    (htimes : s.window.toList.map (·.timestamp) = t.window.toList.map (·.timestamp))
    (now : Instant) : s.surplus now = t.surplus now := by
  have hlength : s.window.size = t.window.size := by
    simpa using congrArg List.length htimes
  have hexcess : s.excess = t.excess := by
    unfold excess
    rw [hlength, hretention]
  have hcount : ∀ (limit : Instant) (start : Nat) (u : Store),
      countBefore u.window limit start =
        (((u.window.toList.map (·.timestamp)).drop start).takeWhile (·.before limit)).length := by
    intro limit start u
    rw [countBefore_eq, ← List.map_drop, List.takeWhile_map, List.length_map]
    rfl
  unfold surplus staleFrom
  rw [hexcess, hretention]
  cases t.retention.cutoff now with
  | none => rfl
  | some limit =>
    dsimp only
    rw [hcount, hcount, htimes]

/-- **Restoring takes no notice of latencies.**  Whatever they are, as many records leave the window
at its front, and the taken ones enter it as they are. -/
theorem restore_remeasured (s : Store) (records : List Record) (now : Instant) :
    ∃ gone, ∀ measured : Record → Latencies,
      (s.restore (records.map (Record.remeasured measured)) now).state.window.toList =
        (s.window.toList ++
          (s.pushed (.restore records now)).map (Record.remeasured measured)).drop gone := by
  have hids : ∀ (measured : Record → Latencies) r, (Record.remeasured measured r).id = r.id :=
    fun _ _ => rfl
  let taken := s.pushed (.restore records now)
  refine ⟨if (s.restore records now).answer.isOk then (s.acceptAll taken).surplus now else 0,
    fun measured => ?_⟩
  have hpushed := pushed_restore_map (hids measured) s records now
  have hok := isOk_restore_map (hids measured) s records now
  have hcases := s.restore_cases (records.map (Record.remeasured measured)) now
  rw [hpushed] at hcases
  rcases hcases with ⟨hanswer, hstate⟩ | ⟨hanswer, hstate⟩
  · have hsurplus : (s.acceptAll (taken.map (Record.remeasured measured))).surplus now =
        (s.acceptAll taken).surplus now := by
      refine surplus_congr (by simp) ?_ now
      simp [Function.comp_def, Record.remeasured]
    rw [hstate, if_pos (hok ▸ hanswer), enforce, toList_evict, toList_acceptAll]
    exact congrArg (List.drop · _) hsurplus
  · rw [hanswer] at hok
    rw [hstate, if_neg (by rw [← hok]; exact Bool.false_ne_true), toList_acceptAll, List.drop_zero]

/-! ### Sound windows -/

theorem sound_after {c : Call} (hs : ∀ r ∈ s.window.toList, r.latencies.Sound)
    (hpushed : ∀ r ∈ s.pushed c, r.latencies.Sound) :
    ∀ r ∈ (s.after c).window.toList, r.latencies.Sound := by
  obtain ⟨gone, hconserved, -⟩ := s.after_conserves c
  have hall := List.forall_mem_append.mpr ⟨hs, hpushed⟩
  rw [hconserved] at hall
  exact (List.forall_mem_append.mp hall).2

/-- Only what is restored may bring other latencies into a store. -/
theorem sound_pushed {c : Call}
    (hc : ∀ records now, c = .restore records now → ∀ r ∈ records, r.latencies.Sound) :
    ∀ r ∈ s.pushed c, r.latencies.Sound := by
  intro r hr
  cases c with
  | insert d now =>
    rcases s.insert_cases d now with ⟨e, hanswer, -⟩ | ⟨hanswer, -⟩
    · simp [pushed, hanswer] at hr
    · simp only [pushed, hanswer, List.mem_singleton] at hr
      have hfault := ((s.isOk_insert d now).mp (by rw [hanswer]; rfl)).1
      rw [hr]
      exact Latencies.fault?_eq_none_iff.mp hfault
  | restore records now => exact hc records now rfl r (mem_sorted.mp (mem_of_mem_accepted hr))
  | resumeAfter id => simp [pushed] at hr
  | evictExpired now => simp [pushed] at hr
  | stats => simp [pushed] at hr

/-- Whatever is called, the latencies in a window are sound if those of all restored records are. -/
theorem sound_run (p : Retention) {calls : List Call}
    (hcalls : ∀ records now, .restore records now ∈ calls → ∀ r ∈ records, r.latencies.Sound) :
    ∀ r ∈ ((empty p).run calls).window.toList, r.latencies.Sound := by
  have hrun : ∀ s : Store, (∀ r ∈ s.window.toList, r.latencies.Sound) →
      ∀ r ∈ (s.run calls).window.toList, r.latencies.Sound := by
    induction calls with
    | nil => exact fun s hs => hs
    | cons c rest ih =>
      intro s hs
      refine ih (fun records now hmem => hcalls records now (List.mem_cons_of_mem _ hmem)) _ ?_
      exact sound_after hs (sound_pushed fun records now heq =>
        hcalls records now (heq ▸ List.mem_cons_self))
  exact hrun _ fun r hr => by simp [empty] at hr

/-- **Restoring lets in what an insertion refuses.**  While there are ids an insertion stores a draft
just if its latencies are sound.  Restoring keeps a window sound if the records that it takes are.
But it takes as many, and retains as many, whatever latencies are measured for them, so after that
the window is sound just if what is retained is so of itself.  Nor are the latencies of a row looked
at when it is read as a record. -/
theorem sound_restore_iff (s : Store) (records : List Record) (now : Instant) :
    let taken := s.pushed (.restore records now)
    (∀ d later, s.nextId ≠ lastId →
      ((s.insert d later).answer.isOk = true ↔ d.latencies.Sound)) ∧
      ((∀ r ∈ s.window.toList ++ taken, r.latencies.Sound) →
        ∀ r ∈ (s.restore records now).state.window.toList, r.latencies.Sound) ∧
      (∃ gone, ∀ measured : Record → Latencies,
        let t := (s.restore (records.map (Record.remeasured measured)) now).state
        t.window.toList =
            (s.window.toList ++ taken.map (Record.remeasured measured)).drop gone ∧
          ((∀ r ∈ t.window.toList, r.latencies.Sound) ↔
            (∀ r ∈ s.window.toList.drop gone, r.latencies.Sound) ∧
              ∀ r ∈ taken.drop (gone - s.size), (measured r).Sound)) ∧
      ∀ (row : Row) (l : Latencies), ({ row with latencies := l } : Row).toRecord =
        row.toRecord.map (Record.remeasured fun _ => l) := by
  intro taken
  refine ⟨fun d later hid => isOk_insert_iff_sound hid d later, fun hall => ?_, ?_,
    Row.toRecord_remeasured⟩
  · obtain ⟨hs, htaken⟩ := List.forall_mem_append.mp hall
    exact sound_after (c := .restore records now) hs htaken
  · obtain ⟨gone, hgone⟩ := s.restore_remeasured records now
    refine ⟨gone, fun measured => ⟨hgone measured, ?_⟩⟩
    have hsplit := hgone measured
    rw [List.drop_append, ← List.map_drop, Array.length_toList] at hsplit
    rw [hsplit, List.forall_mem_append, List.forall_mem_map]
    exact Iff.rfl

/-- A record whose round trip took less than no time is refused by an insertion and restored all the
same. -/
theorem sound_restore_iff_negative :
    let s := empty ⟨10, none⟩
    let late := (roundTrip (-1.0)).withId 1
    ¬ late.latencies.Sound ∧ (s.insert late.toDraft ⟨100, 0⟩).answer.isOk = false ∧
      (s.restore [late] ⟨100, 0⟩).state.window.toList = [late] := by
  intro s late
  have hunsound : ¬ late.latencies.Sound := by
    unfold Latencies.Sound
    decide +kernel
  have hinsert := (sound_restore_iff s [late] ⟨100, 0⟩).1 late.toDraft ⟨100, 0⟩ (by decide)
  have hsorted : sorted [late] = [late] := List.mergeSort_singleton late
  have htaken : s.pushed (.restore [late] ⟨100, 0⟩) = [late] := by
    show accepted 1 (sorted [late]) = _
    rw [hsorted]
    decide +kernel
  refine ⟨hunsound, Bool.eq_false_iff.mpr (mt hinsert.mp hunsound), ?_⟩
  rw [(s.restore_of_lt (by decide +kernel) ⟨100, 0⟩).2, htaken]
  decide +kernel

end Store

end OrderTelemetry
