import OrderTelemetry.Proofs.Store.Ids

/-! # Calls that fail

A call fails because of the latencies of a draft, or because an id would need more than sixty-four
bits.  An insertion and the passing of an id look for that before they change anything, and leave
the store as it is.  Records are restored one after the other, in the order of their ids, and the
last id is found out only when its turn comes: the records before it are in the window by then, and
nothing brings the window within its bounds.

* `Store.fails`, `Store.Hopeless`: whether a call fails, and why it does.
* `Call.Numbered`: a call whose ids have sixty-four bits.
* `Store.ids_accepted`: which ids get into the window.
* `Store.after_failure`: what a call that fails leaves behind. -/

namespace OrderTelemetry

/-- The ids of a call have sixty-four bits. -/
def Call.Numbered : Call → Prop
  | .restore records _ => ∀ r ∈ records, r.id ≤ Store.lastId
  | .resumeAfter id => id ≤ Store.lastId
  | _ => True

instance : DecidablePred Call.Numbered
  | .insert _ _ => isTrue trivial
  | .restore records _ => inferInstanceAs (Decidable (∀ r ∈ records, r.id ≤ Store.lastId))
  | .resumeAfter id => inferInstanceAs (Decidable (id ≤ Store.lastId))
  | .evictExpired _ => isTrue trivial
  | .stats => isTrue trivial

namespace Store

variable {s : Store} {records : List Record}

/-- Whether a call fails. -/
def fails (s : Store) : Call → Bool
  | .insert d now => !(s.insert d now).answer.isOk
  | .restore records now => !(s.restore records now).answer.isOk
  | .resumeAfter id => !(s.resumeAfter id).answer.isOk
  | _ => false

/-- There is something about a call that the store cannot do. -/
def Hopeless (s : Store) : Call → Prop
  | .insert d _ => d.latencies.fault?.isSome = true ∨ s.nextId = lastId
  | .restore records _ => ∃ r ∈ records, r.id = lastId
  | .resumeAfter id => id = lastId
  | _ => False

/-! ### The next id has sixty-four bits -/

theorem ne_lastId_of_mem_accepted {r : Record} {next : Nat} (h : r ∈ accepted next records) :
    r.id ≠ lastId := by
  induction records generalizing next with
  | nil => simp [accepted] at h
  | cons first rest ih =>
    unfold accepted at h
    split_ifs at h with hlow hlast
    · exact ih h
    · simp at h
    · rcases List.mem_cons.mp h with rfl | h
      · exact hlast
      · exact ih h

theorem nextId_acceptAll_le {bound : Nat} (hs : s.nextId ≤ bound)
    (hrecords : ∀ r ∈ records, r.id < bound) : (s.acceptAll records).nextId ≤ bound := by
  induction records generalizing s with
  | nil => exact hs
  | cons r rest ih =>
    rw [List.forall_mem_cons] at hrecords
    exact ih (s := s.accept r) hrecords.1 hrecords.2

theorem insert_of_fault {d : Draft} {f : Fault} (hd : d.latencies.fault? = some f)
    (now : Instant) : s.insert d now = { answer := .error (.fault f), state := s } := by
  unfold insert
  rw [hd]

/-- An insertion fails because of a latency, or because no id is left. -/
theorem isOk_insert (s : Store) (d : Draft) (now : Instant) :
    (s.insert d now).answer.isOk = true ↔ d.latencies.fault? = none ∧ s.nextId ≠ lastId := by
  cases hfault : d.latencies.fault? with
  | some f =>
    rw [insert_of_fault hfault]
    simp [Except.isOk, Except.toBool]
  | none =>
    by_cases hid : s.nextId = lastId
    · rw [(insert_of_exhausted hfault hid now).1]
      simp [Except.isOk, Except.toBool, hid]
    · rw [(insert_of_sound hfault hid now).1]
      simp [Except.isOk, Except.toBool, hid]

theorem nextId_after_le {c : Call} (hc : c.Numbered) (hs : s.nextId ≤ lastId) :
    (s.after c).nextId ≤ lastId := by
  cases c with
  | insert d now =>
    rcases s.insert_cases d now with ⟨e, -, hstate⟩ | ⟨hanswer, hstate⟩
    · rw [after, hstate]
      exact hs
    · have hid := ((s.isOk_insert d now).mp (by rw [hanswer]; rfl)).2
      rw [after, hstate]
      show s.nextId + 1 ≤ lastId
      omega
  | restore records now =>
    have hpushed : ∀ r ∈ s.pushed (.restore records now), r.id < lastId := by
      intro r hr
      have hle : r.id ≤ lastId := hc r (List.mem_mergeSort.mp (mem_of_mem_accepted hr))
      have hne := ne_lastId_of_mem_accepted hr
      omega
    have hle := nextId_acceptAll_le hs hpushed
    rcases s.restore_cases records now with ⟨-, hstate⟩ | ⟨-, hstate⟩
    · rw [after, hstate]; exact hle
    · rw [after, hstate]; exact hle
  | resumeAfter id =>
    have hid : id ≤ lastId := hc
    show (s.resumeAfter id).state.nextId ≤ lastId
    unfold resumeAfter
    split_ifs with hlow hlast
    · exact hs
    · exact hs
    · show id + 1 ≤ lastId
      omega
  | evictExpired now =>
    show (s.evictExpired now).2.nextId ≤ lastId
    unfold evictExpired
    split_ifs
    · exact hs
    · exact hs
  | stats => exact hs

theorem nextId_run_le (p : Retention) {calls : List Call} (hcalls : ∀ c ∈ calls, c.Numbered) :
    ((empty p).run calls).nextId ≤ lastId := by
  have hrun : ∀ s : Store, s.nextId ≤ lastId → (s.run calls).nextId ≤ lastId := by
    induction calls with
    | nil => exact fun s hs => hs
    | cons c rest ih =>
      rw [List.forall_mem_cons] at hcalls
      exact fun s hs => ih hcalls.2 _ (nextId_after_le hcalls.1 hs)
  exact hrun _ (show 1 ≤ lastId by decide)

/-! ### Why a call fails -/

/-- Nothing can follow the last id, wherever in the list it is. -/
theorem isOk_readmitAll (hs : s.nextId ≤ lastId) (hrecords : ∀ r ∈ records, r.id ≤ lastId) :
    (s.readmitAll records).isOk = false ↔ ∃ r ∈ records, r.id = lastId := by
  induction records generalizing s with
  | nil => simp [readmitAll, Except.isOk, Except.toBool]
  | cons r rest ih =>
    rw [List.forall_mem_cons] at hrecords
    rw [List.exists_mem_cons_iff]
    unfold readmitAll readmit
    split_ifs with hlow hlast
    · rw [or_iff_right (by omega)]
      exact ih hs hrecords.2
    · exact iff_of_true rfl (.inl hlast)
    · rw [or_iff_right hlast]
      exact ih (s := s.accept r) (by rw [nextId_accept]; omega) hrecords.2

theorem fails_restore (hs : s.nextId ≤ lastId) (hrecords : ∀ r ∈ records, r.id ≤ lastId)
    (now : Instant) :
    s.fails (.restore records now) = true ↔ ∃ r ∈ records, r.id = lastId := by
  have hsorted := @isOk_readmitAll s (records.mergeSort fun a b => decide (a.id ≤ b.id)) hs
    fun r hr => hrecords r (List.mem_mergeSort.mp hr)
  simp only [List.mem_mergeSort] at hsorted
  rw [← hsorted, fails, Bool.not_eq_true']
  unfold restore
  cases s.readmitAll _ with
  | ok t => exact Iff.rfl
  | error t => exact Iff.rfl

theorem fails_iff {c : Call} (hs : s.nextId ≤ lastId) (hc : c.Numbered) :
    s.fails c = true ↔ s.Hopeless c := by
  cases c with
  | insert d now =>
    show (!(s.insert d now).answer.isOk) = true ↔ _ ∨ _
    rw [Bool.not_eq_true', ← Bool.not_eq_true, isOk_insert, not_and_or, not_not,
      Option.isSome_iff_ne_none]
  | restore records now => exact fails_restore hs hc now
  | resumeAfter id =>
    have hid : id ≤ lastId := hc
    show (!(s.resumeAfter id).answer.isOk) = true ↔ id = lastId
    unfold resumeAfter
    split_ifs with hlow hlast
    · exact iff_of_false Bool.false_ne_true (by omega)
    · exact iff_of_true rfl hlast
    · exact iff_of_false Bool.false_ne_true hlast
  | evictExpired now => exact iff_of_false Bool.false_ne_true id
  | stats => exact iff_of_false Bool.false_ne_true id

/-! ### What a call that fails leaves -/

/-- The ids of the records that get into the window: those that are not passed, short of the
last. -/
theorem ids_accepted {next : Nat} (hordered : records.Pairwise fun a b => a.id ≤ b.id)
    (hrecords : ∀ r ∈ records, r.id ≤ lastId) (id : Nat) :
    (∃ r ∈ accepted next records, r.id = id) ↔
      next ≤ id ∧ id < lastId ∧ ∃ r ∈ records, r.id = id := by
  induction records generalizing next with
  | nil => simp [accepted]
  | cons first rest ih =>
    obtain ⟨hfirst, hordered⟩ := List.pairwise_cons.mp hordered
    rw [List.forall_mem_cons] at hrecords
    rw [List.exists_mem_cons_iff]
    unfold accepted
    split_ifs with hlow hlast
    · rw [ih hordered hrecords.2]
      constructor
      · rintro ⟨hnext, hid, hmem⟩
        exact ⟨hnext, hid, .inr hmem⟩
      · rintro ⟨hnext, hid, rfl | hmem⟩
        · omega
        · exact ⟨hnext, hid, hmem⟩
    · -- all that come later have the last id, too
      refine iff_of_false (by simp) ?_
      rintro ⟨-, hid, rfl | ⟨r, hr, rfl⟩⟩
      · omega
      · have := hfirst r hr
        omega
    · rw [List.exists_mem_cons_iff, ih hordered hrecords.2]
      constructor
      · rintro (rfl | ⟨hnext, hid, hmem⟩)
        · exact ⟨by omega, by omega, .inl rfl⟩
        · exact ⟨by omega, hid, .inr hmem⟩
      · rintro ⟨hnext, hid, heq | ⟨r, hr, rfl⟩⟩
        · exact .inl heq
        · by_cases hsame : first.id = r.id
          · exact .inl hsame
          · have := hfirst r hr
            exact .inr ⟨by omega, hid, r, hr, rfl⟩

theorem idOrder_trans (a b c : Record) (hab : decide (a.id ≤ b.id) = true)
    (hbc : decide (b.id ≤ c.id) = true) : decide (a.id ≤ c.id) = true := by
  simp only [decide_eq_true_eq] at hab hbc ⊢
  omega

theorem idOrder_total (a b : Record) : (decide (a.id ≤ b.id) || decide (b.id ≤ a.id)) = true := by
  simp only [Bool.or_eq_true, decide_eq_true_eq]
  omega

theorem pairwise_sorted (records : List Record) :
    (records.mergeSort fun a b => decide (a.id ≤ b.id)).Pairwise fun a b => a.id ≤ b.id :=
  (List.pairwise_mergeSort idOrder_trans idOrder_total records).imp of_decide_eq_true

/-- A call that fails leaves the records that it has appended, and does nothing else. -/
theorem after_of_fails {c : Call} (h : s.fails c = true) :
    s.after c = s.acceptAll (s.pushed c) := by
  cases c with
  | insert d now =>
    rcases s.insert_cases d now with ⟨e, hanswer, hstate⟩ | ⟨hanswer, -⟩
    · simp only [after, pushed, hanswer, hstate, acceptAll_nil]
    · simp [fails, hanswer, Except.isOk, Except.toBool] at h
  | restore records now =>
    rcases s.restore_cases records now with ⟨hanswer, -⟩ | ⟨-, hstate⟩
    · simp [fails, hanswer] at h
    · exact hstate
  | resumeAfter id =>
    have h : (!(s.resumeAfter id).answer.isOk) = true := h
    show (s.resumeAfter id).state = s
    unfold resumeAfter at h ⊢
    split_ifs at h ⊢ with hlow hlast
    · cases h
    · rfl
    · cases h
  | evictExpired now => cases h
  | stats => cases h

/-- Only restoring gets records into the window before it fails. -/
theorem pushed_of_fails {c : Call} (h : s.fails c = true)
    (hother : ∀ records now, c ≠ .restore records now) : s.pushed c = [] := by
  cases c with
  | restore records now => exact absurd rfl (hother records now)
  | insert d now =>
    rcases s.insert_cases d now with ⟨e, hanswer, -⟩ | ⟨hanswer, -⟩
    · simp only [pushed, hanswer]
    · simp [fails, hanswer, Except.isOk, Except.toBool] at h
  | resumeAfter id => rfl
  | evictExpired now => rfl
  | stats => rfl

theorem acceptAll_eq_self_iff : s.acceptAll records = s ↔ records = [] := by
  constructor
  · intro h
    have hsize := s.size_acceptAll records
    rw [h] at hsize
    exact List.eq_nil_of_length_eq_zero (by omega)
  · rintro rfl
    rfl

section Restoring
variable (hrecords : ∀ r ∈ records, r.id ≤ lastId) (now : Instant)
include hrecords

theorem ids_pushed_restore (id : Nat) :
    (∃ r ∈ s.pushed (.restore records now), r.id = id) ↔
      s.nextId ≤ id ∧ id < lastId ∧ ∃ r ∈ records, r.id = id := by
  have haccepted := @ids_accepted _ s.nextId (pairwise_sorted records)
    (fun r hr => hrecords r (List.mem_mergeSort.mp hr)) id
  simp only [List.mem_mergeSort] at haccepted
  exact haccepted

/-- Restoring gets nothing into the window if nothing but the last id is left to restore. -/
theorem pushed_restore_eq_nil_iff :
    s.pushed (.restore records now) = [] ↔ ∀ r ∈ records, r.id < s.nextId ∨ r.id = lastId := by
  have hids := @ids_pushed_restore s records hrecords now
  constructor
  · intro hnone r hr
    by_contra hpassed
    push Not at hpassed
    have hle := hrecords r hr
    obtain ⟨a, ha, -⟩ := (hids r.id).mpr ⟨by omega, by omega, r, hr, rfl⟩
    rw [hnone] at ha
    cases ha
  · intro hpassed
    refine List.eq_nil_iff_forall_not_mem.mpr fun a ha => ?_
    obtain ⟨hnext, hlast, r, hr, hid⟩ := (hids a.id).mp ⟨a, ha, rfl⟩
    rcases hpassed r hr with h | h <;> omega

end Restoring

theorem retention_run (p : Retention) (calls : List Call) :
    ((empty p).run calls).retention = p := by
  refine run_induction (I := fun s => s.retention = p) rfl (fun s t h hs => ?_) calls
  cases h <;> exact hs

/-- A sweep leaves no more records than there may be. -/
theorem size_enforce_le (s : Store) (now : Instant) :
    (s.enforce now).window.size ≤ s.retention.maxRecords := by
  have hlength : (s.enforce now).window.toList.length =
      s.window.size - (s.excess + s.staleFrom now s.excess) := by
    unfold enforce surplus
    rw [toList_evict, List.length_drop, Array.length_toList]
  rw [Array.length_toList] at hlength
  unfold excess at hlength
  omega

/-- **What a call that fails leaves behind.**  After every run, a call whose ids have sixty-four
bits fails because of the latencies of a draft or because of the last id.  An insertion that fails
and an id that cannot be passed leave the store as it is.  A list of records that cannot be restored
does so only if the ids of all of its records but the last id are passed already.  Otherwise those
of its records that are not are appended, each id once and in ascending order, and the next id is
passed on, and the window may be larger than allowed until the next sweep. -/
theorem after_failure (p : Retention) {calls : List Call} (hcalls : ∀ c ∈ calls, c.Numbered)
    {c : Call} (hc : c.Numbered) :
    let s := (empty p).run calls
    let t := s.after c
    (s.fails c = true ↔ s.Hopeless c) ∧
      (s.fails c = true → (∀ records now, c ≠ .restore records now) → t = s) ∧
      ∀ records now, c = .restore records now → s.fails c = true →
        let kept := s.pushed c
        t = s.acceptAll kept ∧ t.window.toList = s.window.toList ++ kept ∧
          Climbs s.nextId kept ∧ (∀ r ∈ kept, r ∈ records) ∧
          (∀ id, (∃ r ∈ kept, r.id = id) ↔
            s.nextId ≤ id ∧ id < lastId ∧ ∃ r ∈ records, r.id = id) ∧
          (t = s ↔ ∀ r ∈ records, r.id < s.nextId ∨ r.id = lastId) ∧
          (t.window.size ≤ p.maxRecords ↔ s.window.size + kept.length ≤ p.maxRecords) ∧
          ∀ later, (t.enforce later).window.size ≤ p.maxRecords := by
  intro s t
  have hs : s.nextId ≤ lastId := nextId_run_le p hcalls
  refine ⟨fails_iff hs hc, fun hfails hother => ?_, ?_⟩
  · have ht : t = s.acceptAll (s.pushed c) := after_of_fails hfails
    rw [ht, pushed_of_fails hfails hother, acceptAll_nil]
  · rintro records now rfl hfails kept
    have ht : t = s.acceptAll kept := after_of_fails hfails
    have hrecords : ∀ r ∈ records, r.id ≤ lastId := hc
    have hunchanged : t = s ↔ kept = [] := by rw [ht, acceptAll_eq_self_iff]
    have hsize : t.window.size = s.window.size + kept.length := by rw [ht, size_acceptAll]
    have hretention : t.retention = p := by
      rw [ht, retention_acceptAll]
      exact retention_run p calls
    refine ⟨ht, by rw [ht, toList_acceptAll], s.pushed_climbs _,
      fun r hr => List.mem_mergeSort.mp (mem_of_mem_accepted hr),
      ids_pushed_restore hrecords now, hunchanged.trans (pushed_restore_eq_nil_iff hrecords now),
      by rw [hsize], fun later => ?_⟩
    rw [← hretention]
    exact t.size_enforce_le later

/-- Records to restore of which the last one has the last id. -/
def tooMany : List Record :=
  [(roundTrip 1.0).withId 1, (roundTrip 2.0).withId 2, (roundTrip 3.0).withId lastId]

/-- **A list of records that cannot be restored need not leave the store as it is.**  Two of three
records get into a window of one. -/
theorem after_failure_restore :
    let s := empty ⟨1, none⟩
    let c : Call := .restore tooMany ⟨100, 0⟩
    c.Numbered ∧ s.fails c = true ∧ s.after c ≠ s ∧
      (s.after c).window.toList = tooMany.take 2 ∧ (s.after c).nextId = 3 ∧
      (s.after c).generation = 2 ∧ ¬ (s.after c).window.size ≤ 1 := by
  intro s c
  have hc : c.Numbered := by decide +kernel
  have hkept : s.pushed c = tooMany.take 2 := by
    have hsorted : (tooMany.mergeSort fun a b => decide (a.id ≤ b.id)) = tooMany :=
      List.mergeSort_of_pairwise (by decide +kernel)
    show accepted 1 (tooMany.mergeSort _) = _
    rw [hsorted]
    decide +kernel
  obtain ⟨hfails, -, hrestore⟩ := @after_failure ⟨1, none⟩ [] (by simp) c hc
  have hfailed : s.fails c = true :=
    hfails.mpr ⟨(roundTrip 3.0).withId lastId, by simp [tooMany], rfl⟩
  obtain ⟨hafter, -, -, -, -, hsame, -, -⟩ := hrestore _ _ rfl hfailed
  have hafter : s.after c = s.acceptAll (tooMany.take 2) := by rw [← hkept]; exact hafter
  refine ⟨hc, hfailed, ?_, ?_, by rw [hafter]; rfl, by rw [hafter]; rfl, ?_⟩
  · exact fun heq => absurd (hsame.mp heq) (by decide +kernel)
  · rw [hafter, toList_acceptAll]
    rfl
  · rw [hafter]
    decide +kernel

end Store

end OrderTelemetry
