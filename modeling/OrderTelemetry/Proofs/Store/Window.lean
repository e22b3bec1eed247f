import Mathlib.Data.List.TakeWhile
import OrderTelemetry.Proofs.Calendar.Earlier
import OrderTelemetry.Proofs.Store.Run

/-! # The retained window

Records leave a window for two reasons: there are too many of them, or they are too old.  Both take
records off the front only, and a sweep for one reason changes what the next one for the other
reason finds.

* `Retention.kept`: what both bounds leave of a list of records, each applied once.
* `Store.toList_enforce`: bringing a window within its bounds leaves just that.
* `Store.Tracks`: what a run of sweeps leaves of all records ever appended.  The newest records are
  those that went because of their age at some sweep, and then the window.
* `Store.window_after_run`: after every call the window is a suffix of all records ever appended,
  and a sweep that is not in the past leaves what both bounds leave of all these records. -/

namespace OrderTelemetry

/-! ### What the bounds leave of a list -/

namespace Retention

variable (p : Retention)

/-- Whether a record is too old at a time.  Without a bound on the age no record is. -/
def isStale (now : Instant) (r : Record) : Bool :=
  match p.maxAge with
  | none => false
  | some age => r.timestamp.before (now.earlier age)

/-- The newest records, as many as may be kept. -/
def newest (records : List Record) : List Record := records.drop (records.length - p.maxRecords)

/-- The newest records, as many as may be kept, without those at the front that are too old. -/
def kept (now : Instant) (records : List Record) : List Record :=
  (p.newest records).dropWhile (p.isStale now)

theorem newest_suffix (records : List Record) : p.newest records <:+ records :=
  List.drop_suffix _ _

theorem length_newest_le (records : List Record) : (p.newest records).length ≤ p.maxRecords := by
  simp only [newest, List.length_drop]
  omega

/-- What is beyond the bound on the number may go before others come, too. -/
theorem newest_append_newest (records added : List Record) :
    p.newest (p.newest records ++ added) = p.newest (records ++ added) := by
  unfold newest
  rw [← List.drop_append_of_le_length (Nat.sub_le _ _), List.drop_drop]
  congr 1
  simp only [List.length_drop, List.length_append]
  omega

theorem newest_newest (records : List Record) :
    p.newest (p.newest records) = p.newest records := by
  simpa using p.newest_append_newest records []

theorem newest_append (gone left : List Record) :
    p.newest (gone ++ left) =
      gone.drop ((gone ++ left).length - p.maxRecords) ++ p.newest left := by
  unfold newest
  rw [List.drop_append]
  congr 2
  simp only [List.length_append]
  omega

variable {p}

/-- A record that is too old stays so. -/
theorem isStale_mono {t u : Instant} (ht : t.Regular) (hu : u.Regular) (h : u.before t = false)
    {r : Record} (hr : p.isStale t r = true) : p.isStale u r = true := by
  unfold isStale at hr ⊢
  cases hage : p.maxAge with
  | none => simp [hage] at hr
  | some age =>
    simp only [hage] at hr ⊢
    have hle := Instant.total_le_of_not_before ht hu (by simp [h])
    exact Instant.before_of_before_of_not_before hr
      (Instant.not_earlier_before_earlier hle age)

end Retention

namespace Store

/-! ### One sweep -/

theorem countBefore_eq (window : Array Record) (limit : Instant) (i : Nat) :
    countBefore window limit i =
      ((window.toList.drop i).takeWhile fun r => r.timestamp.before limit).length := by
  fun_induction countBefore window limit i with
  | case1 i hi hbefore ih =>
    rw [List.drop_eq_getElem_cons (by simpa using hi), ih]
    simp [hbefore]
  | case2 i hi hbefore =>
    rw [List.drop_eq_getElem_cons (by simpa using hi)]
    simp [hbefore]
  | case3 i hi => rw [List.drop_eq_nil_of_le (by simpa using hi)]; rfl

/-- How many records a sweep finds too old. -/
theorem staleFrom_eq {s : Store} {now : Instant} (hnow : now.Regular)
    (hdated : ∀ r ∈ s.window.toList, Instant.inCalendar r.timestamp.seconds = true)
    (start : Nat) :
    s.staleFrom now start =
      ((s.window.toList.drop start).takeWhile (s.retention.isStale now)).length := by
  unfold staleFrom Retention.cutoff Retention.isStale
  cases s.retention.maxAge with
  | none => cases s.window.toList.drop start <;> rfl
  | some age =>
    rcases Instant.minus?_cases hnow age with h | ⟨h, hfirst⟩
    · simp only [Option.bind_some, h]
      exact countBefore_eq _ _ _
    · have hnone : ∀ r ∈ s.window.toList.drop start,
          r.timestamp.before (now.earlier age) = false := by
        intro r hr
        have hr := hdated r (List.mem_of_mem_drop hr)
        simp only [Instant.inCalendar, Bool.and_eq_true, decide_eq_true_eq] at hr
        rw [Bool.eq_false_iff, Ne, Instant.before_iff]
        omega
      simp only [Option.bind_some, h]
      cases hwindow : s.window.toList.drop start with
      | nil => rfl
      | cons r rest => simp [hnone r (by simp [hwindow])]

theorem drop_length_takeWhile (stale : Record → Bool) (records : List Record) :
    records.drop (records.takeWhile stale).length = records.dropWhile stale := by
  induction records with
  | nil => rfl
  | cons r rest ih => cases h : stale r <;> simp [h, ih]

/-- **One sweep**: what both bounds allow stays in the window. -/
theorem toList_enforce {s : Store} {now : Instant} (hnow : now.Regular)
    (hdated : ∀ r ∈ s.window.toList, Instant.inCalendar r.timestamp.seconds = true) :
    (s.enforce now).window.toList = s.retention.kept now s.window.toList := by
  have hexcess : s.window.toList.drop s.excess = s.retention.newest s.window.toList := by
    simp [excess, Retention.newest]
  unfold enforce surplus
  rw [toList_evict, ← List.drop_drop, staleFrom_eq hnow hdated, hexcess]
  exact drop_length_takeWhile _ _

/-- What a run of sweeps leaves of the records `pushed`: the newest of them are those that were too
old at one of the times, and then the window. -/
structure Tracks (p : Retention) (pushed : List Record) (times : List Instant) (s : Store) :
    Prop where
  retention : s.retention = p
  dated : ∀ r ∈ pushed, Instant.inCalendar r.timestamp.seconds = true
  clocks : ∀ t ∈ times, t.Regular
  window : ∃ gone, p.newest pushed = gone ++ s.window.toList ∧
    ∀ r ∈ gone, ∃ t ∈ times, p.isStale t r = true

end Store

/-! ### Calls at times of the calendar -/

namespace Call

/-- All times of a call lie in the calendar, and its clock not in a leap second. -/
def Timed : Call → Prop
  | .insert d now => Instant.inCalendar d.timestamp.seconds = true ∧ now.Regular
  | .restore records now =>
    (∀ r ∈ records, Instant.inCalendar r.timestamp.seconds = true) ∧ now.Regular
  | .evictExpired now => now.Regular
  | _ => True

instance (c : Call) : Decidable c.Timed := by
  cases c <;> unfold Timed <;> infer_instance

theorem Timed.pushed {s : Store} {c : Call} (hc : c.Timed) :
    ∀ r ∈ s.pushed c, Instant.inCalendar r.timestamp.seconds = true := by
  intro r hr
  cases c with
  | insert d now =>
    rcases s.insert_cases d now with ⟨e, ha, -⟩ | ⟨ha, -⟩
    · simp [Store.pushed, ha] at hr
    · simp only [Store.pushed, ha, List.mem_singleton] at hr
      subst hr; exact hc.1
  | restore records now => exact hc.1 r (by simpa using Store.mem_of_mem_accepted hr)
  | resumeAfter id => simp [Store.pushed] at hr
  | evictExpired now => simp [Store.pushed] at hr
  | stats => simp [Store.pushed] at hr

theorem Timed.sweepTime {s : Store} {c : Call} {now : Instant} (hc : c.Timed)
    (h : s.sweepTime? c = some now) : now.Regular := by
  cases c with
  | insert d clock =>
    simp only [Store.sweepTime?, Option.ite_none_right_eq_some, Option.some.injEq] at h
    rw [← h.2]; exact hc.2
  | restore records clock =>
    simp only [Store.sweepTime?, Option.ite_none_right_eq_some, Option.some.injEq] at h
    rw [← h.2]; exact hc.2
  | resumeAfter id => simp [Store.sweepTime?] at h
  | evictExpired clock =>
    simp only [Store.sweepTime?, Option.ite_none_right_eq_some, Option.some.injEq] at h
    rw [← h.2]; exact hc
  | stats => simp [Store.sweepTime?] at h

end Call

/-! ### Runs of sweeps -/

namespace Store

variable {p : Retention} {pushed : List Record} {times : List Instant} {s : Store}

theorem Tracks.empty (p : Retention) : Tracks p [] [] (Store.empty p) :=
  ⟨rfl, by simp, by simp, [], by simp [Retention.newest, Store.empty], by simp⟩

theorem Tracks.suffix (h : Tracks p pushed times s) : s.window.toList <:+ pushed := by
  obtain ⟨gone, hgone, -⟩ := h.window
  have hsuffix := p.newest_suffix pushed
  rw [hgone] at hsuffix
  exact (List.suffix_append gone _).trans hsuffix

theorem Tracks.length_le (h : Tracks p pushed times s) :
    s.window.toList.length ≤ p.maxRecords := by
  obtain ⟨gone, hgone, -⟩ := h.window
  have hle := p.length_newest_le pushed
  rw [hgone, List.length_append] at hle
  omega

/-- What went earlier would go now if no earlier sweep is later than this one. -/
theorem Tracks.kept_append (h : Tracks p pushed times s) {now : Instant} (hnow : now.Regular)
    (hlatest : ∀ t ∈ times, now.before t = false) (added : List Record) :
    p.kept now (pushed ++ added) = p.kept now (s.window.toList ++ added) := by
  obtain ⟨gone, hgone, hstale⟩ := h.window
  unfold Retention.kept
  rw [← p.newest_append_newest, hgone, List.append_assoc, p.newest_append]
  refine List.dropWhile_append_of_pos fun r hr => ?_
  obtain ⟨t, ht, hrt⟩ := hstale r (List.mem_of_mem_drop hr)
  exact Retention.isStale_mono (h.clocks t ht) hnow (hlatest t ht) hrt

theorem Tracks.window_sweep (h : Tracks p pushed times s) {added : List Record}
    (hadded : ∀ r ∈ added, Instant.inCalendar r.timestamp.seconds = true) {now : Instant}
    (hnow : now.Regular) :
    ((s.acceptAll added).enforce now).window.toList = p.kept now (s.window.toList ++ added) := by
  rw [toList_enforce hnow, retention_acceptAll, h.retention, toList_acceptAll]
  intro r hr
  rw [toList_acceptAll] at hr
  rcases List.mem_append.mp hr with hr | hr
  · exact h.dated r (h.suffix.mem hr)
  · exact hadded r hr

/-- A sweep after records have been appended. -/
theorem Tracks.sweep (h : Tracks p pushed times s) {added : List Record}
    (hadded : ∀ r ∈ added, Instant.inCalendar r.timestamp.seconds = true) {now : Instant}
    (hnow : now.Regular) :
    Tracks p (pushed ++ added) (times ++ [now]) ((s.acceptAll added).enforce now) := by
  obtain ⟨gone, hgone, hstale⟩ := h.window
  refine ⟨(retention_acceptAll s added).trans h.retention, ?_, ?_, ?_⟩
  · intro r hr
    rcases List.mem_append.mp hr with hr | hr
    · exact h.dated r hr
    · exact hadded r hr
  · intro t ht
    rcases List.mem_append.mp ht with ht | ht
    · exact h.clocks t ht
    · rw [List.mem_singleton.mp ht]; exact hnow
  -- The newest records now: what is left of `gone`, what this sweep takes, and the window.
  · refine ⟨gone.drop ((gone ++ (s.window.toList ++ added)).length - p.maxRecords) ++
      (p.newest (s.window.toList ++ added)).takeWhile (p.isStale now), ?_, ?_⟩
    · rw [← p.newest_append_newest, hgone, List.append_assoc, p.newest_append,
        h.window_sweep hadded hnow, List.append_assoc]
      unfold Retention.kept
      rw [List.takeWhile_append_dropWhile]
    · intro r hr
      rcases List.mem_append.mp hr with hr | hr
      · obtain ⟨t, ht, hrt⟩ := hstale r (List.mem_of_mem_drop hr)
        exact ⟨t, List.mem_append_left _ ht, hrt⟩
      · exact ⟨now, by simp, List.mem_takeWhile_imp hr⟩

/-- One call, unless it runs out of ids half-way. -/
theorem Tracks.after (h : Tracks p pushed times s) {c : Call} (hc : c.Timed)
    (hids : s.exhausts c = false) :
    Tracks p (pushed ++ s.pushed c) (times ++ (s.sweepTime? c).toList) (s.after c) := by
  rcases s.after_cases c with
    ⟨now, htime, hs⟩ | ⟨htime, ⟨hno, -⟩ | ⟨hpushed, ⟨next, -, hs⟩ | hs⟩⟩
  · rw [htime, hs]
    exact h.sweep hc.pushed (hc.sweepTime htime)
  · rw [hids] at hno; cases hno
  · rw [htime, hpushed, hs, Option.toList_none, List.append_nil, List.append_nil]
    exact ⟨h.retention, h.dated, h.clocks, h.window⟩
  · rw [htime, hpushed, hs, Option.toList_none, List.append_nil, List.append_nil]
    exact ⟨h.retention, h.dated, h.clocks, h.window⟩

theorem Tracks.run (h : Tracks p pushed times s) {calls : List Call}
    (hcalls : ∀ c ∈ calls, c.Timed) (hids : s.lasting calls = true) :
    Tracks p (pushed ++ s.history calls) (times ++ s.sweeps calls) (s.run calls) := by
  induction calls generalizing s pushed times with
  | nil => simpa [history, sweeps] using h
  | cons c rest ih =>
    simp only [lasting, Bool.and_eq_true, Bool.not_eq_true'] at hids
    have hnext := ih (h.after (hcalls c List.mem_cons_self) hids.1)
      (fun d hd => hcalls d (List.mem_cons_of_mem _ hd)) hids.2
    rw [List.append_assoc, List.append_assoc] at hnext
    exact hnext

/-- The last of some calls brings the window within its bounds, at a time that is not before any
earlier time at which this was done. -/
def EndsInSweep (p : Retention) (calls : List Call) (now : Instant) : Prop :=
  ∃ earlier c, calls = earlier ++ [c] ∧ ((Store.empty p).run earlier).sweepTime? c = some now ∧
    ∀ t ∈ (Store.empty p).sweeps earlier, now.before t = false

theorem window_after_sweep {calls : List Call} (hcalls : ∀ c ∈ calls, c.Timed)
    (hids : (Store.empty p).lasting calls = true) {now : Instant}
    (hsweep : EndsInSweep p calls now) :
    ((Store.empty p).run calls).window.toList = p.kept now ((Store.empty p).history calls) := by
  obtain ⟨earlier, c, rfl, htime, hlatest⟩ := hsweep
  rw [lasting_append, Bool.and_eq_true] at hids
  have hearlier := (Tracks.empty p).run (fun d hd => hcalls d (List.mem_append_left _ hd)) hids.1
  have hc : c.Timed := hcalls c (by simp)
  have hs : (Store.empty p).run (earlier ++ [c]) = ((Store.empty p).run earlier).after c :=
    run_append _ _ _
  have hpushed : (Store.empty p).history (earlier ++ [c]) =
      (Store.empty p).history earlier ++ ((Store.empty p).run earlier).pushed c := by
    simp only [history_append, history, List.append_nil]
  rw [hs, after_of_sweepTime htime, hearlier.window_sweep hc.pushed (hc.sweepTime htime), hpushed]
  exact (hearlier.kept_append (hc.sweepTime htime) hlatest _).symm

/-- Neither how often and when there were sweeps before the last one, nor whether records came one
by one or together, changes the window. -/
theorem window_eq_of_history_eq {calls others : List Call} (hcalls : ∀ c ∈ calls, c.Timed)
    (hothers : ∀ c ∈ others, c.Timed) (hids : (Store.empty p).lasting calls = true)
    (hids' : (Store.empty p).lasting others = true) {now : Instant}
    (hsweep : EndsInSweep p calls now) (hsweep' : EndsInSweep p others now)
    (h : (Store.empty p).history calls = (Store.empty p).history others) :
    ((Store.empty p).run calls).window.toList = ((Store.empty p).run others).window.toList := by
  rw [window_after_sweep hcalls hids hsweep, window_after_sweep hothers hids' hsweep', h]

/-- **The window of a run.**  After every call the window is a suffix of all records ever appended,
and no longer than allowed.  After a call that brings the window within its bounds, at a time that
is not before any earlier such time, it is what both bounds leave of all these records. -/
theorem window_after_run (p : Retention) (calls : List Call) (hcalls : ∀ c ∈ calls, c.Timed)
    (hids : (Store.empty p).lasting calls = true) :
    ((Store.empty p).run calls).window.toList <:+ (Store.empty p).history calls ∧
      ((Store.empty p).run calls).window.toList.length ≤ p.maxRecords ∧
      ∀ now, EndsInSweep p calls now →
        ((Store.empty p).run calls).window.toList =
          p.kept now ((Store.empty p).history calls) := by
  have htracks := (Tracks.empty p).run hcalls hids
  exact ⟨htracks.suffix, htracks.length_le, fun now => window_after_sweep hcalls hids⟩

/-- Three records, of which the last is long past when it comes, and a sweep. -/
def lateArrival : List Call :=
  let draft (seconds : Int) : Draft :=
    { orderId := "A", broker := "b", symbol := "S", orderType := .market,
      timestamp := ⟨seconds, 0⟩, latencies := ⟨1.0, 2.0, 0.5, 1.0, 0.5⟩, status := .success,
      error := none }
  [.insert (draft 100) ⟨101, 0⟩, .insert (draft 130) ⟨131, 0⟩, .insert (draft 50) ⟨109, 0⟩,
    .evictExpired ⟨171, 0⟩]

/-- A store of two records of a minute at most keeps an old record behind a fresh one. -/
theorem window_after_late_arrival :
    let p : Retention := ⟨2, some (.ofSeconds 60)⟩
    (∀ c ∈ lateArrival, c.Timed) ∧ (Store.empty p).lasting lateArrival = true ∧
      EndsInSweep p lateArrival ⟨171, 0⟩ ∧
      ((Store.empty p).run lateArrival).window.toList =
        p.kept ⟨171, 0⟩ ((Store.empty p).history lateArrival) ∧
      (((Store.empty p).run lateArrival).window.toList.map fun r => (r.id, r.timestamp.seconds)) =
        [(2, 130), (3, 50)] := by
  have hcalls : ∀ c ∈ lateArrival, c.Timed := by decide +kernel
  have hids : (Store.empty ⟨2, some (.ofSeconds 60)⟩).lasting lateArrival = true := by
    decide +kernel
  have hsweep : EndsInSweep ⟨2, some (.ofSeconds 60)⟩ lateArrival ⟨171, 0⟩ :=
    ⟨lateArrival.dropLast, .evictExpired ⟨171, 0⟩, rfl, by decide +kernel, by decide +kernel⟩
  exact ⟨hcalls, hids, hsweep, (window_after_run _ lateArrival hcalls hids).2.2 _ hsweep,
    by decide +kernel⟩

end Store

end OrderTelemetry
