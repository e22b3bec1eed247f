import OrderTelemetry.Proofs.Calendar.Earlier
import OrderTelemetry.Proofs.Server.Idle

/-! # How long sweeps go on

A sweep computes the instant before which the archive forgets its rows.  If that lies before the
calendar the sweep fails, and a sweep that fails is the last one.  No check of the settings looks at
the number of days, so this happens to settings without a flaw, too.

* `Instant.daysOfCalendar`: how many days the calendar has before an instant.
* `Server.isSome_daysBefore_iff`: the instant a number of days ago exists if these are enough.
* `Server.Running.next_sweeps`: an event stops the sweeps only if it is a sweep that fails.
* `Server.Running.sweeping_run`: when sweeps have stopped in a run, and what that means for its
  store. -/

namespace OrderTelemetry

/-! ### The days of the calendar -/

namespace Instant

/-- An instant of the years 2025 to 2099. -/
structure Contemporary (t : Instant) : Prop where
  first : (⟨2025, 1, 1⟩ : Date).toDays * 86400 ≤ t.seconds
  last : t.seconds < (⟨2100, 1, 1⟩ : Date).toDays * 86400
  nanos : t.nanos < 2000000000

instance (t : Instant) : Decidable t.Contemporary :=
  decidable_of_iff ((⟨2025, 1, 1⟩ : Date).toDays * 86400 ≤ t.seconds ∧
      t.seconds < (⟨2100, 1, 1⟩ : Date).toDays * 86400 ∧ t.nanos < 2000000000)
    ⟨fun h => ⟨h.1, h.2.1, h.2.2⟩, fun h => ⟨h.first, h.last, h.nanos⟩⟩

/-- The whole days from the first second of the calendar to an instant.  A leap second counts as the
second after it. -/
def daysOfCalendar (t : Instant) : Int := (t.total / 1000000000 - firstSecond) / 86400

variable {t : Instant}

theorem Contemporary.seconds_bounds (ht : t.Contemporary) :
    1735689600 ≤ t.total / 1000000000 ∧ t.total / 1000000000 ≤ 4102444800 := by
  have hfirst : (⟨2025, 1, 1⟩ : Date).toDays * 86400 = 1735689600 := by decide +kernel
  have hlast : (⟨2100, 1, 1⟩ : Date).toDays * 86400 = 4102444800 := by decide +kernel
  obtain ⟨h1, h2, h3⟩ := ht
  rw [hfirst] at h1
  rw [hlast] at h2
  unfold total
  omega

theorem Contemporary.daysOfCalendar_bounds (ht : t.Contemporary) :
    96485381 ≤ t.daysOfCalendar ∧ t.daysOfCalendar ≤ 96512774 := by
  have h := ht.seconds_bounds
  unfold daysOfCalendar firstSecond
  omega

end Instant

/-! ### The number of days -/

/-- The settings with another number of days after which rows of the archive are forgotten. -/
def Settings.purging (s : Settings) (days : Option Nat) : Settings :=
  { s with storage := s.storage.map fun t => { t with purgeAfterDays := days } }

/-- No check looks at the number of days. -/
theorem Settings.flaw?_purging (s : Settings) (days : Option Nat) :
    (s.purging days).flaw? = s.flaw? := by
  unfold flaw? purging
  cases s.storage <;> rfl

/-! ### One sweep -/

namespace Server

/-- The instant a number of days ago exists as long as the calendar has so many days before now. -/
theorem isSome_daysBefore_iff {now : Instant} (hnow : now.Contemporary) (days : Nat) :
    (daysBefore now days).isSome = true ↔ (days : Int) ≤ now.daysOfCalendar := by
  obtain ⟨hfirst, hlast⟩ := hnow.seconds_bounds
  -- only whole seconds are taken off
  have hexact : (now.total - (86400000000000 * days : Nat)) / 1000000000 =
      now.total / 1000000000 - 86400 * days := by
    omega
  have hin : Instant.inCalendar ((now.total - (86400000000000 * days : Nat)) / 1000000000) = true ↔
      (days : Int) ≤ now.daysOfCalendar := by
    rw [hexact]
    simp only [Instant.inCalendar, Bool.and_eq_true, decide_eq_true_eq]
    unfold Instant.daysOfCalendar Instant.firstSecond Instant.lastSecond
    omega
  unfold daysBefore Instant.minus? Duration.ofDays
  rw [Instant.longest_nanos]
  dsimp only
  split_ifs with hlong hleap hwithin
  · simp only [Option.isSome_none, Bool.false_eq_true, false_iff]
    unfold Instant.daysOfCalendar Instant.firstSecond
    omega
  · simp only [Option.isSome_some, true_iff]
    unfold Instant.daysOfCalendar Instant.firstSecond
    omega
  · exact iff_of_true rfl (hin.mp hwithin)
  · exact iff_of_false Bool.false_ne_true fun h => hwithin (hin.mpr h)

theorem isOk_purge (archive : Archive) (days : Nat) (now : Instant) :
    (purge archive days now).answer.isOk = (daysBefore now days).isSome := by
  unfold purge
  cases daysBefore now days with
  | none => rfl
  | some cutoff =>
    dsimp only
    cases archive.purgeBefore cutoff <;> rfl

/-- What one sweep does: the store has been swept when the archive's turn comes, and the sweep fails
only if the archive's cutoff lies before the calendar. -/
theorem sweep_cases (purgeAfterDays : Option Nat) (s : Swept) (now : Instant) :
    let step := sweep purgeAfterDays s now
    step.state.store = (s.store.evictExpired now).2 ∧
      (step.answer.isOk = true ↔
        ∀ days ∈ s.archive.bind fun _ => purgeAfterDays, (daysBefore now days).isSome = true) := by
  obtain ⟨store, archive⟩ := s
  cases archive with
  | none => exact ⟨rfl, iff_of_true rfl fun _ h => nomatch h⟩
  | some archive =>
    cases purgeAfterDays with
    | none => exact ⟨rfl, iff_of_true rfl fun _ h => nomatch h⟩
    | some days => simp [sweep, isOk_purge]

/-! ### The sweeps of a run -/

/-- The instant of a sweep. -/
def Event.sweepTime? : Event → Option Instant
  | .sweep now => some now
  | _ => none

/-- The instants of the sweeps among some events. -/
def sweepTimes (events : List Event) : List Instant := events.filterMap Event.sweepTime?

namespace Running

variable {r : Running}

/-- The number of days after which rows of an archive are forgotten, if there is an archive to
sweep. -/
def purges? (r : Running) : Option Nat :=
  (r.opened.bind Opened.writer).bind fun _ => r.purgeAfterDays

theorem purges?_sweptArchive (r : Running) :
    (r.sweptArchive.bind fun _ => r.purgeAfterDays) = r.purges? := by
  unfold sweptArchive purges?
  cases r.opened with
  | none => rfl
  | some o => cases hwriter : o.writer <;> simp [hwriter]

/-! #### One event -/

theorem purges?_withSpool {s : Spool} (hs : r.spool? = some s) (t : Spool) :
    (r.withSpool t).purges? = r.purges? := by
  unfold spool? at hs
  unfold purges? withSpool
  cases hopened : r.opened with
  | none => rfl
  | some o =>
    obtain ⟨path, archive, writer⟩ := o
    cases writer with
    | none => rw [hopened] at hs; simp at hs
    | some writer => rfl

theorem purges?_sweep (r : Running) (now : Instant) : (r.sweep now).1.purges? = r.purges? := by
  unfold sweep
  split_ifs
  · unfold purges?
    dsimp only
    cases r.opened <;> rfl
  · rfl

/-- A sweep that fails is the last one. -/
theorem sweeping_sweep_iff (r : Running) (now : Instant) :
    (r.sweep now).1.sweeping = true ↔ r.sweeping = true ∧
      ∀ days ∈ r.purges?, (daysBefore now days).isSome = true := by
  unfold sweep
  split_ifs with h
  · rw [(sweep_cases _ _ now).2]
    dsimp only
    rw [r.purges?_sweptArchive, and_iff_right h]
  · exact iff_of_false h fun hsweeping => h hsweeping.1

/-- What a sweep does to the store while sweeps go on, and afterwards. -/
theorem store_sweep (r : Running) (now : Instant) :
    (r.sweep now).1.service.store =
      if r.sweeping then (r.service.store.evictExpired now).2 else r.service.store := by
  unfold sweep
  split_ifs
  · exact (sweep_cases _ _ now).1
  · rfl

/-- Nothing but sweeps stops the sweeps. -/
theorem next_of_no_sweep (r : Running) {e : Event} (he : e.sweepTime? = none) :
    (r.next e).purges? = r.purges? ∧ (r.next e).sweeping = r.sweeping := by
  cases e with
  | sweep now => cases he
  | request request now => exact ⟨rfl, rfl⟩
  | feed now =>
    simp only [next, feedNext]
    cases r.feed.bind DemoFeed.next <;> exact ⟨rfl, rfl⟩
  | write =>
    simp only [next, write]
    cases hs : r.spool? with
    | none => exact ⟨rfl, rfl⟩
    | some s => exact ⟨purges?_withSpool hs _, rfl⟩
  | flush =>
    simp only [next, flush]
    cases hs : r.spool? with
    | none => exact ⟨rfl, rfl⟩
    | some s => exact ⟨purges?_withSpool hs _, rfl⟩

/-- **What an event does to the sweeps**: they go on unless it is a sweep that fails. -/
theorem next_sweeps (r : Running) (e : Event) :
    (r.next e).purges? = r.purges? ∧
      ((r.next e).sweeping = true ↔ r.sweeping = true ∧
        ∀ now ∈ e.sweepTime?, ∀ days ∈ r.purges?, (daysBefore now days).isSome = true) := by
  cases htime : e.sweepTime? with
  | none =>
    obtain ⟨hpurges, hsweeping⟩ := r.next_of_no_sweep htime
    rw [hpurges, hsweeping]
    simp
  | some now =>
    cases e <;> cases htime
    simp only [next, Option.mem_some_iff, forall_eq']
    exact ⟨r.purges?_sweep now, r.sweeping_sweep_iff now⟩

/-! #### Any events -/

theorem purges?_run (r : Running) (events : List Event) : (r.run events).purges? = r.purges? := by
  induction events generalizing r with
  | nil => rfl
  | cons e rest ih => exact (ih (r.next e)).trans (r.next_sweeps e).1

theorem purges?_settle (r : Running) (now : Instant) : (r.settle now).1.purges? = r.purges? :=
  r.purges?_run [.sweep now, .feed now]

theorem sweeping_run_iff (r : Running) (events : List Event) :
    (r.run events).sweeping = true ↔ r.sweeping = true ∧
      ∀ now ∈ sweepTimes events, ∀ days ∈ r.purges?, (daysBefore now days).isSome = true := by
  induction events generalizing r with
  | nil => simp [run, sweepTimes]
  | cons e rest ih =>
    have hrest := ih (r.next e)
    rw [(r.next_sweeps e).2, (r.next_sweeps e).1] at hrest
    refine hrest.trans ?_
    unfold sweepTimes
    cases htime : e.sweepTime? with
    | none => simp [htime]
    | some now => simp [htime, and_assoc]

/-! #### From the start -/

section Start
variable {settings : Settings} {feed : Option DemoFeed} {disk : Disk} {now : Instant} {r : Running}
  (hr : (start settings feed disk now).running = some r)
include hr

/-- Rows are forgotten after the number of days that the settings say, if ever. -/
theorem mem_purges?_of_start {days : Nat} (hdays : days ∈ r.purges?) :
    days ∈ settings.storage.bind StorageSettings.purgeAfterDays := by
  obtain ⟨first, rfl, -, -, -, hpurge⟩ := settled_of_start hr
  rw [purges?_settle, purges?, hpurge] at hdays
  obtain ⟨writer, -, hdays⟩ := Option.bind_eq_some_iff.mp hdays
  exact hdays

/-- The first sweep is that of the start. -/
theorem sweeping_run_start_iff (events : List Event) :
    (r.run events).sweeping = true ↔ ∀ t ∈ now :: sweepTimes events, ∀ days ∈ r.purges?,
      (daysBefore t days).isSome = true := by
  obtain ⟨first, rfl, -, -, hsweeping, -⟩ := settled_of_start hr
  rw [purges?_settle]
  exact (first.sweeping_run_iff (.sweep now :: .feed now :: events)).trans (and_iff_right hsweeping)

end Start

/-- **How long the sweeps of a run go on.**  Settings have a flaw or none whatever number of days
they give the archive.  From 2025 to 2099 sweeps go on as long as at each of them, the one at the
start included, the calendar has so many days before.  So they go on with settings that keep rows
for at most 96485381 days, and the first one is the last with more than 96512774 days and an archive
to sweep.  Then the store drops no old records by sweeping any more. -/
theorem sweeping_run {settings : Settings} {feed : Option DemoFeed} {disk : Disk} {now : Instant}
    {r : Running} (hr : (start settings feed disk now).running = some r) (hnow : now.Contemporary)
    {events : List Event} (hevents : ∀ t ∈ sweepTimes events, t.Contemporary) :
    let last := r.run events
    (∀ days, (settings.purging days).flaw? = settings.flaw?) ∧
      (last.sweeping = true ↔ ∀ t ∈ now :: sweepTimes events, ∀ days ∈ r.purges?,
        (days : Int) ≤ t.daysOfCalendar) ∧
      ((∀ days ∈ settings.storage.bind StorageSettings.purgeAfterDays, days ≤ 96485381) →
        last.sweeping = true) ∧
      ((∃ days ∈ r.purges?, 96512774 < days) → last.sweeping = false) ∧
      ∀ later, (last.sweep later).1.service.store =
        if last.sweeping then (last.service.store.evictExpired later).2 else last.service.store := by
  have hcontemporary : ∀ t ∈ now :: sweepTimes events, t.Contemporary :=
    List.forall_mem_cons.mpr ⟨hnow, hevents⟩
  have hiff : (r.run events).sweeping = true ↔ ∀ t ∈ now :: sweepTimes events,
      ∀ days ∈ r.purges?, (days : Int) ≤ t.daysOfCalendar := by
    rw [sweeping_run_start_iff hr]
    exact forall₂_congr fun t ht => forall₂_congr fun days _ =>
      isSome_daysBefore_iff (hcontemporary t ht) days
  refine ⟨settings.flaw?_purging, hiff, fun hfew => ?_, fun ⟨days, hdays, hmany⟩ => ?_,
    store_sweep _⟩
  · refine hiff.mpr fun t ht days hdays => ?_
    have hle := hfew days (mem_purges?_of_start hr hdays)
    have hbounds := (hcontemporary t ht).daysOfCalendar_bounds
    omega
  · refine Bool.eq_false_iff.mpr fun hsweeping => ?_
    have hle := hiff.mp hsweeping now List.mem_cons_self days hdays
    have hbounds := hnow.daysOfCalendar_bounds
    omega

/-- Settings that keep rows for a number of days. -/
def keeping (days : Nat) : Settings :=
  { storage := some { path := "latency.db", purgeAfterDays := some days } }

/-- Settings without a flaw with which the sweep at the start is the last one, and such with which
the sweeps go on until a sweep in the last second of 2099. -/
theorem sweeping_run_keeping :
    ((keeping 4294967295).flaw? = none ∧ (keeping 96485381).flaw? = none) ∧
      (∃ r, (start (keeping 4294967295) none [] ⟨1735689600, 0⟩).running = some r ∧
        (r.run []).sweeping = false) ∧
      ∃ r, (start (keeping 96485381) none [] ⟨1735689600, 0⟩).running = some r ∧
        (r.run [.sweep ⟨4102444799, 0⟩]).sweeping = true := by
  have hmany : (start (keeping 4294967295) none [] ⟨1735689600, 0⟩).running.bind purges? =
      some 4294967295 := by decide +kernel
  have hfew : (start (keeping 96485381) none [] ⟨1735689600, 0⟩).running.isSome = true := by
    decide +kernel
  obtain ⟨r, hr, hpurges⟩ := Option.bind_eq_some_iff.mp hmany
  obtain ⟨q, hq⟩ := Option.isSome_iff_exists.mp hfew
  refine ⟨⟨by decide +kernel, by decide +kernel⟩, ⟨r, hr, ?_⟩, q, hq, ?_⟩
  · exact (sweeping_run hr (by decide +kernel) (by simp [sweepTimes])).2.2.2.1
      ⟨4294967295, hpurges, by decide⟩
  · exact (sweeping_run hq (by decide +kernel) (by decide +kernel)).2.2.1 (by simp [keeping])

end Running

end Server

end OrderTelemetry
