import OrderTelemetry.Proofs.Store.Window

/-! # What a sweep for age drops

A sweep compares times with a limit, the instant that lies the allowed age back.  The limit may be
out of reach: the age may be longer than a step between instants can be, or the step may lead out of
the calendar.  Then the sweep drops nothing, and nothing would have to go, since no instant of the
calendar is as far back as that (`age_le_of_cutoff_eq_none`).  So a sweep is described by exact ages
in nanoseconds.

* `Retention.isExpired`: a record is older than allowed.
* `Store.evictExpired_exact`: a sweep drops the records at the front that are, up to the first that
  is not. -/

namespace OrderTelemetry

/-! ### Exact ages -/

namespace Instant

/-- The age of an instant in nanoseconds. -/
def ageAt (t now : Instant) : Int := now.total - t.total

/-- What comes before the instant a length of time back is older than that. -/
theorem before_earlier_iff {t now : Instant} (ht : t.Regular) (d : Duration) :
    t.before (now.earlier d) = true ↔ (d.nanos : Int) < t.ageAt now := by
  have hnanos := ht.nanos
  rw [before_iff]
  simp only [earlier, ageAt]
  generalize now.total = n
  unfold total
  omega

end Instant

namespace Retention

variable {p : Retention} {now : Instant}

/-- Whether a record is older than allowed.  Without a bound on the age no record is. -/
def isExpired (p : Retention) (now : Instant) (r : Record) : Bool :=
  p.maxAge.any fun age => decide ((age.nanos : Int) < r.timestamp.ageAt now)

theorem isStale_eq_isExpired {r : Record} (hr : r.timestamp.Regular) :
    p.isStale now r = p.isExpired now r := by
  unfold isStale isExpired
  cases p.maxAge with
  | none => rfl
  | some age =>
    rw [Bool.eq_iff_iff, Instant.before_earlier_iff hr age]
    simp

/-- **Giving up keeps nothing that is too old**: if there is no limit, then no instant of the
calendar is older than allowed. -/
theorem age_le_of_cutoff_eq_none {age : Duration} (hage : p.maxAge = some age) (hnow : now.Regular)
    (hnone : p.cutoff now = none) {t : Instant} (ht : t.Regular) : t.ageAt now ≤ age.nanos := by
  have hfirst := ht.first
  unfold cutoff at hnone
  rw [hage, Option.bind_some] at hnone
  rcases Instant.minus?_cases hnow age with h | ⟨-, hearly⟩
  · rw [hnone] at h
    cases h
  · have hkept : ¬ t.before (now.earlier age) = true := by
      rw [Instant.before_iff]
      omega
    rw [Instant.before_earlier_iff ht age] at hkept
    exact Int.not_lt.mp hkept

end Retention

/-! ### Sweeps -/

namespace Store

variable {s : Store} {now : Instant}

@[simp] theorem evict_zero (s : Store) : s.evict 0 = s := by
  have hgone : s.window.extract 0 0 = #[] := by simp
  unfold evict
  rw [hgone]
  simp

/-- A prefix is the same for tests that agree on the list. -/
theorem takeWhile_congr {f g : Record → Bool} {records : List Record}
    (h : ∀ r ∈ records, f r = g r) : records.takeWhile f = records.takeWhile g := by
  induction records with
  | nil => rfl
  | cons r rest ih =>
    rw [List.forall_mem_cons] at h
    rw [List.takeWhile_cons, List.takeWhile_cons, h.1, ih h.2]

/-- What is left without a prefix does not begin like it. -/
theorem takeWhile_dropWhile (f : Record → Bool) (records : List Record) :
    (records.dropWhile f).takeWhile f = [] := by
  have hhead := List.head?_dropWhile_not f records
  cases hleft : records.dropWhile f with
  | nil => rfl
  | cons r rest =>
    rw [hleft] at hhead
    exact List.takeWhile_cons_of_neg (by simpa using hhead)

section Sweep
variable (hnow : now.Regular) (hsize : s.size ≤ s.retention.maxRecords)
  (hdated : ∀ r ∈ s.window.toList, r.timestamp.Regular)
include hnow hsize hdated

/-- How many records have to go from a window that is not too long. -/
theorem surplus_eq :
    s.surplus now = (s.window.toList.takeWhile (s.retention.isExpired now)).length := by
  have hexcess : s.excess = 0 := Nat.sub_eq_zero_of_le hsize
  have hcalendar : ∀ r ∈ s.window.toList, Instant.inCalendar r.timestamp.seconds = true := by
    intro r hr
    obtain ⟨hfirst, hlast, -⟩ := hdated r hr
    simp [Instant.inCalendar, hfirst, hlast]
  have hsame : ∀ r ∈ s.window.toList, s.retention.isStale now r = s.retention.isExpired now r :=
    fun r hr => Retention.isStale_eq_isExpired (hdated r hr)
  unfold surplus
  rw [hexcess, Nat.zero_add, staleFrom_eq hnow hcalendar, List.drop_zero, takeWhile_congr hsame]

/-- Without a bound on the age nothing is too old, so it does not matter that such a store is not
swept. -/
theorem evictExpired_eq :
    s.evictExpired now =
      ((s.window.toList.takeWhile (s.retention.isExpired now)).length,
        s.evict (s.window.toList.takeWhile (s.retention.isExpired now)).length) := by
  have hsurplus := surplus_eq hnow hsize hdated
  unfold evictExpired enforce
  rw [hsurplus]
  cases hage : s.retention.maxAge with
  | none =>
    have hnone : s.window.toList.takeWhile (s.retention.isExpired now) = [] := by
      rw [List.takeWhile_eq_nil_iff]
      simp [Retention.isExpired, hage]
    rw [hnone, List.length_nil, evict_zero]
    rfl
  | some age => rfl

end Sweep

/-- **A sweep for age drops exactly what is too old.**  It drops the longest prefix of the window
whose records are older than allowed, counted in nanoseconds, and says how many they were.  Another
one at the same time drops nothing.  If there is no limit to compare with, then no instant of the
calendar would be too old. -/
theorem evictExpired_exact (s : Store) {now : Instant} (hnow : now.Regular)
    (hsize : s.size ≤ s.retention.maxRecords)
    (hdated : ∀ r ∈ s.window.toList, r.timestamp.Regular) :
    let gone := s.window.toList.takeWhile (s.retention.isExpired now)
    let swept := s.evictExpired now
    swept = (gone.length, s.evict gone.length) ∧
      swept.2.window.toList = s.window.toList.dropWhile (s.retention.isExpired now) ∧
      swept.2.evictExpired now = (0, swept.2) ∧
      (s.retention.cutoff now = none → ∀ age ∈ s.retention.maxAge, ∀ t : Instant, t.Regular →
        t.ageAt now ≤ age.nanos) := by
  intro gone swept
  have hswept : swept = (gone.length, s.evict gone.length) := evictExpired_eq hnow hsize hdated
  have hleft : (s.evict gone.length).window.toList =
      s.window.toList.dropWhile (s.retention.isExpired now) := by
    rw [toList_evict]
    exact drop_length_takeWhile _ _
  have hagain : (s.evict gone.length).evictExpired now = (0, s.evict gone.length) := by
    have hshorter : (s.evict gone.length).size ≤ s.retention.maxRecords := by
      have hle := List.length_dropWhile_le (s.retention.isExpired now) s.window.toList
      rw [← hleft, Array.length_toList, Array.length_toList] at hle
      exact hle.trans hsize
    have hdated' : ∀ r ∈ (s.evict gone.length).window.toList, r.timestamp.Regular := by
      intro r hr
      rw [toList_evict] at hr
      exact hdated r (List.mem_of_mem_drop hr)
    have hretention : (s.evict gone.length).retention = s.retention := rfl
    rw [evictExpired_eq hnow hshorter hdated', hleft, hretention, takeWhile_dropWhile,
      List.length_nil, evict_zero]
  rw [hswept]
  exact ⟨rfl, hleft, hagain, fun hnone age hage t ht =>
    Retention.age_le_of_cutoff_eq_none hage hnow hnone ht⟩

/-- Four records: the first is older than a minute by a nanosecond, the second by much, the third
by nothing, and the fourth by much again. -/
def aging (age : Duration) : Store :=
  let draft (seconds : Int) (nanos : Nat) : Draft :=
    { orderId := "A", broker := "b", symbol := "S", orderType := .market,
      timestamp := ⟨seconds, nanos⟩, latencies := ⟨1.0, 2.0, 0.5, 1.0, 0.5⟩, status := .success,
      error := none }
  (empty ⟨4, some age⟩).run
    [.insert (draft 100 0) ⟨0, 0⟩, .insert (draft 40 0) ⟨0, 0⟩, .insert (draft 100 1) ⟨0, 0⟩,
      .insert (draft 10 0) ⟨0, 0⟩]

/-- Two records go, and the third keeps the fourth.  The longest age there is keeps all of them,
also at the end of the calendar. -/
theorem evictExpired_exact_aging :
    let minute := aging (.ofSeconds 60)
    let ever := aging ⟨0xFFFFFFFFFFFFFFFF * 1000000000 + 999999999⟩
    let now : Instant := ⟨160, 1⟩
    let last : Instant := ⟨Instant.lastSecond, 999999999⟩
    (minute.size ≤ minute.retention.maxRecords ∧
        (∀ r ∈ minute.window.toList, r.timestamp.Regular) ∧ now.Regular ∧
        (minute.evictExpired now).1 = 2 ∧
        ((minute.evictExpired now).2.window.toList.map Record.id) = [3, 4] ∧
        (minute.evictExpired now).2.evictExpired now = (0, (minute.evictExpired now).2)) ∧
      (ever.size ≤ ever.retention.maxRecords ∧
        (∀ r ∈ ever.window.toList, r.timestamp.Regular) ∧ last.Regular ∧
        ever.retention.cutoff last = none ∧ (ever.evictExpired last).1 = 0) := by
  intro minute ever now last
  have hsize : minute.size ≤ minute.retention.maxRecords := by decide +kernel
  have hdated : ∀ r ∈ minute.window.toList, r.timestamp.Regular := by decide +kernel
  have hnow : now.Regular := by decide
  have hsize' : ever.size ≤ ever.retention.maxRecords := by decide +kernel
  have hdated' : ∀ r ∈ ever.window.toList, r.timestamp.Regular := by decide +kernel
  have hlast : last.Regular := by decide
  obtain ⟨hswept, hleft, hagain, -⟩ := evictExpired_exact minute hnow hsize hdated
  obtain ⟨hkept, -, -, -⟩ := evictExpired_exact ever hlast hsize' hdated'
  refine ⟨⟨hsize, hdated, hnow, ?_, ?_, hagain⟩, hsize', hdated', hlast, by decide +kernel, ?_⟩
  · rw [hswept]
    decide +kernel
  · rw [hleft]
    decide +kernel
  · rw [hkept]
    decide +kernel

end Store

end OrderTelemetry
