import Mathlib.Data.List.Basic
import OrderTelemetry.Proofs.Store.Run

/-! # The statistics of a window

Statistics are at hand without a scan: counts are kept up to date as records come and go, and the
sorted round-trip times behind the percentile are remembered with the generation of the window.

* `Totals.Counts`: totals that count the records of a list.  Records that leave a list it counts
  never bring a count below zero (`Totals.Counts.covers`).
* `Store.Current`: a remembered sample of the present generation is that of the window.
* `Store.stats_eq_scan`: after every run the statistics are those of a scan of the window. -/

namespace OrderTelemetry

/-! ### Counts -/

namespace Totals

/-- The totals count the records of a list. -/
structure Counts (t : Totals) (records : List Record) : Prop where
  count : t.count = records.length
  failed : t.failed = records.countP fun r => r.isFailure

/-- Records may leave one after the other, and no count is cut off at zero. -/
def Covers (t : Totals) : List Record → Prop
  | [] => True
  | r :: rest => 0 < t.count ∧ (r.isFailure = true → 0 < t.failed) ∧ (t.remove r).Covers rest

variable {t : Totals} {records rest : List Record} {r : Record}

theorem Counts.zero : zero.Counts [] := ⟨rfl, rfl⟩

theorem Counts.add (h : t.Counts records) : (t.add r).Counts (records ++ [r]) := by
  refine ⟨by simp [Totals.add, h.count], ?_⟩
  simp only [Totals.add, List.countP_append, List.countP_singleton, h.failed]
  split_ifs <;> rfl

theorem Counts.addAll (h : t.Counts records) (added : List Record) :
    (added.foldl Totals.add t).Counts (records ++ added) := by
  induction added generalizing t records with
  | nil => simpa using h
  | cons r rest ih =>
    have := ih (h.add (r := r))
    rwa [List.append_assoc] at this

theorem Counts.remove (h : t.Counts (r :: rest)) : (t.remove r).Counts rest := by
  have hcount := h.count
  have hfailed := h.failed
  rw [List.length_cons] at hcount
  rw [List.countP_cons] at hfailed
  refine ⟨by simp only [Totals.remove]; omega, ?_⟩
  simp only [Totals.remove]
  split_ifs with hr
  · rw [if_pos hr] at hfailed; omega
  · rw [if_neg hr] at hfailed; omega

/-- No count is cut off at zero while counted records leave. -/
theorem Counts.covers {gone : List Record} (h : t.Counts (gone ++ rest)) : t.Covers gone := by
  induction gone generalizing t with
  | nil => trivial
  | cons r gone ih =>
    refine ⟨?_, fun hr => ?_, ih h.remove⟩
    · rw [h.count]; simp
    · rw [h.failed]; simp [hr]

theorem Counts.drop (h : t.Counts records) (n : Nat) :
    ((records.take n).foldl Totals.remove t).Counts (records.drop n) := by
  induction n generalizing t records with
  | zero => exact h
  | succ n ih =>
    cases records with
    | nil => exact h
    | cons r rest => exact ih h.remove

theorem Counts.failed_le (h : t.Counts records) : t.failed ≤ t.count := by
  rw [h.failed, h.count]; exact List.countP_le_length

end Totals

/-! ### The percentile -/

namespace Percentile

/-- The 99th percentile of some values: the value of rank `⌈99 / 100 · n⌉` in ascending order, zero
if there is none. -/
def ninetyNinth (values : List Float) : Float :=
  (ascending values).getD ((99 * values.length + 99) / 100 - 1) 0.0

theorem ninetyNinth_nil : ninetyNinth [] = 0.0 := by
  simp [ninetyNinth, ascending]

theorem nearestRank_ascending (values : List Float) :
    nearestRank (ascending values).toArray 99.0 = ninetyNinth values := by
  have hhundredths : hundredths 99.0 = 9900 := by decide +kernel
  have hlength : (ascending values).length = values.length := List.length_mergeSort _
  unfold nearestRank ninetyNinth
  rw [hhundredths, Array.getD_eq_getD_getElem?, List.getElem?_toArray,
    List.getD_eq_getElem?_getD, List.size_toArray, hlength]
  cases hn : values.length with
  | zero => rw [List.getElem?_eq_none (by omega), List.getElem?_eq_none (by omega)]
  | succ n => rw [show rankOf (n + 1) 9900 = (99 * (n + 1) + 99) / 100 by unfold rankOf; omega]

end Percentile

/-! ### The scan -/

namespace Scan

theorem totals_foldl (records : List Record) (scan : Scan) :
    (records.foldl Scan.add scan).all.totals = records.foldl Totals.add scan.all.totals := by
  induction records generalizing scan with
  | nil => rfl
  | cons r rest ih => exact ih (scan.add r)

theorem rtts_foldl (records : List Record) (scan : Scan) :
    (records.foldl Scan.add scan).all.rtts.toList =
      scan.all.rtts.toList ++ records.map fun r => r.latencies.rtt := by
  induction records generalizing scan with
  | nil => simp
  | cons r rest ih =>
    rw [List.foldl_cons, ih]
    simp [Scan.add, Sample.add]

/-- A scan counts the records. -/
theorem counts_ofList (records : List Record) :
    (Scan.ofList records).all.totals.Counts records := by
  unfold ofList
  rw [totals_foldl]
  exact Totals.Counts.zero.addAll records

/-- A scan has the round-trip times of the records. -/
theorem sorted_ofList (records : List Record) :
    (Scan.ofList records).all.sorted =
      (Percentile.ascending (records.map fun r => r.latencies.rtt)).toArray := by
  unfold ofList Sample.sorted
  rw [rtts_foldl]
  rfl

end Scan

/-- What detailed statistics share with those that are always at hand. -/
theorem DetailedStats.ofRecords_shared {t : Totals} {records : List Record}
    (h : t.Counts records) :
    let rtts := records.map fun r => r.latencies.rtt
    let stats := t.toStats (Percentile.ninetyNinth rtts)
    stats.totalOrders = (DetailedStats.ofRecords records).totalOrders ∧
      stats.failedOrders = (DetailedStats.ofRecords records).failedOrders ∧
      stats.p99Rtt = (DetailedStats.ofRecords records).percentiles.p99 ∧
      stats.failureRate = (DetailedStats.ofRecords records).failureRate := by
  intro rtts stats
  cases hrecords : records with
  | nil =>
    subst hrecords
    refine ⟨h.count, h.failed, Percentile.ninetyNinth_nil, ?_⟩
    exact if_pos h.count
  | cons r rest =>
    have hscan := Scan.counts_ofList records
    have hcount : t.count = (Scan.ofList records).all.totals.count := by
      rw [h.count, hscan.count]
    have hfailed : t.failed = (Scan.ofList records).all.totals.failed := by
      rw [h.failed, hscan.failed]
    have hpos : t.count ≠ 0 := by
      rw [h.count, hrecords]
      exact Nat.succ_ne_zero _
    rw [← hrecords]
    have hdetails : DetailedStats.ofRecords records = (Scan.ofList records).details := by
      unfold DetailedStats.ofRecords
      rw [hrecords]
      rfl
    rw [hdetails]
    refine ⟨hcount, hfailed, ?_, ?_⟩
    · have hsorted := Scan.sorted_ofList records
      have hp99 : (Scan.ofList records).details.percentiles.p99 =
          Percentile.nearestRank (Scan.ofList records).all.sorted 99.0 := rfl
      rw [hp99, hsorted, Percentile.nearestRank_ascending]
      rfl
    · have hrate : stats.failureRate = percentage t.failed t.count := if_neg hpos
      rw [hrate, hcount, hfailed]
      rfl

namespace Store

/-- The round-trip times of the window, oldest first. -/
def rtts (s : Store) : List Float := s.window.toList.map fun r => r.latencies.rtt

/-! ### The remembered sample -/

/-- A remembered sample is not from a later generation, and one of the present generation has the
round-trip times of the window. -/
def Current (s : Store) : Prop :=
  ∀ sample, s.sample = some sample → sample.generation ≤ s.generation ∧
    (sample.generation = s.generation → sample.rtts = (Percentile.ascending s.rtts).toArray)

theorem Current.sortedSample {s : Store} (h : s.Current) :
    s.sortedSample = ⟨s.generation, (Percentile.ascending s.rtts).toArray⟩ := by
  unfold Store.sortedSample
  cases hsample : s.sample with
  | none => rfl
  | some sample =>
    obtain ⟨hle, hrtts⟩ := h sample hsample
    dsimp only
    by_cases hge : s.generation ≤ sample.generation
    · have heq : sample.generation = s.generation := by omega
      rw [if_pos hge, ← hrtts heq, ← heq]
    · rw [if_neg hge]; rfl

theorem Current.edit {s t : Store} (h : Edit s t) (hs : s.Current) : t.Current := by
  intro sample hsample
  cases h with
  | accept r hr =>
    have hle := (hs sample hsample).1
    refine ⟨Nat.le_succ_of_le hle, fun heq => ?_⟩
    have : sample.generation = s.generation + 1 := heq
    omega
  | raise next hnext => exact hs sample hsample
  | evict n =>
    obtain ⟨hle, hrtts⟩ := hs sample hsample
    rw [generation_evict]
    refine ⟨by omega, fun heq => ?_⟩
    -- The generation has not moved, so no record has left.
    have hgone : s.window.toList.take n = [] := by
      rw [← List.length_eq_zero_iff]
      omega
    have hsame : s.window.toList.drop n = s.window.toList := by
      conv_rhs => rw [← List.take_append_drop n s.window.toList, hgone, List.nil_append]
    unfold rtts
    rw [toList_evict, hsame]
    exact hrtts (by omega)
  | remember =>
    cases hsample
    rw [hs.sortedSample]
    exact ⟨Nat.le_refl _, fun _ => rfl⟩

/-! ### Runs -/

/-- The totals count the window, and the remembered sample is not out of date. -/
structure Accounted (s : Store) : Prop where
  totals : s.totals.Counts s.window.toList
  sample : s.Current

theorem Accounted.edit {s t : Store} (h : Edit s t) (hs : s.Accounted) : t.Accounted := by
  refine ⟨?_, hs.sample.edit h⟩
  cases h with
  | accept r hr => rw [toList_accept]; exact hs.totals.add
  | raise next hnext => exact hs.totals
  | evict n => rw [toList_evict, totals_evict]; exact hs.totals.drop n
  | remember => exact hs.totals

theorem accounted_run (p : Retention) (calls : List Call) : ((empty p).run calls).Accounted :=
  run_induction ⟨Totals.Counts.zero, fun _ h => by cases h⟩ (fun _ _ h => Accounted.edit h) calls

/-- A call appends its records and takes records off the front, and the totals follow. -/
theorem after_conserves (s : Store) (c : Call) :
    ∃ gone, s.window.toList ++ s.pushed c = gone ++ (s.after c).window.toList ∧
      (s.after c).totals = gone.foldl Totals.remove ((s.pushed c).foldl Totals.add s.totals) := by
  rcases s.after_cases c with ⟨now, -, h⟩ | ⟨-, ⟨-, h⟩ | ⟨hpushed, ⟨next, -, h⟩ | h⟩⟩
  · refine ⟨(s.window.toList ++ s.pushed c).take
      ((s.acceptAll (s.pushed c)).surplus now), ?_, ?_⟩
    · rw [h]; unfold enforce
      rw [toList_evict, toList_acceptAll, List.take_append_drop]
    · rw [h]; unfold enforce
      rw [totals_evict, toList_acceptAll, totals_acceptAll]
  · exact ⟨[], by rw [h, toList_acceptAll]; rfl, by rw [h, totals_acceptAll]; rfl⟩
  · exact ⟨[], by rw [h, hpushed, List.append_nil]; rfl, by rw [h, hpushed]; rfl⟩
  · exact ⟨[], by rw [h, hpushed, List.append_nil]; rfl, by rw [h, hpushed]; rfl⟩

theorem Accounted.stats {s : Store} (hs : s.Accounted) :
    s.stats.answer = .ok (s.totals.toStats (Percentile.ninetyNinth s.rtts)) := by
  unfold Store.stats
  rw [hs.sample.sortedSample]
  dsimp only
  rw [Percentile.nearestRank_ascending]

/-- **The statistics are those of a scan.**  After every run they are the number of retained
records, the number of the failures among them and the 99th percentile of their round-trip times,
just as without a remembered sample and as in the detailed statistics.  Whatever the next call is,
no count is cut off at zero when it takes records off the front. -/
theorem stats_eq_scan (p : Retention) (calls : List Call) :
    let s := (empty p).run calls
    let records := s.window.toList
    ∃ stats : Stats, s.stats.answer = .ok stats ∧
      (stats.totalOrders = records.length ∧
        stats.failedOrders = records.countP (fun r => r.isFailure) ∧
        stats.failedOrders ≤ stats.totalOrders ∧
        stats.p99Rtt = Percentile.ninetyNinth (records.map fun r => r.latencies.rtt)) ∧
      ({ s with sample := none } : Store).stats.answer = .ok stats ∧
      (stats.totalOrders = s.detailedStats.totalOrders ∧
        stats.failedOrders = s.detailedStats.failedOrders ∧
        stats.p99Rtt = s.detailedStats.percentiles.p99 ∧
        stats.failureRate = s.detailedStats.failureRate) ∧
      ∀ c, ∃ gone, records ++ s.pushed c = gone ++ (s.after c).window.toList ∧
        (s.after c).totals = gone.foldl Totals.remove ((s.pushed c).foldl Totals.add s.totals) ∧
        ((s.pushed c).foldl Totals.add s.totals).Covers gone := by
  intro s records
  have hs : s.Accounted := accounted_run p calls
  have hforgotten : ({ s with sample := none } : Store).Accounted :=
    ⟨hs.totals, fun _ h => by cases h⟩
  refine ⟨_, hs.stats, ⟨hs.totals.count, hs.totals.failed, hs.totals.failed_le, rfl⟩,
    hforgotten.stats, DetailedStats.ofRecords_shared hs.totals, fun c => ?_⟩
  obtain ⟨gone, hwindow, htotals⟩ := s.after_conserves c
  refine ⟨gone, hwindow, htotals, ?_⟩
  have hadded := hs.totals.addAll (s.pushed c)
  rw [hwindow] at hadded
  exact hadded.covers

end Store

end OrderTelemetry
