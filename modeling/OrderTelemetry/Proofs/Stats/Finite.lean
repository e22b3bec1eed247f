import OrderTelemetry.Proofs.Decimal.Magnitude
import OrderTelemetry.Proofs.Stats.Wire
import OrderTelemetry.Proofs.Store.Statistics

/-! # Which statistics are finite

The latencies of records are finite, and so are the percentiles, which are among them, and the
shares, whose counts have sixty-four bits.  A mean is not: the sum behind it may be infinite
although no latency is.  So detailed statistics are finite as far as their means are
(`DetailedStats.all_doubles`).

* `Sample.Holds`: a sample is that of some records.
* `Scan.Covers`: what a scan gathers comes from records that it has seen. -/

namespace OrderTelemetry

variable {records : List Record} {r : Record}

/-! ### Percentiles -/

/-- A percentile is one of the values, or zero if there is none. -/
theorem Percentile.forall_nearestRank {P : Float → Prop} {values : List Float} (hzero : P 0.0)
    (h : ∀ x ∈ values, P x) (percentage : Float) :
    P (nearestRank (ascending values).toArray percentage) := by
  unfold nearestRank
  rw [Array.getD_eq_getD_getElem?, List.getElem?_toArray]
  cases hget : (ascending values)[rankOf _ _ - 1]? with
  | none => exact hzero
  | some x => exact h x (List.mem_mergeSort.mp (List.mem_of_getElem? hget))

/-! ### Samples -/

/-- A sample is that of some records. -/
structure Sample.Holds (s : Sample) (records : List Record) : Prop where
  totals : s.totals.Counts records
  rtts : s.rtts.toList = records.map fun r => r.latencies.rtt

namespace Sample.Holds

variable {s : Sample}

theorem zero : Sample.zero.Holds [] := ⟨Totals.Counts.zero, rfl⟩

theorem add (h : s.Holds records) : (s.add r).Holds (records ++ [r]) :=
  ⟨h.totals.add, by simp [Sample.add, h.rtts]⟩

theorem forall_nearestRank {P : Float → Prop} (h : s.Holds records) (hzero : P 0.0)
    (hrtt : ∀ r ∈ records, P r.latencies.rtt) (percentage : Float) :
    P (Percentile.nearestRank s.sorted percentage) := by
  unfold Sample.sorted
  rw [h.rtts]
  exact Percentile.forall_nearestRank hzero (List.forall_mem_map.mpr hrtt) percentage

end Sample.Holds

/-! ### Scans -/

/-- What a scan has gathered comes from records that it has seen. -/
structure Scan.Covers (s : Scan) (records : List Record) : Prop where
  all : s.all.Holds records
  under100 : s.under100 ≤ records.length
  under150 : s.under150 ≤ records.length
  under200 : s.under200 ≤ records.length
  brokers : ∀ b ∈ s.brokers, ∃ own, own.Sublist records ∧ b.2.Holds own

/-- A record joins the sample of its broker, and the other samples stay. -/
theorem holds_addToBroker {brokers : List (String × Sample)}
    (h : ∀ b ∈ brokers, ∃ own, own.Sublist records ∧ b.2.Holds own) :
    ∀ b ∈ addToBroker r brokers, ∃ own, own.Sublist (records ++ [r]) ∧ b.2.Holds own := by
  have hfresh : ∃ own, own.Sublist (records ++ [r]) ∧ (Sample.zero.add r).Holds own :=
    ⟨[r], List.sublist_append_right records [r], Sample.Holds.zero.add⟩
  have hold : ∀ b : String × Sample, (∃ own, own.Sublist records ∧ b.2.Holds own) →
      ∃ own, own.Sublist (records ++ [r]) ∧ b.2.Holds own := by
    rintro b ⟨own, hsub, hown⟩
    exact ⟨own, hsub.trans (List.sublist_append_left records [r]), hown⟩
  induction brokers with
  | nil => simpa [addToBroker] using hfresh
  | cons b rest ih =>
    rw [List.forall_mem_cons] at h
    obtain ⟨⟨own, hsub, hown⟩, hrest⟩ := h
    unfold addToBroker
    split_ifs with hbefore hsame
    · exact List.forall_mem_cons.mpr ⟨hfresh, List.forall_mem_cons.mpr
        ⟨hold b ⟨own, hsub, hown⟩, fun b hb => hold b (hrest b hb)⟩⟩
    · exact List.forall_mem_cons.mpr
        ⟨⟨own ++ [r], hsub.append (List.Sublist.refl [r]), hown.add⟩,
          fun b hb => hold b (hrest b hb)⟩
    · exact List.forall_mem_cons.mpr ⟨hold b ⟨own, hsub, hown⟩, ih hrest⟩

namespace Scan

variable {s : Scan}

theorem countUnder_le (bound latency : Float) (n : Nat) : countUnder bound latency n ≤ n + 1 := by
  unfold countUnder
  split_ifs <;> omega

theorem Covers.zero : Scan.zero.Covers [] :=
  ⟨.zero, Nat.le_refl _, Nat.le_refl _, Nat.le_refl _, fun _ hb => (List.not_mem_nil hb).elim⟩

theorem Covers.add (h : s.Covers records) : (s.add r).Covers (records ++ [r]) := by
  have hlength : (records ++ [r]).length = records.length + 1 := by simp
  have hunder (bound : Float) {n : Nat} (hn : n ≤ records.length) :
      countUnder bound r.latencies.total n ≤ (records ++ [r]).length := by
    have := countUnder_le bound r.latencies.total n
    omega
  exact ⟨h.all.add, hunder 100.0 h.under100, hunder 150.0 h.under150, hunder 200.0 h.under200,
    holds_addToBroker h.brokers⟩

theorem Covers.addAll (h : s.Covers records) (added : List Record) :
    (added.foldl Scan.add s).Covers (records ++ added) := by
  induction added generalizing s records with
  | nil => simpa using h
  | cons r rest ih =>
    have hrest := ih (h.add (r := r))
    rwa [List.append_assoc] at hrest

/-- **A scan covers the records that it is of.** -/
theorem covers_ofList (records : List Record) : (ofList records).Covers records :=
  Covers.zero.addAll records

end Scan

/-! ### Detailed statistics -/

namespace DetailedStats

/-- The means among detailed statistics. -/
def means (s : DetailedStats) : List Float :=
  [s.avgRtt, s.avgTotal, s.avgOverhead] ++ s.brokers.map BrokerStats.avgRtt

/-- The shares among detailed statistics. -/
def shares (s : DetailedStats) : List Float := s.failureRate :: s.sla.doubles

theorem mem_doubles_of_mem_means {s : DetailedStats} {x : Float} (h : x ∈ s.means) :
    x ∈ s.doubles := by
  simp only [means, List.mem_append, List.mem_cons, List.mem_map] at h
  simp only [doubles, List.mem_append, List.mem_cons, List.mem_flatMap]
  rcases h with (rfl | rfl | rfl | h) | ⟨b, hb, rfl⟩
  · exact .inl (.inr (.inl rfl))
  · exact .inl (.inr (.inr (.inl rfl)))
  · exact .inl (.inr (.inr (.inr (.inl rfl))))
  · exact (List.not_mem_nil h).elim
  · exact .inr (.inr (.inr ⟨b, hb, List.mem_cons_self⟩))

/-- The statistics of a broker are those of some of the records. -/
theorem exists_sample_of_mem_brokers {b : BrokerStats} (hb : b ∈ (ofRecords records).brokers) :
    ∃ sample : Sample, b = sample.brokerStats b.broker ∧
      ∃ own, own.Sublist records ∧ sample.Holds own := by
  by_cases hrecords : records.isEmpty = true
  · rw [show ofRecords records = empty from if_pos hrecords] at hb
    exact (List.not_mem_nil hb).elim
  · rw [show ofRecords records = (Scan.ofList records).details from if_neg hrecords] at hb
    obtain ⟨⟨broker, sample⟩, hmem, rfl⟩ := List.mem_map.mp hb
    exact ⟨sample, rfl, (Scan.covers_ofList records).brokers _ hmem⟩

/-- The counts of detailed statistics are those of parts of the records. -/
theorem counts_le (records : List Record) :
    let d := ofRecords records
    d.totalOrders ≤ records.length ∧ d.failedOrders ≤ records.length ∧
      ∀ b ∈ d.brokers, b.totalOrders ≤ records.length ∧ b.failedOrders ≤ records.length := by
  intro d
  have hcounts {t : Totals} {own : List Record} (h : t.Counts own) (hsub : own.Sublist records) :
      t.count ≤ records.length ∧ t.failed ≤ records.length := by
    have hlength := hsub.length_le
    have hfailed := h.failed_le
    have hcount := h.count
    omega
  have hall : d.totalOrders ≤ records.length ∧ d.failedOrders ≤ records.length := by
    by_cases hrecords : records.isEmpty = true
    · rw [show d = empty from if_pos hrecords]
      exact ⟨Nat.zero_le _, Nat.zero_le _⟩
    · rw [show d = (Scan.ofList records).details from if_neg hrecords]
      exact hcounts (Scan.covers_ofList records).all.totals (List.Sublist.refl records)
  refine ⟨hall.1, hall.2, fun b hb => ?_⟩
  -- a broker's sample is of a sublist of the records, which is not longer
  obtain ⟨sample, hsample, own, hsub, hown⟩ := exists_sample_of_mem_brokers hb
  rw [hsample]
  exact hcounts hown.totals hsub

/-- The shares are finite. -/
theorem isFinite_shares (hlength : records.length < 2 ^ 64) :
    ∀ x ∈ (ofRecords records).shares, x.isFinite = true := by
  by_cases hrecords : records.isEmpty = true
  · rw [show ofRecords records = empty from if_pos hrecords]
    decide +kernel
  · have hpos : 0 < records.length := by
      rw [List.length_pos_iff]
      simpa using hrecords
    have hcovers := Scan.covers_ofList records
    have hshare {part : Nat} (hpart : part ≤ records.length) :
        (percentage part (Scan.ofList records).all.totals.count).isFinite = true := by
      rw [hcovers.all.totals.count]
      exact Double.isFinite_percentage (by omega) hpos hlength
    have hfailed := hcovers.all.totals.failed_le
    rw [hcovers.all.totals.count] at hfailed
    rw [show ofRecords records = (Scan.ofList records).details from if_neg hrecords]
    simp only [shares, SlaShares.doubles, Scan.details, List.forall_mem_cons]
    exact ⟨hshare hfailed, hshare hcovers.under100, hshare hcovers.under150,
      hshare hcovers.under200, fun _ hx => (List.not_mem_nil hx).elim⟩

/-- The doubles of detailed statistics are means, shares and round-trip times. -/
theorem forall_doubles {P : Float → Prop} (hzero : P 0.0)
    (hrtt : ∀ r ∈ records, P r.latencies.rtt) (hmeans : ∀ x ∈ (ofRecords records).means, P x)
    (hshares : ∀ x ∈ (ofRecords records).shares, P x) :
    ∀ x ∈ (ofRecords records).doubles, P x := by
  simp only [means, shares, List.forall_mem_append, List.forall_mem_cons] at hmeans hshares
  obtain ⟨⟨havg, htotal, hoverhead, -⟩, hbrokers⟩ := hmeans
  simp only [doubles, List.forall_mem_append, List.forall_mem_cons]
  refine ⟨⟨hshares.1, havg, htotal, hoverhead, fun _ hx => (List.not_mem_nil hx).elim⟩,
    ?_, hshares.2, ?_⟩
  · by_cases hrecords : records.isEmpty = true
    · rw [show ofRecords records = empty from if_pos hrecords]
      simp [Percentiles.doubles, empty, hzero]
    · rw [show ofRecords records = (Scan.ofList records).details from if_neg hrecords]
      have hrank := (Scan.covers_ofList records).all.forall_nearestRank hzero hrtt
      simp [Percentiles.doubles, Scan.details, hrank]
  · rw [List.forall_mem_flatMap]
    intro b hb
    have hmean : P b.avgRtt := hbrokers _ (List.mem_map_of_mem hb)
    obtain ⟨sample, hsample, own, hsub, hown⟩ := exists_sample_of_mem_brokers hb
    have hp99 : P b.p99Rtt := by
      rw [hsample]
      exact hown.forall_nearestRank hzero (fun r hr => hrtt r (hsub.subset hr)) 99.0
    exact List.forall_mem_cons.mpr ⟨hmean, List.forall_mem_singleton.mpr hp99⟩

/-- **Detailed statistics are finite if their means are.**  Percentiles and shares always are. -/
theorem all_doubles (hfinite : ∀ r ∈ records, r.latencies.rtt.isFinite = true)
    (hlength : records.length < 2 ^ 64) :
    (ofRecords records).doubles.all Float.isFinite =
      (ofRecords records).means.all Float.isFinite := by
  rw [Bool.eq_iff_iff, List.all_eq_true, List.all_eq_true]
  constructor
  · exact fun h x hx => h x (mem_doubles_of_mem_means hx)
  · exact fun h => forall_doubles (by decide +kernel) hfinite h (isFinite_shares hlength)

end DetailedStats

end OrderTelemetry
