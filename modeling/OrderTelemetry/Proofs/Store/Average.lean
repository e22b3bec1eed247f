import OrderTelemetry.Proofs.Stats.Drift
import OrderTelemetry.Proofs.Store.Ids

/-! # The average of a window

The average that is always at hand comes from a running sum, and that of the detailed statistics
from a sum over the window.  The two stay within twice of each other as long as the window never
held so much that the roundings of the running sum come to a share of what it holds now: the number
of records that have come or gone, times the largest sum that there has been, must not exceed the
present sum by a factor of more than `2 ^ 48`.  Beyond that, records that leave the window may take
the times of those that are left with them (`avgRtt_forgets`).

* `Store.peak`: the largest sum that a run brings into the window.
* `Store.Followed`: the running sum of a store is off by a rounding for each change of the window.
* `Store.avgRtt_within_twice`: the average follows the window. -/

namespace OrderTelemetry

open Double

namespace Store

/-- The largest sum of round-trip times that some calls bring into the window at once. -/
def peak (s : Store) : List Call → ℚ
  | [] => 0
  | c :: rest => max (exactSum (s.window.toList ++ s.pushed c)) ((s.after c).peak rest)

theorem peak_nonneg (s : Store) (calls : List Call) : 0 ≤ s.peak calls := by
  induction calls generalizing s with
  | nil => exact le_rfl
  | cons c rest ih => exact le_max_of_le_right (ih (s.after c))

/-- The running sum is off by a rounding for each record that has come or gone. -/
def Followed (s : Store) (bound : ℚ) : Prop :=
  s.totals.Follows s.window.toList bound s.generation

variable {s : Store} {bound : ℚ}

/-! ### One call -/

theorem generation_le_after (s : Store) (c : Call) :
    s.generation + (s.pushed c).length ≤ (s.after c).generation := by
  rcases s.after_cases c with ⟨now, -, h⟩ | ⟨-, ⟨-, h⟩ | ⟨hpushed, ⟨next, -, h⟩ | h⟩⟩
  · rw [h, enforce, generation_evict, generation_acceptAll]
    omega
  · rw [h, generation_acceptAll]
  · rw [h, hpushed]
    rfl
  · rw [h, hpushed]
    rfl

theorem generation_le_run (s : Store) (calls : List Call) :
    s.generation ≤ (s.run calls).generation := by
  induction calls generalizing s with
  | nil => exact Nat.le_refl _
  | cons c rest ih =>
    have hfirst := s.generation_le_after c
    have hrest := ih (s.after c)
    rw [run_cons]
    omega

/-- The sum of a window is not larger than before records have left it. -/
theorem exactSum_after {c : Call} (hwindow : ∀ r ∈ s.window.toList, r.Measured)
    (hpushed : ∀ r ∈ s.pushed c, r.Measured) :
    (∀ r ∈ (s.after c).window.toList, r.Measured) ∧
      exactSum (s.after c).window.toList ≤ exactSum (s.window.toList ++ s.pushed c) := by
  obtain ⟨gone, hconserved, -⟩ := s.after_conserves c
  have hall := List.forall_mem_append.mpr ⟨hwindow, hpushed⟩
  rw [hconserved] at hall ⊢
  obtain ⟨hgone, hkept⟩ := List.forall_mem_append.mp hall
  rw [exactSum_append]
  exact ⟨hkept, le_add_of_nonneg_left (exactSum_nonneg hgone)⟩

theorem exactSum_run_le {calls : List Call} (hwindow : ∀ r ∈ s.window.toList, r.Measured)
    (hle : exactSum s.window.toList ≤ bound) (hmeasured : ∀ r ∈ s.history calls, r.Measured)
    (hpeak : s.peak calls ≤ bound) : exactSum (s.run calls).window.toList ≤ bound := by
  induction calls generalizing s with
  | nil => exact hle
  | cons c rest ih =>
    obtain ⟨hfirst, hrest⟩ := List.forall_mem_append.mp hmeasured
    obtain ⟨hpushed, hpeak⟩ := max_le_iff.mp hpeak
    obtain ⟨hkept, hsum⟩ := exactSum_after hwindow hfirst
    exact ih hkept (hsum.trans hpushed) hrest hpeak

theorem Accounted.edits {t : Store} (h : Edits s t) (hs : s.Accounted) : t.Accounted := by
  induction h with
  | refl => exact hs
  | tail _ hlast ih => exact ih.edit hlast

section Calls
variable (hbound : bound < 2 ^ 1000)
include hbound

theorem Followed.acceptAll {records : List Record} (h : s.Followed bound)
    (hmeasured : ∀ r ∈ records, r.Measured) (hle : exactSum (s.window.toList ++ records) ≤ bound)
    (hn : bound = 0 ∨ (s.acceptAll records).generation ≤ 2 ^ 51) :
    (s.acceptAll records).Followed bound := by
  unfold Followed
  rw [generation_acceptAll] at hn ⊢
  rw [toList_acceptAll, totals_acceptAll]
  exact Totals.Follows.addAll hbound h hmeasured hle hn

theorem Followed.evict (h : s.Followed bound) (hcounts : s.totals.Counts s.window.toList) {n : Nat}
    (hn : bound = 0 ∨ (s.evict n).generation ≤ 2 ^ 51) : (s.evict n).Followed bound := by
  unfold Followed at h ⊢
  rw [generation_evict] at hn ⊢
  rw [toList_evict, totals_evict]
  rw [← List.take_append_drop n s.window.toList] at h hcounts
  exact h.removeAll hbound hcounts hn

theorem Followed.after {c : Call} (h : s.Followed bound) (hs : s.Accounted)
    (hmeasured : ∀ r ∈ s.pushed c, r.Measured)
    (hle : exactSum (s.window.toList ++ s.pushed c) ≤ bound)
    (hn : bound = 0 ∨ (s.after c).generation ≤ 2 ^ 51) : (s.after c).Followed bound := by
  rcases s.after_cases c with ⟨now, -, hafter⟩ | ⟨-, ⟨-, hafter⟩ | ⟨-, ⟨next, -, hafter⟩ | hafter⟩⟩
  · rw [hafter] at hn ⊢
    have haccepted : bound = 0 ∨ (s.acceptAll (s.pushed c)).generation ≤ 2 ^ 51 := by
      rw [enforce, generation_evict] at hn
      exact hn.imp_right (by omega)
    refine (h.acceptAll hbound hmeasured hle haccepted).evict hbound ?_ hn
    rw [toList_acceptAll, totals_acceptAll]
    exact hs.totals.addAll (s.pushed c)
  · rw [hafter] at hn ⊢
    exact h.acceptAll hbound hmeasured hle hn
  · rw [hafter]
    exact h
  · rw [hafter]
    exact h

/-! ### Runs -/

theorem Followed.run {calls : List Call} (h : s.Followed bound) (hs : s.Accounted)
    (hmeasured : ∀ r ∈ s.history calls, r.Measured) (hpeak : s.peak calls ≤ bound)
    (hn : bound = 0 ∨ (s.run calls).generation ≤ 2 ^ 51) : (s.run calls).Followed bound := by
  induction calls generalizing s with
  | nil => exact h
  | cons c rest ih =>
    obtain ⟨hfirst, hrest⟩ := List.forall_mem_append.mp hmeasured
    obtain ⟨hle, hpeak⟩ := max_le_iff.mp hpeak
    have hgeneration := (s.after c).generation_le_run rest
    exact ih (h.after hbound hs hfirst hle (hn.imp_right hgeneration.trans))
      (hs.edits (s.after_edits c)) hrest hpeak hn

end Calls

theorem followed_run (p : Retention) (calls : List Call)
    (hmeasured : ∀ r ∈ (empty p).history calls, r.Measured)
    (hpeak : (empty p).peak calls < 2 ^ 1000)
    (hn : (empty p).peak calls = 0 ∨ ((empty p).run calls).generation ≤ 2 ^ 51) :
    ((empty p).run calls).Followed ((empty p).peak calls) :=
  Followed.run hpeak (.zero (peak_nonneg _ calls)) (accounted_run p []) hmeasured le_rfl hn

/-- No more records are in the window than have entered it. -/
theorem length_le_generation (p : Retention) (calls : List Call) :
    ((empty p).run calls).window.toList.length ≤ ((empty p).run calls).generation := by
  refine run_induction (I := fun s => s.window.toList.length ≤ s.generation) (Nat.le_refl 0)
    (fun s t h hs => ?_) calls
  cases h with
  | accept r hr =>
    rw [toList_accept, List.length_append]
    exact Nat.succ_le_succ hs
  | raise next hnext => exact hs
  | evict n =>
    rw [toList_evict, generation_evict, List.length_drop]
    omega
  | remember => exact hs

/-! ### Both averages -/

/-- The average of the detailed statistics comes from a sum over the window. -/
theorem avgRtt_detailedStats (s : Store) :
    s.detailedStats.avgRtt = (s.window.toList.foldl Totals.add .zero).avgRtt := by
  unfold detailedStats DetailedStats.ofRecords
  cases hwindow : s.window.toList with
  | nil => rfl
  | cons r rest => exact congrArg Totals.avgRtt (Scan.totals_foldl (r :: rest) .zero)

/-- **The average follows the window** as long as the roundings of the running sum come to little
beside what is left in the window. -/
theorem avgRtt_within_twice (p : Retention) (calls : List Call)
    (hmeasured : ∀ r ∈ (empty p).history calls, r.Measured)
    (hpeak : (empty p).peak calls < 2 ^ 999) :
    let s := (empty p).run calls
    s.window.size < 2 ^ 64 →
      s.generation * (empty p).peak calls ≤ 2 ^ 48 * exactSum s.window.toList →
        ∃ stats : Stats, s.stats.answer = .ok stats ∧
          stats.avgRtt.isFinite = true ∧ s.detailedStats.avgRtt.isFinite = true ∧
          value s.detailedStats.avgRtt / 2 ≤ value stats.avgRtt ∧
          value stats.avgRtt ≤ 2 * value s.detailedStats.avgRtt := by
  intro s hsize hweight
  have hpositive := peak_nonneg (empty p) calls
  have htotal : exactSum s.window.toList ≤ (empty p).peak calls :=
    exactSum_run_le (List.forall_mem_nil _) hpositive hmeasured le_rfl
  have hfew : (empty p).peak calls = 0 ∨ s.generation ≤ 2 ^ 48 :=
    hpositive.eq_or_lt.imp Eq.symm fun hpos => Totals.few_of_weight hweight htotal hpos
  have hbound : (empty p).peak calls < 2 ^ 1000 :=
    hpeak.trans (pow_lt_pow_right₀ one_lt_two (by decide))
  have hs : s.Accounted := accounted_run p calls
  have hfollowed : s.Followed ((empty p).peak calls) :=
    followed_run p calls hmeasured hbound (hfew.imp_right fun h => h.trans (by decide))
  have hlength : s.window.toList.length ≤ s.generation := length_le_generation p calls
  have hzero : Totals.zero.Follows [] ((empty p).peak calls) 0 := .zero hpositive
  have hscan : (s.window.toList.foldl Totals.add .zero).Follows s.window.toList
      ((empty p).peak calls) s.generation :=
    (hzero.addAll hbound hfollowed.measured hfollowed.le_bound
      (hfew.imp_right (by omega))).mono (by omega)
  have hcounted : s.totals.count = s.window.toList.length := hs.totals.count
  have hsame : (s.window.toList.foldl Totals.add .zero).count = s.totals.count := by
    rw [(Totals.Counts.zero.addAll s.window.toList).count, hcounted]
    rfl
  refine ⟨_, hs.stats, ?_⟩
  rw [avgRtt_detailedStats]
  refine hfollowed.avgRtt_alike hscan hsame hweight (hcounted.trans_le hlength) ?_ hpeak
  rw [hcounted, Array.length_toList]
  exact hsize

/-- Two insertions into a window of one record. -/
def displacing (first last : Float) : List Call :=
  [.insert (roundTrip first) ⟨101, 0⟩, .insert (roundTrip last) ⟨102, 0⟩]

/-- A record that has left the window does not show in the average if its time was like that of the
record that is left. -/
theorem avgRtt_within_twice_displacing :
    let calls := displacing 3.0 1.0
    let s := (empty ⟨1, none⟩).run calls
    (∀ r ∈ (empty ⟨1, none⟩).history calls, r.Measured) ∧ (empty ⟨1, none⟩).peak calls = 4 ∧
      s.generation = 3 ∧ exactSum s.window.toList = 1 ∧
      ∃ stats : Stats, s.stats.answer = .ok stats ∧
        stats.avgRtt.isFinite = true ∧ s.detailedStats.avgRtt.isFinite = true ∧
        value s.detailedStats.avgRtt / 2 ≤ value stats.avgRtt ∧
        value stats.avgRtt ≤ 2 * value s.detailedStats.avgRtt := by
  intro calls s
  have hone : value 1.0 = 1 := by
    show ((2 ^ 52 : ℤ) : ℚ) * 2 ^ (-52 : ℤ) = 1
    norm_num
  have hthree : value 3.0 = 3 := by
    show ((3 * 2 ^ 51 : ℤ) : ℚ) * 2 ^ (-51 : ℤ) = 3
    norm_num
  have hhistory : (empty ⟨1, none⟩).history calls =
      [(roundTrip 3.0).withId 1, (roundTrip 1.0).withId 2] := by decide +kernel
  have hwindow : s.window.toList = [(roundTrip 1.0).withId 2] := by decide +kernel
  have hmeasured : ∀ r ∈ (empty ⟨1, none⟩).history calls, r.Measured := by
    rw [hhistory]
    decide +kernel
  have hpeak : (empty ⟨1, none⟩).peak calls = 4 := by
    have hfirst : (empty ⟨1, none⟩).window.toList ++
        (empty ⟨1, none⟩).pushed (.insert (roundTrip 3.0) ⟨101, 0⟩) =
          [(roundTrip 3.0).withId 1] := by decide +kernel
    have hlast : ((empty ⟨1, none⟩).after (.insert (roundTrip 3.0) ⟨101, 0⟩)).window.toList ++
        ((empty ⟨1, none⟩).after (.insert (roundTrip 3.0) ⟨101, 0⟩)).pushed
          (.insert (roundTrip 1.0) ⟨102, 0⟩) =
            [(roundTrip 3.0).withId 1, (roundTrip 1.0).withId 2] := by decide +kernel
    simp only [calls, displacing, peak, hfirst, hlast]
    simp only [exactSum, List.map_cons, List.map_nil, Draft.withId, roundTrip, hone, hthree]
    norm_num
  have hgeneration : s.generation = 3 := by decide +kernel
  have htotal : exactSum s.window.toList = 1 := by
    rw [hwindow]
    simpa [exactSum, Draft.withId, roundTrip] using hone
  refine ⟨hmeasured, hpeak, hgeneration, htotal, avgRtt_within_twice ⟨1, none⟩ calls hmeasured
    ?_ ?_ ?_⟩
  · rw [hpeak, show (4 : ℚ) = 2 ^ 2 by norm_num]
    exact pow_lt_pow_right₀ one_lt_two (by decide)
  · decide +kernel
  · rw [hpeak, hgeneration, htotal]
    norm_num

/-- **A record that leaves the window may take the time of the other one with it.** -/
theorem avgRtt_forgets :
    let s := (empty ⟨1, none⟩).run (displacing 1e300 1.0)
    s.window.toList = [(roundTrip 1.0).withId 2] ∧ s.detailedStats.avgRtt = 1.0 ∧
      ∃ stats : Stats, s.stats.answer = .ok stats ∧ stats.avgRtt = 0.0 := by
  intro s
  have hs : s.Accounted := accounted_run ⟨1, none⟩ (displacing 1e300 1.0)
  exact ⟨by decide +kernel, by decide +kernel, _, hs.stats, by decide +kernel⟩

end Store

end OrderTelemetry
