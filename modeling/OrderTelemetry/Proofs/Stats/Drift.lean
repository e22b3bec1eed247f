import OrderTelemetry.Proofs.Decimal.Value
import OrderTelemetry.Proofs.Store.Statistics

/-! # How far a running sum drifts

The sum of the round-trip times is a double to which records are added as they enter and from which
they are subtracted as they leave.  Either step rounds, by a last place of the largest sum that
there has been, and what is rounded away does not come back with the record that caused it.  So the
sum of a window that once held a very large time may have nothing to do with the times that are left
in it.

* `exactSum`: the sum of the numbers that the round-trip times stand for.
* `Totals.Follows`: the running sum is off by no more than a number of roundings.
* `Totals.Follows.add`, `Totals.Follows.remove`: either step is one more.
* `Totals.Follows.avgRtt_alike`: what this leaves of the average. -/

namespace OrderTelemetry

open Double

/-- The round-trip time is finite and not below zero. -/
def Record.Measured (r : Record) : Prop :=
  r.latencies.rtt.isFinite = true ∧ ¬ r.latencies.rtt < 0.0

instance (r : Record) : Decidable r.Measured := inferInstanceAs (Decidable (_ ∧ _))

/-- The sum of the numbers that the round-trip times of some records stand for. -/
def exactSum (records : List Record) : ℚ := (records.map fun r => value r.latencies.rtt).sum

theorem exactSum_append (first last : List Record) :
    exactSum (first ++ last) = exactSum first + exactSum last := by
  unfold exactSum
  rw [List.map_append, List.sum_append]

theorem exactSum_cons (r : Record) (rest : List Record) :
    exactSum (r :: rest) = value r.latencies.rtt + exactSum rest := List.sum_cons

theorem exactSum_nonneg {records : List Record} (h : ∀ r ∈ records, r.Measured) :
    0 ≤ exactSum records := by
  refine List.sum_nonneg fun x hx => ?_
  obtain ⟨r, hr, rfl⟩ := List.mem_map.mp hx
  exact value_nonneg (h r hr).2

/-- What one rounding of a sum up to a bound may come to, which is nothing if the sum is so small
that its last place is the least of all. -/
def slack (bound : ℚ) : ℚ := if bound < 2 ^ (-1021 : ℤ) then 0 else bound / 2 ^ 51

theorem slack_le {bound : ℚ} (h : 0 ≤ bound) : 0 ≤ slack bound ∧ slack bound ≤ bound / 2 ^ 51 := by
  unfold slack
  split_ifs
  · exact ⟨le_rfl, by positivity⟩
  · exact ⟨by positivity, le_rfl⟩

namespace Totals

/-- The sum is off by `n` roundings at most, where a rounding is one of sums up to a bound. -/
structure Follows (t : Totals) (records : List Record) (bound : ℚ) (n : Nat) : Prop where
  measured : ∀ r ∈ records, r.Measured
  le_bound : exactSum records ≤ bound
  finite : t.rttSum.isFinite = true
  near : |value t.rttSum - exactSum records| ≤ n * slack bound

variable {t : Totals} {records rest : List Record} {r : Record} {bound : ℚ} {n : Nat}

/-! ### One step -/

theorem Follows.zero (hbound : 0 ≤ bound) : zero.Follows [] bound 0 where
  measured := List.forall_mem_nil _
  le_bound := hbound
  finite := by decide +kernel
  near := by
    rw [show value Totals.zero.rttSum = 0 from rfl]
    simp [exactSum]

theorem Follows.mono {n' : Nat} (h : t.Follows records bound n) (hn : n ≤ n') :
    t.Follows records bound n' where
  measured := h.measured
  le_bound := h.le_bound
  finite := h.finite
  near := by
    have hslack := slack_le ((exactSum_nonneg h.measured).trans h.le_bound)
    exact h.near.trans (mul_le_mul_of_nonneg_right (by exact_mod_cast hn) hslack.1)

section Steps
variable (hbound : bound < 2 ^ 1000) (hn : bound = 0 ∨ n ≤ 2 ^ 51)
include hbound hn

/-- A number that is off by some roundings is not too large, and off by one more once it has been
rounded. -/
theorem rounded_once {a c exact : ℚ} (hexact : |exact| ≤ bound)
    (ha : |a - exact| ≤ n * slack bound) :
    |a| < 2 ^ 1022 ∧ (Near c a → |c - exact| ≤ (n + 1 : Nat) * slack bound) := by
  have hpos : 0 ≤ bound := (abs_nonneg _).trans hexact
  have hoff : n * slack bound ≤ 2 ^ 51 * (bound / 2 ^ 51) := by
    refine (mul_le_mul_of_nonneg_left (slack_le hpos).2 (Nat.cast_nonneg n)).trans ?_
    rcases hn with rfl | hn
    · simp
    · exact mul_le_mul_of_nonneg_right (by exact_mod_cast hn) (by positivity)
  have hsize : |a| ≤ 2 * bound := by
    have hsplit := abs_add_le (a - exact) exact
    rw [sub_add_cancel] at hsplit
    linarith
  refine ⟨?_, fun hc => ?_⟩
  · calc |a| ≤ 2 * bound := hsize
      _ < 2 * 2 ^ 1000 := mul_lt_mul_of_pos_left hbound two_pos
      _ = 2 ^ 1001 := (pow_succ' 2 1000).symm
      _ ≤ 2 ^ 1022 := pow_le_pow_right₀ one_le_two (by decide)
  · by_cases hsmall : bound < 2 ^ (-1021 : ℤ)
    · -- nothing has been rounded so far, and nothing is now
      rw [show slack bound = 0 from if_pos hsmall, mul_zero] at ha ⊢
      obtain rfl : a = exact := sub_eq_zero.mp (abs_eq_zero.mp (le_antisymm ha (abs_nonneg _)))
      rw [hc.2 (hexact.trans_lt hsmall), sub_self, abs_zero]
    · have hslack : slack bound = bound / 2 ^ 51 := if_neg hsmall
      have hsplit := abs_add_le (c - a) (a - exact)
      rw [sub_add_sub_cancel] at hsplit
      have hround := hc.1
      push_cast
      linarith

/-- The sum of a window that a record enters is off by one rounding more. -/
theorem Follows.add (h : t.Follows records bound n) (hr : r.Measured)
    (hle : exactSum (records ++ [r]) ≤ bound) :
    (t.add r).Follows (records ++ [r]) bound (n + 1) := by
  have hnonneg : 0 ≤ exactSum (records ++ [r]) :=
    exactSum_nonneg (List.forall_mem_append.mpr ⟨h.measured, List.forall_mem_singleton.mpr hr⟩)
  have hexact : exactSum (records ++ [r]) = exactSum records + value r.latencies.rtt := by
    rw [exactSum_append]
    simp [exactSum]
  obtain ⟨hsize, hround⟩ := rounded_once hbound hn (a := value t.rttSum + value r.latencies.rtt)
    (c := value (t.add r).rttSum) ((abs_of_nonneg hnonneg).trans_le hle)
    (by rw [hexact, add_sub_add_right_eq_sub]; exact h.near)
  obtain ⟨hfinite, hnear⟩ := value_add h.finite hr.1 hsize
  exact ⟨List.forall_mem_append.mpr ⟨h.measured, List.forall_mem_singleton.mpr hr⟩, hle, hfinite,
    hround hnear⟩

/-- The sum of a window that a record leaves is off by one rounding more, and by none if no record
is left. -/
theorem Follows.remove (h : t.Follows (r :: rest) bound n) (hcounts : t.Counts (r :: rest)) :
    (t.remove r).Follows rest bound (n + 1) := by
  obtain ⟨hr, hrest⟩ := List.forall_mem_cons.mp h.measured
  have hnonneg := exactSum_nonneg hrest
  have hle : exactSum rest ≤ bound := by
    have htotal := h.le_bound
    rw [exactSum_cons] at htotal
    linarith [value_nonneg hr.2]
  obtain ⟨hsize, hround⟩ := rounded_once hbound hn (a := value t.rttSum - value r.latencies.rtt)
    (c := value (t.rttSum - r.latencies.rtt)) ((abs_of_nonneg hnonneg).trans_le hle)
    (by
      have hnear := h.near
      rw [exactSum_cons] at hnear
      rwa [sub_sub])
  obtain ⟨hfinite, hnear⟩ := value_sub h.finite hr.1 hsize
  have hoff := hround hnear
  suffices (t.remove r).rttSum.isFinite = true ∧
      |value (t.remove r).rttSum - exactSum rest| ≤ (n + 1 : Nat) * slack bound from
    ⟨hrest, hle, this.1, this.2⟩
  have hzero : value 0.0 = 0 := rfl
  unfold Totals.remove positive
  dsimp only
  split_ifs with hlast hpos
  · -- the last record has left, and the sum starts anew
    have hcount := hcounts.count
    rw [List.length_cons] at hcount
    obtain rfl : rest = [] := List.length_eq_zero_iff.mp (by omega)
    refine ⟨by decide +kernel, ?_⟩
    rw [hzero]
    have hbound' : 0 ≤ bound := hnonneg.trans hle
    simp only [exactSum, List.map_nil, List.sum_nil, sub_zero, abs_zero]
    exact mul_nonneg (Nat.cast_nonneg _) (slack_le hbound').1
  · exact ⟨hfinite, hoff⟩
  · -- a sum that has come to be below zero is brought nearer to the exact one
    refine ⟨by decide +kernel, ?_⟩
    rw [zero_lt_iff hfinite, not_lt] at hpos
    rw [hzero, zero_sub, abs_neg, abs_of_nonneg hnonneg]
    have hdistance := neg_le_abs (value (t.rttSum - r.latencies.rtt) - exactSum rest)
    linarith

end Steps

/-! ### Many steps -/

section Runs
variable (hbound : bound < 2 ^ 1000)
include hbound

theorem Follows.addAll {added : List Record} (h : t.Follows records bound n)
    (hadded : ∀ r ∈ added, r.Measured) (hle : exactSum (records ++ added) ≤ bound)
    (hn : bound = 0 ∨ n + added.length ≤ 2 ^ 51) :
    (added.foldl Totals.add t).Follows (records ++ added) bound (n + added.length) := by
  induction added generalizing t records n with
  | nil => simpa using h
  | cons r rest ih =>
    obtain ⟨hr, hrest⟩ := List.forall_mem_cons.mp hadded
    rw [List.length_cons] at hn ⊢
    rw [← List.singleton_append, ← List.append_assoc] at hle ⊢
    have hfirst : exactSum (records ++ [r]) ≤ bound := by
      rw [exactSum_append] at hle
      linarith [exactSum_nonneg hrest]
    have hlast := ih (h.add hbound (hn.imp_right (by omega)) hr hfirst) hrest hle
      (hn.imp_right (by omega))
    rwa [show n + 1 + rest.length = n + (rest.length + 1) by omega] at hlast

theorem Follows.removeAll {gone : List Record} (h : t.Follows (gone ++ rest) bound n)
    (hcounts : t.Counts (gone ++ rest)) (hn : bound = 0 ∨ n + gone.length ≤ 2 ^ 51) :
    (gone.foldl Totals.remove t).Follows rest bound (n + gone.length) := by
  induction gone generalizing t n with
  | nil => exact h
  | cons r gone ih =>
    rw [List.length_cons] at hn ⊢
    have hlast := ih (h.remove hbound (hn.imp_right (by omega)) hcounts) hcounts.remove
      (hn.imp_right (by omega))
    rwa [show n + 1 + gone.length = n + (gone.length + 1) by omega] at hlast

end Runs

/-! ### Averages -/

/-- A sum of few roundings is off by an eighth at most. -/
theorem Follows.near_eighth (h : t.Follows records bound n)
    (hn : n * bound ≤ 2 ^ 48 * exactSum records) :
    |value t.rttSum - exactSum records| ≤ exactSum records / 8 := by
  have hslack := (slack_le ((exactSum_nonneg h.measured).trans h.le_bound)).2
  refine h.near.trans ((mul_le_mul_of_nonneg_left hslack (Nat.cast_nonneg n)).trans ?_)
  rw [← mul_div_assoc, div_le_div_iff₀ (by positivity) (by positivity)]
  linarith

/-- The sum of a window whose times have always been very small is exact. -/
theorem Follows.exact (h : t.Follows records bound n) (hsmall : bound < 2 ^ (-1021 : ℤ)) :
    value t.rttSum = exactSum records := by
  have hnear := h.near
  rw [show slack bound = 0 from if_pos hsmall, mul_zero] at hnear
  exact sub_eq_zero.mp (abs_eq_zero.mp (le_antisymm hnear (abs_nonneg _)))

/-- The roundings are few if they come to little beside the sum. -/
theorem few_of_weight {total : ℚ} (hn : n * bound ≤ 2 ^ 48 * total) (hle : total ≤ bound)
    (hpos : 0 < bound) : n ≤ 2 ^ 48 := by
  have hweight : (n : ℚ) * bound ≤ 2 ^ 48 * bound := by linarith
  exact_mod_cast le_of_mul_le_mul_right hweight hpos

/-- Roundings that come to little beside a sum, but not to nothing, leave an average that is not
too small. -/
theorem mean_low {count : Nat} {total : ℚ} (hcount : count ≤ n) (hbound : 2 ^ (-1021 : ℤ) ≤ bound)
    (hn : n * bound ≤ 2 ^ 48 * total) : count * 2 ^ (-1070 : ℤ) ≤ total := by
  have hpowers : (2 : ℚ) ^ (-1021 : ℤ) = 2 ^ (-1070 : ℤ) * 2 ^ 49 := by
    rw [← zpow_natCast, ← zpow_add₀ two_ne_zero]
    congr 1
  have hfewer : (count : ℚ) * 2 ^ (-1070 : ℤ) ≤ n * 2 ^ (-1070 : ℤ) :=
    mul_le_mul_of_nonneg_right (by exact_mod_cast hcount) (two_zpow_pos _).le
  have hsums : (n : ℚ) * 2 ^ (-1021 : ℤ) ≤ n * bound :=
    mul_le_mul_of_nonneg_left hbound (Nat.cast_nonneg n)
  have hpos : 0 ≤ (n : ℚ) * 2 ^ (-1070 : ℤ) := mul_nonneg (Nat.cast_nonneg n) (two_zpow_pos _).le
  rw [hpowers, ← mul_assoc] at hsums
  linarith

/-- The average is off by a quarter at most if the sum is off by an eighth and the average is not
too small for the bits of a mantissa. -/
theorem avgRtt_near {exact : ℚ} (hfinite : t.rttSum.isFinite = true)
    (hsum : |value t.rttSum - exact| ≤ exact / 8) (hpos : 0 < t.count) (hcount : t.count < 2 ^ 53)
    (hlow : t.count * 2 ^ (-1070 : ℤ) ≤ exact) (hhigh : exact < 2 ^ 999) :
    let mean := exact / t.count
    t.avgRtt.isFinite = true ∧ |value t.avgRtt - mean| ≤ mean / 4 := by
  intro mean
  have hdivisor := value_ofNat hpos hcount
  have hdivisor' : (0 : ℚ) < t.count := Nat.cast_pos.mpr hpos
  have hexact : 0 < exact := (mul_pos hdivisor' (two_zpow_pos _)).trans_le hlow
  obtain ⟨hbelow, habove⟩ := abs_le.mp hsum
  have hlarge : value t.rttSum < 2 ^ 1000 := by
    calc value t.rttSum ≤ 2 * exact := by linarith
      _ < 2 * 2 ^ 999 := mul_lt_mul_of_pos_left hhigh two_pos
      _ = 2 ^ 1000 := (pow_succ' 2 999).symm
  obtain ⟨hquotient, -, hclose⟩ := value_div hfinite (by linarith) hlarge
    (within_ofNat hpos (hcount.trans (by decide))) (hdivisor ▸ hdivisor')
  rw [hdivisor] at hclose
  rw [show t.avgRtt = t.rttSum / Float.ofNat t.count from if_neg hpos.ne']
  refine ⟨hquotient, ?_⟩
  have hshare : |value t.rttSum / t.count - mean| ≤ mean / 8 := by
    rw [← sub_div, abs_div, abs_of_pos hdivisor', div_div, mul_comm _ (8 : ℚ), ← div_div]
    exact div_le_div_of_nonneg_right hsum hdivisor'.le
  have hmean : 2 ^ (-1074 : ℤ) ≤ mean / 16 := by
    have hleast : 2 ^ (-1070 : ℤ) ≤ mean := by
      rw [le_div_iff₀ hdivisor', mul_comm]
      exact hlow
    have hpowers : (2 : ℚ) ^ (-1074 : ℤ) = 2 ^ (-1070 : ℤ) / 16 := by
      rw [show (-1074 : ℤ) = -1070 - 4 by decide, zpow_sub₀ two_ne_zero]
      norm_num
    linarith
  have hplace := two_zpow_pos (-1074)
  unfold Close at hclose
  have hquotient' : 0 ≤ value t.rttSum / t.count := div_nonneg (by linarith) hdivisor'.le
  rw [abs_of_nonneg hquotient'] at hclose
  have hsplit := abs_sub_le (value (t.rttSum / Float.ofNat t.count)) (value t.rttSum / t.count) mean
  have hshare' := (abs_le.mp hshare).2
  linarith

/-- Two numbers that are within a quarter of a third one are within twice of each other. -/
theorem within_twice {a b mean : ℚ} (ha : |a - mean| ≤ mean / 4) (hb : |b - mean| ≤ mean / 4) :
    b / 2 ≤ a ∧ a ≤ 2 * b := by
  obtain ⟨halow, hahigh⟩ := abs_le.mp ha
  obtain ⟨hblow, hbhigh⟩ := abs_le.mp hb
  constructor <;> linarith

/-- Two sums that stand for the same number give the same average. -/
theorem avgRtt_same {u : Totals} (hfinite : t.rttSum.isFinite = true)
    (hfinite' : u.rttSum.isFinite = true) (h : value u.rttSum = value t.rttSum)
    (hnonneg : 0 ≤ value t.rttSum) (hlarge : value t.rttSum < 2 ^ 1000) (hsame : u.count = t.count)
    (hpos : 0 < t.count) (hsize : t.count < 2 ^ 64)
    (hcount : value t.rttSum = 0 ∨ t.count < 2 ^ 53) :
    t.avgRtt.isFinite = true ∧ u.avgRtt.isFinite = true ∧ 0 ≤ value t.avgRtt ∧
      value u.avgRtt = value t.avgRtt := by
  have hdivisor := within_ofNat hpos hsize
  rw [show t.avgRtt = t.rttSum / Float.ofNat t.count from if_neg hpos.ne',
    show u.avgRtt = u.rttSum / Float.ofNat u.count from if_neg (hsame ▸ hpos.ne'), hsame]
  rcases hnonneg.eq_or_lt with hzero | hsum
  · obtain ⟨hquotient, hvalue⟩ := value_div_zero hfinite hzero.symm hdivisor
    obtain ⟨hquotient', hvalue'⟩ := value_div_zero hfinite' (h.trans hzero.symm) hdivisor
    exact ⟨hquotient, hquotient', hvalue.ge, hvalue'.trans hvalue.symm⟩
  · have hdivisor' : 0 < value (Float.ofNat t.count) := by
      rw [value_ofNat hpos (hcount.resolve_left hsum.ne')]
      exact Nat.cast_pos.mpr hpos
    obtain ⟨hquotient, hleast, -⟩ := value_div hfinite hsum hlarge hdivisor hdivisor'
    obtain ⟨hquotient', -, -⟩ := value_div hfinite' (h ▸ hsum) (h ▸ hlarge) hdivisor hdivisor'
    exact ⟨hquotient, hquotient', hleast, value_div_congr hfinite' hfinite (h ▸ hsum) h _⟩

/-- **Two sums of the same records give much the same average** if their roundings come to little
beside the sum. -/
theorem Follows.avgRtt_alike {u : Totals} (ht : t.Follows records bound n)
    (hu : u.Follows records bound n) (hsame : u.count = t.count)
    (hn : n * bound ≤ 2 ^ 48 * exactSum records) (hcount : t.count ≤ n) (hsize : t.count < 2 ^ 64)
    (hhigh : bound < 2 ^ 999) :
    t.avgRtt.isFinite = true ∧ u.avgRtt.isFinite = true ∧
      value u.avgRtt / 2 ≤ value t.avgRtt ∧ value t.avgRtt ≤ 2 * value u.avgRtt := by
  have hnonneg := exactSum_nonneg ht.measured
  have hexact := ht.le_bound.trans_lt hhigh
  have hfew (hpos : 0 < bound) : t.count < 2 ^ 53 := by
    have := few_of_weight hn ht.le_bound hpos
    omega
  rcases Nat.eq_zero_or_pos t.count with hzero | hpos
  · rw [show t.avgRtt = 0.0 from if_pos hzero, show u.avgRtt = 0.0 from if_pos (hsame.trans hzero),
      show value 0.0 = 0 from rfl]
    exact ⟨by decide +kernel, by decide +kernel, by norm_num, by norm_num⟩
  · by_cases hsmall : bound < 2 ^ (-1021 : ℤ)
    · have hsum := ht.exact hsmall
      have hlarge : value t.rttSum < 2 ^ 1000 := by
        rw [hsum]
        exact hexact.trans (pow_lt_pow_right₀ one_lt_two (by decide))
      obtain ⟨hfinite, hfinite', hleast, heq⟩ := avgRtt_same ht.finite hu.finite
        ((hu.exact hsmall).trans hsum.symm) (hsum ▸ hnonneg) hlarge hsame hpos hsize
        (hnonneg.eq_or_lt.imp (fun h => hsum.trans h.symm) fun h => hfew (h.trans_le ht.le_bound))
      exact ⟨hfinite, hfinite', by linarith, by linarith⟩
    · have hbound := not_lt.mp hsmall
      have hlow := mean_low hcount hbound hn
      have hcount := hfew ((two_zpow_pos _).trans_le hbound)
      obtain ⟨hfinite, hoff⟩ := avgRtt_near ht.finite (ht.near_eighth hn) hpos hcount hlow hexact
      rw [← hsame] at hpos hcount hlow hoff
      obtain ⟨hfinite', hoff'⟩ := avgRtt_near hu.finite (hu.near_eighth hn) hpos hcount hlow hexact
      exact ⟨hfinite, hfinite', within_twice hoff hoff'⟩

end Totals

end OrderTelemetry
