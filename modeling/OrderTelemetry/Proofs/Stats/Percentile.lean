import Mathlib.Data.List.Sort
import Mathlib.Data.Rat.Floor
import OrderTelemetry.Proofs.Decimal.Product
import OrderTelemetry.Stats.Percentile

/-! # Percentiles have their rank

The `p`-th percentile of `n` values is a value of rank `k = ⌈p / 100 · n⌉`: at least `k` of them are
not above it, and fewer than `k` are below it.  In a list in ascending order the values that are
below a given one come first, and so do those that are not above it, so the value of rank `k` is the
one in place `k` (`hasRank_of_sorted`).  A rank says all there is to know about a value: it does not
depend on the order of the list (`HasRank.perm`), and a value of a higher rank is not below one of a
lower rank (`HasRank.le`).

* `hundredths_le`: a percentage is rounded to ten thousand hundredths at most, whatever double it is.
* `rankOf_eq_exactRank`: the rank is found in whole numbers.
* `nearestRank_hasRank`: what the percentile of some doubles is. -/

namespace OrderTelemetry.Percentile

open Float.Model Float.Model.UnpackedFloat

/-! ### Percentages -/

theorem value_hundred : Double.value 100.0 = 100 := by
  have hunpack : (Float.toModel 100.0).unpack = .finite .positive (100 * 2 ^ 46) (-46) (by decide) := by
    rfl
  unfold Double.value
  rw [hunpack]
  show ((100 * 2 ^ 46 : Nat) : ℚ) * 2 ^ (-46 : ℤ) = 100
  norm_num

section Scaled
variable {x : Float}

/-- The product with a hundred is rounded by less than a half. -/
theorem value_scaled_lt_of_isFinite (hx : x.isFinite = true) (hlow : ¬ x < 0.0)
    (hhigh : ¬ 100.0 < x) : Double.value (x * 100.0) < 10000 + 1 / 2 := by
  have hhundred : 0 < Double.value 100.0 := by
    rw [value_hundred]
    norm_num
  have hle : Double.value x ≤ Double.value 100.0 :=
    Double.value_le_of_not_lt hx Double.within_hundred.isFinite hhundred hhigh
  rcases (Double.value_nonneg hlow).eq_or_lt with hzero | hpos
  · rw [Double.value_zero_mul hx hzero.symm Double.within_hundred]
    norm_num
  · have hproduct : 0 ≤ Double.value x * Double.value 100.0 ∧
        Double.value x * Double.value 100.0 ≤ 10000 := by
      rw [value_hundred] at hle ⊢
      exact ⟨by positivity, by linarith⟩
    have hlarge : (10000 : ℚ) < 2 ^ 1000 :=
      calc (10000 : ℚ) < 2 ^ 14 := by norm_num
        _ ≤ 2 ^ 1000 := pow_le_pow_right₀ one_le_two (by decide)
    have hleast : (2 : ℚ) ^ (-1074 : ℤ) ≤ 1 / 4 :=
      calc (2 : ℚ) ^ (-1074 : ℤ) ≤ 2 ^ (-2 : ℤ) := zpow_le_zpow_right₀ one_le_two (by decide)
        _ = 1 / 4 := by norm_num
    obtain ⟨-, -, hclose⟩ := Double.value_mul hx hpos Double.within_hundred hhundred
      (hproduct.2.trans_lt hlarge)
    have hnear := (le_abs_self _).trans hclose
    rw [abs_of_nonneg hproduct.1] at hnear
    generalize (2 : ℚ) ^ (-1074 : ℤ) = least at hleast hnear
    linarith

/-- What is no number stays so. -/
theorem value_scaled_nan (h : x.toModel.unpack = .notANumber) : Double.value (x * 100.0) = 0 := by
  have hproduct : x * 100.0 = .ofModel (.pack .notANumber) := by
    show Float.ofModel (.pack (mul Format.binary64 x.toModel.unpack _)) = _
    rw [h]
    rfl
  rw [hproduct]
  rfl

/-- A percentage up to a hundred gives hardly more than ten thousand hundredths. -/
theorem value_scaled_lt (hlow : ¬ x < 0.0) (hhigh : ¬ 100.0 < x) :
    Double.value (x * 100.0) < 10000 + 1 / 2 := by
  by_cases hx : x.isFinite = true
  · exact value_scaled_lt_of_isFinite hx hlow hhigh
  have hinfinite : ¬ x.toModel.unpack.isFinite = true := hx
  cases hunpack : x.toModel.unpack with
  | zero s => exact absurd (hunpack ▸ rfl) hinfinite
  | finite s m e h => exact absurd (hunpack ▸ rfl) hinfinite
  | notANumber =>
    rw [value_scaled_nan hunpack]
    norm_num
  | infinity s =>
    rw [Double.lt_iff, hunpack] at hlow hhigh
    cases s with
    | positive => exact absurd rfl hhigh
    | negative => exact absurd rfl hlow

end Scaled

/-- **There are ten thousand hundredths at most**, whatever double the percentage is. -/
theorem hundredths_le (percentage : Float) : hundredths percentage ≤ 10000 := by
  unfold hundredths clamp
  split_ifs with hlow hhigh
  · decide +kernel
  · decide +kernel
  · exact Double.nearestNat_le (by exact_mod_cast value_scaled_lt hlow hhigh)

/-! ### Ranks -/

section Rank
variable {n h : Nat}

theorem rankOf_pos : 0 < rankOf n h := Nat.lt_of_lt_of_le Nat.one_pos (Nat.le_max_left 1 _)

theorem rankOf_le (hn : 0 < n) : rankOf n h ≤ n := by
  unfold rankOf
  omega

/-- The rank grows with the percentage. -/
theorem rankOf_mono {h' : Nat} (hle : h ≤ h') : rankOf n h ≤ rankOf n h' := by
  have hproduct : n * h ≤ n * h' := Nat.mul_le_mul_left n hle
  unfold rankOf
  omega

theorem ceil_hundredths (m : Nat) : ⌈(m : ℚ) / 10000⌉₊ = (m + 9999) / 10000 := by
  refine eq_of_forall_ge_iff fun c => ?_
  rw [Nat.ceil_le, div_le_iff₀ (by norm_num)]
  constructor
  · intro hle
    have hle' : m ≤ c * 10000 := by exact_mod_cast hle
    omega
  · intro hle
    have hle' : m ≤ c * 10000 := by omega
    exact_mod_cast hle'

/-- The rank as it is meant: the part of `n` that is counted in hundredths of a percent, rounded up,
and at least one. -/
def exactRank (n h : Nat) : Nat := max 1 ⌈((h * n : Nat) : ℚ) / 10000⌉₊

/-- **The rank is found in whole numbers.**  It is no more than the number of values without being
bounded by it. -/
theorem rankOf_eq_exactRank (hn : 0 < n) (hh : h ≤ 10000) : rankOf n h = exactRank n h := by
  have hproduct : n * h ≤ n * 10000 := Nat.mul_le_mul_left n hh
  unfold rankOf exactRank
  rw [ceil_hundredths, Nat.mul_comm h n]
  omega

end Rank

/-! ### Values of a rank -/

section Values
variable {α : Type} {key : α → Int} {values sorted : List α} {v w : α} {j k : Nat}

/-- A value of a list is one of rank `k` if at least `k` values are not above it and fewer than `k`
are below it. -/
structure HasRank (key : α → Int) (values : List α) (k : Nat) (v : α) : Prop where
  mem : v ∈ values
  reached : k ≤ values.countP fun a => decide (key a ≤ key v)
  first : values.countP (fun a => decide (key a < key v)) < k

/-- If the values that pass a test come first, then the others are in the places after those. -/
theorem pass_iff_lt_countP {test : α → Bool} {i : Nat}
    (hfirst : sorted.Pairwise fun a b => test b = true → test a = true) (hv : sorted[i]? = some v) :
    test v = true ↔ i < sorted.countP test := by
  induction sorted generalizing i with
  | nil => cases hv
  | cons a rest ih =>
    obtain ⟨ha, hrest⟩ := List.pairwise_cons.mp hfirst
    by_cases hpass : test a = true
    · rw [List.countP_cons_of_pos hpass]
      cases i with
      | zero =>
        obtain rfl : a = v := Option.some.inj hv
        exact iff_of_true hpass (Nat.succ_pos _)
      | succ i => exact (ih hrest hv).trans Nat.succ_lt_succ_iff.symm
    -- if the first value does not pass, then none does
    · have hnone : ∀ b ∈ a :: rest, ¬ test b = true :=
        List.forall_mem_cons.mpr ⟨hpass, fun b hb hb' => hpass (ha b hb hb')⟩
      rw [List.countP_eq_zero.mpr hnone]
      exact iff_of_false (hnone v (List.mem_of_getElem? hv)) (Nat.not_lt_zero i)

/-- **In a list in ascending order the value of rank `k` is the one in place `k`.** -/
theorem hasRank_of_sorted {i : Nat} (hsorted : sorted.Pairwise fun a b => key a ≤ key b)
    (hv : sorted[i]? = some v) : HasRank key sorted (i + 1) v where
  mem := List.mem_of_getElem? hv
  reached := by
    refine (pass_iff_lt_countP (hsorted.imp fun hab hb => ?_) hv).mp (decide_eq_true le_rfl)
    exact decide_eq_true (hab.trans (of_decide_eq_true hb))
  first := by
    refine Nat.lt_succ_iff.mpr (Nat.le_of_not_lt fun hlt => lt_irrefl (key v) ?_)
    refine of_decide_eq_true ((pass_iff_lt_countP (hsorted.imp fun hab hb => ?_) hv).mpr hlt)
    exact decide_eq_true (hab.trans_lt (of_decide_eq_true hb))

/-- The order of the list does not matter. -/
theorem HasRank.perm (h : HasRank key sorted k v) (hperm : sorted.Perm values) :
    HasRank key values k v where
  mem := hperm.mem_iff.mp h.mem
  reached := hperm.countP_eq _ ▸ h.reached
  first := hperm.countP_eq _ ▸ h.first

/-- A value of a higher rank is not below one of a lower rank. -/
theorem HasRank.le (hv : HasRank key values j v) (hw : HasRank key values k w) (hle : j ≤ k) :
    key v ≤ key w := by
  by_contra hlt
  have hcount : (values.countP fun a => decide (key a ≤ key w)) ≤
      values.countP fun a => decide (key a < key v) := by
    refine List.countP_mono_left fun a _ ha => ?_
    exact decide_eq_true ((of_decide_eq_true ha).trans_lt (not_le.mp hlt))
  have hreached := hw.reached
  have hfirst := hv.first
  omega

/-! ### Picking a value -/

/-- Values in ascending order of a key. -/
def sortedBy (key : α → Int) (values : List α) : List α :=
  values.mergeSort fun a b => decide (key a ≤ key b)

theorem perm_sortedBy (key : α → Int) (values : List α) : (sortedBy key values).Perm values :=
  List.mergeSort_perm values _

theorem pairwise_sortedBy (key : α → Int) (values : List α) :
    (sortedBy key values).Pairwise fun a b => key a ≤ key b := by
  refine (List.pairwise_mergeSort ?_ ?_ values).imp of_decide_eq_true
  · exact fun a b c hab hbc => decide_eq_true ((of_decide_eq_true hab).trans (of_decide_eq_true hbc))
  · intro a b
    rw [Bool.or_eq_true, decide_eq_true_eq, decide_eq_true_eq]
    exact le_total _ _

/-- If the key tells all values apart, then there is one ascending order only, so it does not matter
how the values are sorted. -/
theorem eq_sortedBy (hkey : Function.Injective key)
    (hsorted : sorted.Pairwise fun a b => key a ≤ key b) (hperm : sorted.Perm values) :
    sorted = sortedBy key values :=
  (hperm.trans (perm_sortedBy key values).symm).eq_of_pairwise
    (fun _ _ _ _ hab hba => hkey (le_antisymm hab hba)) hsorted (pairwise_sortedBy key values)

/-- The percentile of some values, given by its hundredths of a percent. -/
def pick (key : α → Int) (values : List α) (h : Nat) : Option α :=
  (sortedBy key values)[rankOf values.length h - 1]?

/-- **There is a percentile, and it has its rank.** -/
theorem exists_pick (key : α → Int) (hne : values ≠ []) (h : Nat) :
    ∃ v, pick key values h = some v ∧ HasRank key values (rankOf values.length h) v := by
  have hperm := perm_sortedBy key values
  have hpos : 0 < rankOf values.length h := rankOf_pos
  have hle : rankOf values.length h ≤ values.length := rankOf_le (List.length_pos_iff.mpr hne)
  have hbound : rankOf values.length h - 1 < (sortedBy key values).length := by
    rw [hperm.length_eq]
    omega
  have hpick := List.getElem?_eq_getElem hbound
  have hrank := (hasRank_of_sorted (pairwise_sortedBy key values) hpick).perm hperm
  rw [Nat.sub_add_cancel hpos] at hrank
  exact ⟨_, hpick, hrank⟩

theorem pick_of_perm {others : List α} (hkey : Function.Injective key) (hperm : others.Perm values)
    (h : Nat) : pick key others h = pick key values h := by
  have hsame : sortedBy key others = sortedBy key values :=
    eq_sortedBy hkey (pairwise_sortedBy key others) ((perm_sortedBy key others).trans hperm)
  unfold pick
  rw [hsame, hperm.length_eq]

end Values

/-! ### Doubles -/

/-- The order of all patterns of bits that a double may have.  There are many for what is no number,
those with a sign come before all others. -/
def bitRank (bits : UInt64) : Int :=
  if bits.toNat < 0x8000000000000000 then bits.toNat else 0x7FFFFFFFFFFFFFFF - bits.toNat

theorem bitRank_injective : Function.Injective bitRank := by
  intro a b hab
  have ha := a.toNat_lt
  have hb := b.toNat_lt
  rw [← UInt64.toNat_inj]
  unfold bitRank at hab
  split_ifs at hab <;> omega

theorem rank_eq_bitRank (x : Float) : Decimal.rank x = bitRank x.toBits := rfl

theorem rank_injective : Function.Injective Decimal.rank := by
  intro x y hxy
  rw [rank_eq_bitRank, rank_eq_bitRank] at hxy
  have hbits : x.toBits = y.toBits := bitRank_injective hxy
  obtain ⟨⟨a, ha⟩⟩ := x
  obtain ⟨⟨b, hb⟩⟩ := y
  obtain rfl : a = b := hbits
  rfl

variable {values : List Float} {v : Float}

/-- The percentile of doubles in ascending order is what is picked. -/
theorem nearestRank_of_pick {percentage : Float}
    (hpick : pick Decimal.rank values (hundredths percentage) = some v) :
    nearestRank (ascending values).toArray percentage = v := by
  have hlength : (ascending values).length = values.length := List.length_mergeSort _
  have hplace : (ascending values)[rankOf values.length (hundredths percentage) - 1]? = some v :=
    hpick
  unfold nearestRank
  rw [Array.getD_eq_getD_getElem?, List.getElem?_toArray, List.size_toArray, hlength, hplace]
  rfl

/-- **The percentile of doubles has its rank.**  The place where it is looked up is there, and
nothing overflows on the way to it.  At least as many values as its rank says are not above it, and
fewer are below it.  So it does not matter in which order the values come or how they are sorted, and
a higher percentile is not below a lower one.  All of this is true of patterns of bits, too, of which
there are more than one for what is no number. -/
theorem nearestRank_hasRank (hne : values ≠ [])
    (hsize : 10000 * values.length < 0x10000000000000000) (percentage : Float) :
    let n := values.length
    let h := hundredths percentage
    let v := nearestRank (ascending values).toArray percentage
    h ≤ 10000 ∧ n * h < 0x10000000000000000 ∧
      rankOf n h = exactRank n h ∧ (ascending values)[exactRank n h - 1]? = some v ∧
      HasRank Decimal.rank values (exactRank n h) v ∧
      (∀ others : List Float, others.Perm values →
        nearestRank (ascending others).toArray percentage = v ∧
          (others.Pairwise (fun a b => Decimal.rank a ≤ Decimal.rank b) →
            nearestRank others.toArray percentage = v)) ∧
      (∀ higher, h ≤ hundredths higher →
        Decimal.rank v ≤ Decimal.rank (nearestRank (ascending values).toArray higher)) ∧
      ∀ patterns : List UInt64, patterns ≠ [] →
        ∃ p, HasRank bitRank patterns (exactRank patterns.length h) p ∧
          ∀ others, others.Perm patterns → pick bitRank others h = some p := by
  intro n h v
  have hbound : h ≤ 10000 := hundredths_le percentage
  have hn : 0 < n := List.length_pos_iff.mpr hne
  have hexact : rankOf n h = exactRank n h := rankOf_eq_exactRank hn hbound
  obtain ⟨w, hpick, hrank⟩ := exists_pick Decimal.rank hne h
  obtain rfl : v = w := nearestRank_of_pick hpick
  have hothers : ∀ others : List Float, others.Perm values →
      nearestRank (ascending others).toArray percentage = v := fun others hperm =>
    nearestRank_of_pick ((pick_of_perm rank_injective hperm h).trans hpick)
  refine ⟨hbound, ?_, hexact, hexact ▸ hpick, hexact ▸ hrank, fun others hperm => ?_, ?_, ?_⟩
  · calc n * h ≤ n * 10000 := Nat.mul_le_mul_left n hbound
      _ < 0x10000000000000000 := by omega
  · refine ⟨hothers others hperm, fun hsorted => ?_⟩
    have hsame : others = ascending others := eq_sortedBy rank_injective hsorted (.refl others)
    rw [hsame]
    exact hothers others hperm
  · intro higher hle
    obtain ⟨u, hpick', hrank'⟩ := exists_pick Decimal.rank hne (hundredths higher)
    rw [nearestRank_of_pick hpick']
    exact hrank.le hrank' (rankOf_mono hle)
  · intro patterns hpatterns
    obtain ⟨p, hpick', hrank'⟩ := exists_pick bitRank hpatterns h
    rw [rankOf_eq_exactRank (List.length_pos_iff.mpr hpatterns) hbound] at hrank'
    exact ⟨p, hrank', fun others hperm => (pick_of_perm bitRank_injective hperm h).trans hpick'⟩

/-- The median of five values, two of them the same, two of them zeros with different signs and one
no number. -/
theorem nearestRank_hasRank_median :
    let values : List Float := [0.0 / 0.0, 3.5, 0.0, 3.5, -0.0]
    values ≠ [] ∧ 10000 * values.length < 0x10000000000000000 ∧
      nearestRank (ascending values).toArray 50.0 = 3.5 ∧ HasRank Decimal.rank values 3 3.5 := by
  intro values
  have hne : values ≠ [] := List.cons_ne_nil _ _
  have hsize : 10000 * values.length < 0x10000000000000000 := by decide
  have hperm : [-0.0, 0.0, 3.5, 3.5, 0.0 / 0.0].Perm values := by decide +kernel
  have hsorted : [-0.0, 0.0, 3.5, 3.5, 0.0 / 0.0].Pairwise
      fun a b : Float => Decimal.rank a ≤ Decimal.rank b := by decide +kernel
  obtain ⟨-, -, hrankOf, -, hrank, hothers, -⟩ := nearestRank_hasRank hne hsize 50.0
  have hmedian : nearestRank (ascending values).toArray 50.0 = 3.5 := by
    rw [← (hothers _ hperm).2 hsorted]
    decide +kernel
  have hthree : rankOf values.length (hundredths 50.0) = 3 := by decide +kernel
  rw [← hrankOf, hthree, hmedian] at hrank
  exact ⟨hne, hsize, hmedian, hrank⟩

end OrderTelemetry.Percentile
