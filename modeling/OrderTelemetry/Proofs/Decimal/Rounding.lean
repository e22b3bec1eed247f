import Mathlib.Algebra.Order.Field.Power
import Mathlib.Data.Rat.Cast.Order
import Mathlib.Tactic.FieldSimp
import Mathlib.Tactic.Linarith
import Mathlib.Tactic.Ring
import Mathlib.Tactic.Positivity
import OrderTelemetry.Proofs.Decimal.Magnitude

/-! # Rounding

An unpacked double stands for a rational number (`number`).  Rounding makes it another one that is
no farther off than the last place of a mantissa.  The least place that there is stands for
`2 ^ (-1074)`, and since all doubles are multiples of it, a sum that is so small that its last place
is this one is not rounded at all.

* `Canonical`: the form that rounding gives a number.
* `roundWithAccuracy_near`: rounding moves a number by a last place at most.
* `Near`, `Close`: how far a sum and a quotient may be off.
* `add_near`, `sub_near`, `div_close`: the operations. -/

namespace OrderTelemetry.Double

open Float.Model Float.Model.UnpackedFloat

/-- The number that an unpacked double stands for, zero if it stands for none. -/
def number : UnpackedFloat → ℚ
  | .finite s m e _ => (s.apply m : ℤ) * 2 ^ e
  | _ => 0

theorem two_zpow_pos (e : ℤ) : (0 : ℚ) < 2 ^ e := zpow_pos two_pos e

/-- Bits may be moved from the exponent into the mantissa. -/
theorem mul_two_zpow_add (m s : Nat) (e : ℤ) :
    (m : ℚ) * 2 ^ (e + s) = ((m * 2 ^ s : Nat) : ℚ) * 2 ^ e := by
  rw [zpow_add₀ two_ne_zero, zpow_natCast]
  push_cast
  ring

/-- A sign is a factor. -/
theorem apply_mul (s : Sign) (m : Nat) (q : ℚ) :
    ((s.apply m : ℤ) : ℚ) * q = ((s.apply 1 : ℤ) : ℚ) * (m * q) := by
  cases s <;> simp [Sign.apply]

theorem abs_apply_one (s : Sign) : |((s.apply 1 : ℤ) : ℚ)| = 1 := by
  cases s <;> simp [Sign.apply]

/-! ### The last place -/

/-- A mantissa and an exponent as rounding leaves them: all bits of the mantissa are there, or fewer
if the exponent is the least. -/
def Fits (m : Nat) (e : ℤ) : Prop := m < 2 ^ 53 ∧ -1074 ≤ e ∧ (2 ^ 52 ≤ m ∨ e = -1074)

/-- An unpacked double as rounding leaves it if there is no overflow. -/
def Canonical : UnpackedFloat → Prop
  | .finite _ m e _ => Fits m e
  | .zero _ => True
  | _ => False

theorem Fits.log2_le {m : Nat} {e : ℤ} (h : Fits m e) : m.log2 ≤ 52 := by
  rcases Nat.eq_zero_or_pos m with rfl | hm
  · decide
  · exact Nat.le_of_lt_succ ((Leads.of_pos hm).lt h.1)

/-- What fits keeps its exponent. -/
theorem Fits.targetExponent {m : Nat} {e : ℤ} (h : Fits m e) :
    Format.binary64.targetExponent (totalExponent m e) = e := by
  have hle := h.log2_le
  obtain ⟨hm, he, hfull⟩ := h
  rw [targetExponent_totalExponent]
  rcases hfull with hfull | rfl
  · have hlog : m.log2 = 52 := Leads.log2 ⟨hfull, hm⟩
    omega
  · omega

theorem Fits.exponent_le {m₁ m₂ : Nat} {e₁ e₂ : ℤ} (h₁ : Fits m₁ e₁) (h₂ : Fits m₂ e₂)
    (h : (m₁ : ℚ) * 2 ^ e₁ = m₂ * 2 ^ e₂) : e₂ ≤ e₁ := by
  by_contra hlt
  obtain ⟨d, rfl⟩ : ∃ d : Nat, e₂ = e₁ + (d + 1 : Nat) := ⟨(e₂ - e₁ - 1).toNat, by omega⟩
  rw [mul_two_zpow_add] at h
  have hsame : m₁ = m₂ * 2 ^ (d + 1) := by
    exact_mod_cast mul_right_cancel₀ (two_zpow_pos e₁).ne' h
  have hlow := h₁.2.1
  have hall : 2 ^ 52 ≤ m₂ := h₂.2.2.resolve_right (by omega)
  have hlong : 2 ^ 52 * 2 ≤ m₂ * 2 ^ (d + 1) :=
    Nat.mul_le_mul hall (Nat.le_self_pow (Nat.succ_ne_zero d) 2)
  have hshort := h₁.1
  omega

/-- Mantissas and exponents that fit and stand for the same number are the same. -/
theorem Fits.unique {m₁ m₂ : Nat} {e₁ e₂ : ℤ} (h₁ : Fits m₁ e₁) (h₂ : Fits m₂ e₂)
    (h : (m₁ : ℚ) * 2 ^ e₁ = m₂ * 2 ^ e₂) : m₁ = m₂ ∧ e₁ = e₂ := by
  obtain rfl := le_antisymm (h₂.exponent_le h₁ h.symm) (h₁.exponent_le h₂ h)
  exact ⟨by exact_mod_cast mul_right_cancel₀ (two_zpow_pos e₁).ne' h, rfl⟩

theorem fits_of_targetExponent {m : Nat} {e : ℤ} (hm : 0 < m)
    (h : Format.binary64.targetExponent (totalExponent m e) = e) : Fits m e := by
  rw [targetExponent_totalExponent] at h
  obtain ⟨hlow, hhigh⟩ := Leads.of_pos hm
  refine ⟨hhigh.trans_le (Nat.pow_le_pow_right two_pos (by omega)), by omega, ?_⟩
  by_cases hfull : m.log2 = 52
  · rw [hfull] at hlow
    exact .inl hlow
  · exact .inr (by omega)

/-- Dropping bits moves a number by less than the last bit that is left. -/
theorem dropped_bits (m s : Nat) (e : ℤ) :
    ((m / 2 ^ s : Nat) : ℚ) * 2 ^ (e + s) ≤ m * 2 ^ e ∧
      ((m : ℚ) + 1) * 2 ^ e ≤ (((m / 2 ^ s : Nat) : ℚ) + 1) * 2 ^ (e + s) := by
  have hlow : m / 2 ^ s * 2 ^ s ≤ m := Nat.div_mul_le_self m (2 ^ s)
  have hhigh : m + 1 ≤ (m / 2 ^ s + 1) * 2 ^ s :=
    Nat.lt_mul_of_div_lt (Nat.lt_succ_self _) (Nat.two_pow_pos s)
  have hnext : ((m / 2 ^ s : Nat) : ℚ) + 1 = ((m / 2 ^ s + 1 : Nat) : ℚ) := by push_cast; rfl
  rw [hnext, mul_two_zpow_add, mul_two_zpow_add]
  constructor
  · exact mul_le_mul_of_nonneg_right (by exact_mod_cast hlow) (two_zpow_pos e).le
  · exact mul_le_mul_of_nonneg_right (by exact_mod_cast hhigh) (two_zpow_pos e).le

/-- What is left of a mantissa fits. -/
theorem fits_shifted {m : Nat} {e t : ℤ}
    (ht : Format.binary64.targetExponent (totalExponent m e) = t) (he : e ≤ t) :
    Fits (m / 2 ^ (t - e).toNat) t := by
  rw [targetExponent_totalExponent] at ht
  rcases Nat.eq_zero_or_pos m with rfl | hm
  · have hleast : t = -1074 := by
      rw [Nat.log2_zero] at ht
      omega
    rw [Nat.zero_div]
    exact ⟨by decide, by omega, .inr hleast⟩
  · have hshort : m / 2 ^ (t - e).toNat < 2 ^ 53 := by
      rw [Nat.div_lt_iff_lt_mul (Nat.two_pow_pos _), ← Nat.pow_add]
      exact (Leads.of_pos hm).2.trans_le (Nat.pow_le_pow_right two_pos (by omega))
    refine ⟨hshort, by omega, ?_⟩
    by_cases hleast : t = -1074
    · exact .inr hleast
    · have hleads := (Leads.of_pos hm).shiftRight (s := (t - e).toNat) (by omega)
      rw [show m.log2 - (t - e).toNat = 52 by omega] at hleads
      exact .inl hleads.1

/-! ### Rounding -/

/-- A mantissa that has been rounded up to one bit more is shifted back, and no bit is lost. -/
theorem carry_shifted {r : Nat} {t : ℤ} (hr : r ≤ 2 ^ 53) (ht : -1074 ≤ t)
    (hfull : 2 ^ 52 ≤ r ∨ t = -1074) :
    let final := shiftToTargetExponent Format.binary64 r t .exact
    Fits final.1.mantissa final.2 ∧ (final.1.mantissa : ℚ) * 2 ^ final.2 = r * 2 ^ t := by
  intro final
  have hsecond : ∃ j : Nat, Format.binary64.targetExponent (totalExponent r t) = t + j ∧
      2 ^ j ∣ r := by
    rcases hr.lt_or_eq with hr | rfl
    · refine ⟨0, ?_, Nat.one_dvd r⟩
      rw [Fits.targetExponent ⟨hr, ht, hfull⟩]
      exact (Int.add_zero t).symm
    · refine ⟨1, ?_, Nat.dvd_of_mod_eq_zero (by decide)⟩
      rw [targetExponent_totalExponent, Nat.log2_two_pow]
      omega
  obtain ⟨j, htarget, hdvd⟩ := hsecond
  obtain ⟨hmantissa, hexponent⟩ := shiftToTargetExponent_eq htarget (by omega) .exact
  have hfits := fits_shifted htarget (by omega)
  rw [hmantissa, hexponent]
  refine ⟨hfits, ?_⟩
  rw [show (t + j - t).toNat = j by omega, mul_two_zpow_add, Nat.div_mul_cancel hdvd]

/-- **Rounding moves a number by a last place at most**, also one from which bits have been cut off
before. -/
theorem roundWithAccuracy_near {m : Nat} {e t : ℤ} (s : Sign) (accuracy : Accuracy)
    (ht : Format.binary64.targetExponent (totalExponent m e) = t) (he : e ≤ t) {v : ℚ}
    (hlow : m * 2 ^ e ≤ v) (hhigh : v ≤ (m + 1) * 2 ^ e) :
    Canonical (roundWithAccuracy Format.binary64 s m e accuracy) ∧
      ∃ r : Nat, number (roundWithAccuracy Format.binary64 s m e accuracy) =
        (s.apply r : ℤ) * 2 ^ t ∧ |r * 2 ^ t - v| ≤ 2 ^ t := by
  obtain ⟨hmantissa, hexponent⟩ := shiftToTargetExponent_eq ht he accuracy
  obtain ⟨hshort, hleast, hfull⟩ := fits_shifted ht he
  obtain ⟨hdropped, hnext⟩ := dropped_bits m (t - e).toNat e
  rw [show e + ((t - e).toNat : ℤ) = t by omega] at hdropped hnext
  rw [← hmantissa] at hshort hfull hdropped hnext
  unfold roundWithAccuracy
  generalize shiftToTargetExponent Format.binary64 m e accuracy = first at *
  obtain ⟨em, e'⟩ := first
  obtain rfl : e' = t := hexponent
  dsimp only at *
  obtain ⟨hle, hge⟩ := roundedMantissa_bounds em
  have hulp := two_zpow_pos e'
  -- the rounded mantissa and the number lie between the same two multiples of the last place
  have hnear : |em.roundedMantissa * 2 ^ e' - v| ≤ 2 ^ e' := by
    have hleft : (em.mantissa : ℚ) * 2 ^ e' ≤ em.roundedMantissa * 2 ^ e' :=
      mul_le_mul_of_nonneg_right (by exact_mod_cast hle) hulp.le
    have hright : (em.roundedMantissa : ℚ) * 2 ^ e' ≤ (em.mantissa + 1) * 2 ^ e' :=
      mul_le_mul_of_nonneg_right (by exact_mod_cast hge) hulp.le
    rw [abs_le]
    constructor <;> linarith
  obtain ⟨hfits, hsame⟩ := carry_shifted (r := em.roundedMantissa) (by omega) hleast
    (hfull.imp_left hle.trans')
  generalize shiftToTargetExponent Format.binary64 em.roundedMantissa e' .exact = final at *
  by_cases hzero : final.1.mantissa = 0
  · rw [dif_pos hzero]
    refine ⟨trivial, em.roundedMantissa, ?_, hnear⟩
    rw [apply_mul, ← hsame, hzero, Nat.cast_zero, zero_mul, mul_zero]
    rfl
  · rw [dif_neg hzero]
    refine ⟨hfits, em.roundedMantissa, ?_, hnear⟩
    rw [apply_mul, ← hsame, ← apply_mul]
    rfl

/-- Bits that are all zero are shifted out without a trace. -/
theorem shiftRight_zeros (m k : Nat) :
    (⟨m * 2 ^ k, false, false⟩ : ExtendedMantissa) >>> k = ⟨m, false, false⟩ := by
  show k.repeat ExtendedMantissa.shiftRightOne ⟨m * 2 ^ k, false, false⟩ = _
  induction k generalizing m with
  | zero => simp [Nat.repeat]
  | succ k ih =>
    show (k.repeat ExtendedMantissa.shiftRightOne ⟨m * 2 ^ (k + 1), false, false⟩).shiftRightOne = _
    rw [pow_succ', ← mul_assoc, ih]
    simp [ExtendedMantissa.shiftRightOne]

section Fitting
variable {m : Nat} {e : ℤ} (hm : 0 < m) (h : Fits m e)
include hm h

theorem shiftToTargetExponent_of_fits (k : Nat) :
    shiftToTargetExponent Format.binary64 (m * 2 ^ k) (e - k) .exact = (⟨m, false, false⟩, e) := by
  have hlog : (m * 2 ^ k).log2 = m.log2 + k := by
    rw [← Nat.shiftLeft_eq]
    exact ((Leads.of_pos hm).shiftLeft k).log2
  have htarget : Format.binary64.targetExponent (totalExponent (m * 2 ^ k) (e - k)) = e := by
    have hfits := h.targetExponent
    rw [targetExponent_totalExponent] at hfits ⊢
    rw [hlog]
    omega
  unfold shiftToTargetExponent shiftToExponent
  rw [htarget]
  dsimp only
  rw [show (e - (e - (k : ℤ))).toNat = k by omega]
  exact congrArg₂ Prod.mk (shiftRight_zeros m k) (Int.sub_add_cancel e k)

/-- A number that fits is not changed, with zeros at its end or without. -/
theorem roundWithAccuracy_zeros (s : Sign) (k : Nat) :
    roundWithAccuracy Format.binary64 s (m * 2 ^ k) (e - k) .exact = .finite s m e hm := by
  have hkept : (⟨m, false, false⟩ : ExtendedMantissa).roundedMantissa = m := rfl
  have hagain := shiftToTargetExponent_of_fits hm h 0
  rw [Nat.pow_zero, Nat.mul_one, Int.natCast_zero, Int.sub_zero] at hagain
  unfold roundWithAccuracy
  rw [shiftToTargetExponent_of_fits hm h k]
  dsimp only
  rw [hkept, hagain]
  exact dif_neg (Nat.ne_of_gt hm)

theorem roundWithAccuracy_of_fits (s : Sign) :
    roundWithAccuracy Format.binary64 s m e .exact = .finite s m e hm := by
  have hzeros := roundWithAccuracy_zeros hm h s 0
  rwa [Nat.pow_zero, Nat.mul_one, Int.natCast_zero, Int.sub_zero] at hzeros

end Fitting

/-! ### How far a result may be off -/

/-- A number that differs from another one by a last place at most, and not at all if the last place
is the least there is. -/
def Near (a b : ℚ) : Prop := |a - b| ≤ |b| / 2 ^ 52 ∧ (|b| < 2 ^ (-1021 : ℤ) → a = b)

/-- A number that differs from another one by a last place at most, which may be the least there
is. -/
def Close (a b : ℚ) : Prop := |a - b| ≤ |b| / 2 ^ 52 + 2 ^ (-1074 : ℤ)

theorem Near.refl (a : ℚ) : Near a a := by
  refine ⟨?_, fun _ => rfl⟩
  rw [sub_self, abs_zero]
  positivity

theorem Near.signed (s : Sign) {a b : ℚ} (h : Near a b) :
    Near (((s.apply 1 : ℤ) : ℚ) * a) (((s.apply 1 : ℤ) : ℚ) * b) := by
  unfold Near
  rw [← mul_sub, abs_mul, abs_mul, abs_apply_one, one_mul, one_mul]
  exact ⟨h.1, fun hb => congrArg _ (h.2 hb)⟩

theorem Near.size_le {a b : ℚ} (h : Near a b) : |a| ≤ |b| * (1 + 1 / 2 ^ 52) := by
  have hsplit := abs_add_le (a - b) b
  rw [sub_add_cancel] at hsplit
  linarith [h.1]

/-- A number that is rounded is less than twice as large. -/
theorem Near.size_lt {a b : ℚ} (h : Near a b) {k : Nat} (hb : |b| < 2 ^ k) : |a| < 2 ^ (k + 1) := by
  have hle := h.size_le
  rw [pow_succ]
  nlinarith [abs_nonneg b]

theorem Close.size_lt {a b : ℚ} (h : Close a b) {k : Nat} (hb : |b| < 2 ^ k) :
    |a| < 2 ^ (k + 2) := by
  have hsplit := abs_add_le (a - b) b
  rw [sub_add_cancel] at hsplit
  have hleast : (2 : ℚ) ^ (-1074 : ℤ) ≤ 1 := zpow_le_one_of_nonpos₀ one_le_two (by decide)
  have hone : (1 : ℚ) ≤ 2 ^ k := one_le_pow₀ one_le_two
  unfold Close at h
  rw [pow_add]
  linarith

/-- The last place of a number with many bits. -/
theorem last_place_le {m : Nat} {e : ℤ} {v : ℚ} (hm : 0 < m) (hv : m * 2 ^ e ≤ v) :
    (2 : ℚ) ^ ((m.log2 : ℤ) + e - 52) ≤ v / 2 ^ 52 := by
  have hleading : (2 : ℚ) ^ m.log2 ≤ m := by exact_mod_cast (Leads.of_pos hm).1
  rw [zpow_sub₀ two_ne_zero, zpow_add₀ two_ne_zero, zpow_natCast]
  refine div_le_div_of_nonneg_right (le_trans ?_ hv) (by positivity)
  exact mul_le_mul_of_nonneg_right hleading (two_zpow_pos e).le

/-! ### Whole multiples of a power of two -/

/-- A number that is a multiple of its last place is not changed. -/
theorem round_of_le (s : Sign) {m : Nat} {e : ℤ} (hm : 0 < m)
    (h : max ((m.log2 : ℤ) + e - 52) (-1074) ≤ e) :
    Canonical (UnpackedFloat.round Format.binary64 s m e) ∧
      number (UnpackedFloat.round Format.binary64 s m e) = (s.apply m : ℤ) * 2 ^ e := by
  obtain ⟨n, hn⟩ : ∃ n : Nat, e = max ((m.log2 : ℤ) + e - 52) (-1074) + n :=
    ⟨(e - max ((m.log2 : ℤ) + e - 52) (-1074)).toNat, by omega⟩
  have hleads := (Leads.of_pos hm).shiftLeft n
  have hfits : Fits (m <<< n) (max ((m.log2 : ℤ) + e - 52) (-1074)) := by
    refine fits_of_targetExponent hleads.pos ?_
    rw [targetExponent_totalExponent, hleads.log2]
    omega
  unfold UnpackedFloat.round decreaseExponent
  rw [targetExponent_totalExponent m e]
  dsimp only
  generalize max ((m.log2 : ℤ) + e - 52) (-1074) = t at *
  subst hn
  rw [show ((t : ℤ) + n - t).toNat = n by omega, show (t : ℤ) + n - n = t by omega,
    roundWithAccuracy_of_fits hleads.pos hfits s]
  refine ⟨hfits, ?_⟩
  show (s.apply (m <<< n : Nat) : ℤ) * (2 : ℚ) ^ t = _
  rw [apply_mul, Nat.shiftLeft_eq, ← mul_two_zpow_add, ← apply_mul]

theorem round_near (s : Sign) {m : Nat} {e : ℤ} (hm : 0 < m) (he : -1074 ≤ e) :
    Canonical (UnpackedFloat.round Format.binary64 s m e) ∧
      Near (number (UnpackedFloat.round Format.binary64 s m e)) ((s.apply m : ℤ) * 2 ^ e) := by
  by_cases hfits : max ((m.log2 : ℤ) + e - 52) (-1074) ≤ e
  · obtain ⟨hcanonical, hnumber⟩ := round_of_le s hm hfits
    rw [hnumber]
    exact ⟨hcanonical, .refl _⟩
  · have htarget : Format.binary64.targetExponent (totalExponent m e) = m.log2 + e - 52 := by
      rw [targetExponent_totalExponent]
      omega
    have hround : UnpackedFloat.round Format.binary64 s m e =
        roundWithAccuracy Format.binary64 s m e .exact := by
      unfold UnpackedFloat.round decreaseExponent
      dsimp only
      rw [htarget, show (e - ((m.log2 : ℤ) + e - 52)).toNat = 0 by omega, Nat.shiftLeft_zero,
        show e - ((0 : Nat) : ℤ) = e by omega]
    rw [hround]
    obtain ⟨hcanonical, r, hnumber, hnear⟩ := roundWithAccuracy_near s .exact htarget (by omega)
      (le_refl ((m : ℚ) * 2 ^ e)) (mul_le_mul_of_nonneg_right (by linarith) (two_zpow_pos e).le)
    rw [hnumber, apply_mul, apply_mul s m]
    refine ⟨hcanonical, Near.signed s ?_⟩
    have hpos : 0 < (m : ℚ) * 2 ^ e := mul_pos (Nat.cast_pos.mpr hm) (two_zpow_pos e)
    have hplace := last_place_le hm (le_refl ((m : ℚ) * 2 ^ e))
    unfold Near
    rw [abs_of_pos hpos]
    refine ⟨hnear.trans hplace, fun hsmall => ?_⟩
    -- the last place of so small a number would be the least there is
    have hexponent : (2 : ℚ) ^ ((m.log2 : ℤ) + e - 52) < 2 ^ (-1021 - 52 : ℤ) := by
      refine hplace.trans_lt ?_
      rw [zpow_sub₀ two_ne_zero]
      exact div_lt_div_of_pos_right hsmall (by positivity)
    have hbelow := (zpow_lt_zpow_iff_right₀ (one_lt_two : (1 : ℚ) < 2)).mp hexponent
    omega

theorem normalize_near (M : ℤ) {e : ℤ} (he : -1074 ≤ e) (s : Sign) :
    Canonical (UnpackedFloat.normalize Format.binary64 M e s) ∧
      Near (number (UnpackedFloat.normalize Format.binary64 M e s)) (M * 2 ^ e) := by
  unfold UnpackedFloat.normalize
  cases hcompare : compare M 0 with
  | lt =>
    have hneg : M < 0 := Int.compare_eq_lt.mp hcompare
    have hsigned : Sign.negative.apply ((-M).toNat : ℤ) = M := by
      rw [Int.toNat_of_nonneg (by omega)]
      exact Int.neg_neg M
    have hround := round_near .negative (m := (-M).toNat) (by omega) he
    rwa [hsigned] at hround
  | eq =>
    obtain rfl : M = 0 := Int.compare_eq_eq.mp hcompare
    refine ⟨trivial, ?_⟩
    rw [Int.cast_zero, zero_mul]
    exact Near.refl 0
  | gt =>
    have hpos : 0 < M := Int.compare_eq_gt.mp hcompare
    have hsigned : Sign.positive.apply (M.toNat : ℤ) = M := Int.toNat_of_nonneg hpos.le
    have hround := round_near .positive (m := M.toNat) (by omega) he
    rwa [hsigned] at hround

/-! ### Sums and differences -/

/-- A number with a smaller exponent is the same. -/
theorem aligned (s : Sign) (m : Nat) {e t : ℤ} (h : t ≤ e) :
    ((s.apply ((m <<< (e - t).toNat : Nat) : ℤ) : ℤ) : ℚ) * 2 ^ t = (s.apply m : ℤ) * 2 ^ e := by
  have hsame : ((m <<< (e - t).toNat : Nat) : ℚ) * 2 ^ t = (m : ℚ) * 2 ^ e := by
    rw [Nat.shiftLeft_eq, ← mul_two_zpow_add, show t + ((e - t).toNat : ℤ) = e by omega]
  cases s with
  | positive => exact hsame
  | negative =>
    simp only [Sign.apply, Int.cast_neg, neg_mul]
    exact congrArg Neg.neg hsame

theorem Canonical.exponent_le {s : Sign} {m : Nat} {e : ℤ} {h : 0 < m}
    (hu : Canonical (.finite s m e h)) : -1074 ≤ e := hu.2.1

variable {u v : UnpackedFloat}

theorem add_near (hu : Canonical u) (hv : Canonical v) :
    Canonical (add Format.binary64 u v) ∧
      Near (number (add Format.binary64 u v)) (number u + number v) := by
  cases u with
  | infinity s => exact hu.elim
  | notANumber => exact hu.elim
  | zero s =>
    cases v with
    | infinity s => exact hv.elim
    | notANumber => exact hv.elim
    | zero s' =>
      have hzero : ∃ s₀, add Format.binary64 (.zero s) (.zero s') = .zero s₀ := by
        cases s <;> cases s' <;> exact ⟨_, rfl⟩
      obtain ⟨s₀, hzero⟩ := hzero
      rw [hzero]
      refine ⟨trivial, ?_⟩
      rw [show number (.zero s) + number (.zero s') = 0 from add_zero 0]
      exact Near.refl 0
    | finite s' m e h =>
      refine ⟨hv, ?_⟩
      rw [show number (.zero s) = 0 from rfl, zero_add]
      exact Near.refl _
  | finite s₁ m₁ e₁ h₁ =>
    cases v with
    | infinity s => exact hv.elim
    | notANumber => exact hv.elim
    | zero s =>
      refine ⟨hu, ?_⟩
      rw [show number (.zero s) = 0 from rfl, add_zero]
      exact Near.refl _
    | finite s₂ m₂ e₂ h₂ =>
      have hsum := normalize_near
        (s₁.apply ((m₁ <<< (e₁ - min e₁ e₂).toNat : Nat) : ℤ) +
          s₂.apply ((m₂ <<< (e₂ - min e₁ e₂).toNat : Nat) : ℤ))
        (e := min e₁ e₂) (le_min hu.exponent_le hv.exponent_le) .positive
      rw [Int.cast_add, add_mul, aligned s₁ m₁ (min_le_left e₁ e₂),
        aligned s₂ m₂ (min_le_right e₁ e₂)] at hsum
      exact hsum

theorem sub_eq_add (u v : UnpackedFloat) :
    sub Format.binary64 u v = add Format.binary64 u v.neg := by
  cases u with
  | finite s₁ m₁ e₁ h₁ =>
    cases v with
    | finite s₂ m₂ e₂ h₂ =>
      have hsign (n : ℤ) : (-s₂).apply n = -s₂.apply n := by
        cases s₂ with
        | negative => exact (Int.neg_neg n).symm
        | positive => rfl
      show UnpackedFloat.normalize Format.binary64 (_ - _) _ _ =
        UnpackedFloat.normalize Format.binary64 (_ + (-s₂).apply _) _ _
      rw [hsign, ← Int.sub_eq_add_neg]
    | _ => rfl
  | _ => cases v <;> rfl

theorem number_neg (v : UnpackedFloat) : number v.neg = -number v := by
  cases v with
  | finite s m e h =>
    cases s with
    | negative =>
      show ((m : ℤ) : ℚ) * 2 ^ e = -(((-(m : ℤ) : ℤ) : ℚ) * 2 ^ e)
      push_cast
      ring
    | positive =>
      show ((-(m : ℤ) : ℤ) : ℚ) * 2 ^ e = -(((m : ℤ) : ℚ) * 2 ^ e)
      push_cast
      ring
  | _ => exact neg_zero.symm

theorem Canonical.neg (hv : Canonical v) : Canonical v.neg := by
  cases v with
  | _ => exact hv

theorem sub_near (hu : Canonical u) (hv : Canonical v) :
    Canonical (sub Format.binary64 u v) ∧
      Near (number (sub Format.binary64 u v)) (number u - number v) := by
  have hadd := add_near hu hv.neg
  rwa [← sub_eq_add, number_neg, ← sub_eq_add_neg] at hadd

/-! ### Quotients -/

/-- The whole part of a quotient and what it is cut off from. -/
theorem quotient_between {m n : Nat} (hn : 0 < n) :
    ((m / n : Nat) : ℚ) ≤ m / n ∧ (m : ℚ) / n ≤ ((m / n : Nat) : ℚ) + 1 := by
  have hpos : (0 : ℚ) < n := by exact_mod_cast hn
  rw [le_div_iff₀ hpos, div_le_iff₀ hpos]
  have hnext : m < (m / n + 1) * n := Nat.lt_mul_of_div_lt (Nat.lt_succ_self _) hn
  exact ⟨by exact_mod_cast Nat.div_mul_le_self m n, by exact_mod_cast hnext.le⟩

section Quotients
variable {m₁ m₂ : Nat} {e₁ e₂ : ℤ} (h₁ : 0 < m₁) (hm₂ : Leads m₂ 52)
include h₁ hm₂

/-- The exponent to which a quotient is found leaves it as many bits as a mantissa has, or it is as
small as the least. -/
theorem quotientExponent_le (hm₁ : m₁ < 2 ^ 53) :
    let e := quotientExponent m₁ e₁ e₂
    e ≤ -1074 ∨ 52 ≤ ((m₁ <<< (e₁ - e₂ - e).toNat) / m₂).log2 := by
  intro e
  have hlog := (Leads.of_pos h₁).lt hm₁
  have he : e = min (e₁ - e₂) (max ((m₁.log2 : ℤ) + e₁ - e₂ - 105) (-1074)) := rfl
  by_cases hleast : e ≤ -1074
  · exact .inl hleast
  · have hleads := (Leads.of_pos h₁).shiftLeft (e₁ - e₂ - e).toNat
    rw [show m₁.log2 + (e₁ - e₂ - e).toNat = 105 by omega] at hleads
    rcases hleads.div hm₂ (by decide) with h | h
    · exact .inr (by rw [h.log2])
    · exact .inr (by rw [h.log2]; decide)

omit h₁ in
/-- A quotient of two numbers is one of mantissas. -/
theorem quotient_shifted {e : ℤ} (he : e ≤ e₁ - e₂) :
    (m₁ : ℚ) * 2 ^ e₁ / (m₂ * 2 ^ e₂) =
      ((m₁ <<< (e₁ - e₂ - e).toNat : Nat) : ℚ) / m₂ * 2 ^ e := by
  have hbits : (2 : ℚ) ^ e₁ = 2 ^ (e₁ - e₂ - e).toNat * 2 ^ e * 2 ^ e₂ := by
    rw [← zpow_natCast, ← zpow_add₀ two_ne_zero, ← zpow_add₀ two_ne_zero]
    congr 1
    omega
  have hne : (m₂ : ℚ) ≠ 0 := by exact_mod_cast hm₂.pos.ne'
  have hne' := (two_zpow_pos e₂).ne'
  rw [hbits, Nat.shiftLeft_eq]
  push_cast
  field_simp

theorem div_close (h₂ : 0 < m₂) (hm₁ : m₁ < 2 ^ 53) :
    let u := UnpackedFloat.finite .positive m₁ e₁ h₁
    let v := UnpackedFloat.finite .positive m₂ e₂ h₂
    Canonical (div Format.binary64 u v) ∧ 0 ≤ number (div Format.binary64 u v) ∧
      Close (number (div Format.binary64 u v)) (number u / number v) := by
  intro u v
  have hplace := @quotientExponent_le m₁ m₂ e₁ e₂ h₁ hm₂ hm₁
  have hquotient : number u / number v = _ :=
    quotient_shifted hm₂ (show quotientExponent m₁ e₁ e₂ ≤ e₁ - e₂ from min_le_left _ _)
  have hdiv : div Format.binary64 u v = (match divCore Format.binary64 m₁ e₁ m₂ e₂ with
    | (m, e, accuracy) =>
      roundWithAccuracy Format.binary64 (Sign.positive / .positive) m e accuracy) := rfl
  rw [hdiv, hquotient, divCore_eq m₁ e₁ e₂ hm₂,
    show Sign.positive / Sign.positive = .positive from rfl]
  dsimp only at *
  obtain ⟨hlow, hhigh⟩ := quotient_between (m := m₁ <<< (e₁ - e₂ - quotientExponent m₁ e₁ e₂).toNat)
    hm₂.pos
  generalize (m₁ <<< (e₁ - e₂ - quotientExponent m₁ e₁ e₂).toNat) / m₂ = q at *
  generalize ((m₁ <<< (e₁ - e₂ - quotientExponent m₁ e₁ e₂).toNat : Nat) : ℚ) / m₂ = exact at *
  generalize accuracyOfFraction _ _ = accuracy
  generalize quotientExponent m₁ e₁ e₂ = e at *
  have hulp := two_zpow_pos e
  have hlow := mul_le_mul_of_nonneg_right hlow hulp.le
  obtain ⟨hcanonical, r, hnumber, hnear⟩ := roundWithAccuracy_near .positive accuracy
    (targetExponent_totalExponent q e) (by omega) hlow
    (mul_le_mul_of_nonneg_right hhigh hulp.le)
  have hexact : 0 ≤ exact * 2 ^ e := (mul_nonneg (Nat.cast_nonneg q) hulp.le).trans hlow
  rw [hnumber]
  refine ⟨hcanonical, mul_nonneg (Int.cast_nonneg (Int.natCast_nonneg r)) (two_zpow_pos _).le,
    hnear.trans ?_⟩
  rw [abs_of_nonneg hexact]
  rcases le_total ((q.log2 : ℤ) + e - 52) (-1074) with hleast | hfull
  · rw [max_eq_right hleast]
    exact le_add_of_nonneg_left (by positivity)
  · rw [max_eq_left hfull]
    have hq : 0 < q := by
      by_contra hzero
      obtain rfl : q = 0 := by omega
      rw [Nat.log2_zero] at hfull hplace
      omega
    exact le_add_of_le_of_nonneg (last_place_le hq hlow) (two_zpow_pos _).le

end Quotients

end OrderTelemetry.Double
