import OrderTelemetry.Decimal.Binary
import OrderTelemetry.Proofs.Decimal.Value

/-! # Products and whole numbers

The product of a double with a normal one is close to that of their numbers, and the whole number
nearest to a double is found from the parts of its bits, which stand for the same number.

* `value_mul`: the product of two doubles above zero.
* `value_of_ofFloat`: the parts of the bits of a double stand for its number.
* `nearestNat_le`: a double less than a half above a whole number is not rounded beyond it. -/

namespace OrderTelemetry.Double

open Float.Model Float.Model.UnpackedFloat

/-! ### Order -/

/-- Of two numbers that fit, the one with the smaller exponent is smaller. -/
theorem Fits.lt_of_exponent_lt {m₁ m₂ : Nat} {e₁ e₂ : ℤ} (h₁ : Fits m₁ e₁) (h₂ : Fits m₂ e₂)
    (h : e₁ < e₂) : (m₁ : ℚ) * 2 ^ e₁ < m₂ * 2 ^ e₂ := by
  obtain ⟨d, rfl⟩ : ∃ d : Nat, e₂ = e₁ + (d + 1 : Nat) := ⟨(e₂ - e₁ - 1).toNat, by omega⟩
  have hlow := h₁.2.1
  have hall : 2 ^ 52 ≤ m₂ := h₂.2.2.resolve_right (by omega)
  have hlong : 2 ^ 52 * 2 ≤ m₂ * 2 ^ (d + 1) :=
    Nat.mul_le_mul hall (Nat.le_self_pow (Nat.succ_ne_zero d) 2)
  have hshort : m₁ < m₂ * 2 ^ (d + 1) := lt_of_lt_of_le h₁.1 hlong
  rw [mul_two_zpow_add]
  exact mul_lt_mul_of_pos_right (by exact_mod_cast hshort) (two_zpow_pos e₁)

/-- A double that is not above another one stands for no greater number. -/
theorem value_le_of_not_lt {x y : Float} (hx : x.isFinite = true) (hy : y.isFinite = true)
    (hypos : 0 < value y) (h : ¬ y < x) : value x ≤ value y := by
  rcases le_or_gt (value x) 0 with hxneg | hxpos
  · exact hxneg.trans hypos.le
  obtain ⟨m₁, e₁, h₁, hunpack₁, hfits₁⟩ := unpack_of_value_pos hx hxpos
  obtain ⟨m₂, e₂, h₂, hunpack₂, hfits₂⟩ := unpack_of_value_pos hy hypos
  have hcompare : (compare e₂ e₁).then (compare m₂ m₁) ≠ .lt := by
    intro hlt
    refine h (lt_iff.mpr ?_)
    rw [hunpack₁, hunpack₂]
    show (some ((compare e₂ e₁).then (compare m₂ m₁)) == some Ordering.lt) = true
    rw [hlt]
    rfl
  unfold value
  rw [hunpack₁, hunpack₂]
  show (m₁ : ℚ) * 2 ^ e₁ ≤ m₂ * 2 ^ e₂
  rcases lt_trichotomy e₁ e₂ with hless | rfl | hmore
  · exact (hfits₁.lt_of_exponent_lt hfits₂ hless).le
  · have hle : m₁ ≤ m₂ := by
      by_contra hgt
      refine hcompare ?_
      rw [Int.compare_eq_eq.mpr rfl, Nat.compare_eq_lt.mpr (Nat.lt_of_not_le hgt)]
      rfl
    exact mul_le_mul_of_nonneg_right (by exact_mod_cast hle) (two_zpow_pos e₁).le
  · rw [Int.compare_eq_lt.mpr hmore] at hcompare
    exact absurd rfl hcompare

/-! ### Products -/

section Products
variable {m₁ m₂ : Nat} {e₁ e₂ : ℤ}

theorem mul_close (h₁ : 0 < m₁) (h₂ : 0 < m₂) (hm₂ : Leads m₂ 52) :
    let u := UnpackedFloat.finite .positive m₁ e₁ h₁
    let v := UnpackedFloat.finite .positive m₂ e₂ h₂
    Canonical (mul Format.binary64 u v) ∧ 0 ≤ number (mul Format.binary64 u v) ∧
      Close (number (mul Format.binary64 u v)) (number u * number v) := by
  intro u v
  have hpos : 0 < m₁ * m₂ := Nat.mul_pos h₁ h₂
  have hlog : 52 ≤ (m₁ * m₂).log2 := by
    rw [Nat.le_log2 hpos.ne']
    exact hm₂.1.trans (Nat.le_mul_of_pos_left m₂ h₁)
  have hmul : mul Format.binary64 u v =
      roundWithAccuracy Format.binary64 .positive (m₁ * m₂) (e₁ + e₂) .exact := rfl
  have hproduct : number u * number v = ((m₁ * m₂ : Nat) : ℚ) * 2 ^ (e₁ + e₂) := by
    show (m₁ : ℚ) * 2 ^ e₁ * (m₂ * 2 ^ e₂) = _
    rw [zpow_add₀ two_ne_zero]
    push_cast
    ring
  rw [hmul, hproduct]
  generalize m₁ * m₂ = m at *
  generalize e₁ + e₂ = e at *
  have hexact : 0 ≤ (m : ℚ) * 2 ^ e := mul_nonneg (Nat.cast_nonneg m) (two_zpow_pos e).le
  obtain ⟨hcanonical, r, hnumber, hnear⟩ := roundWithAccuracy_near .positive .exact
    (targetExponent_totalExponent m e) (by omega) (le_refl ((m : ℚ) * 2 ^ e))
    (mul_le_mul_of_nonneg_right (by linarith) (two_zpow_pos e).le)
  rw [hnumber]
  refine ⟨hcanonical, mul_nonneg (Int.cast_nonneg (Int.natCast_nonneg r)) (two_zpow_pos _).le,
    hnear.trans ?_⟩
  rw [abs_of_nonneg hexact]
  rcases le_total ((m.log2 : ℤ) + e - 52) (-1074) with hleast | hfull
  · rw [max_eq_right hleast]
    exact le_add_of_nonneg_left (by positivity)
  · rw [max_eq_left hfull]
    exact le_add_of_le_of_nonneg (last_place_le hpos le_rfl) (two_zpow_pos _).le

end Products

/-- A product with zero is zero. -/
theorem value_zero_mul {x y : Float} {low high : ℤ} (hx : x.isFinite = true) (hzero : value x = 0)
    (hy : Within y low high) : value (x * y) = 0 := by
  obtain ⟨s₂, m₂, e₂, h₂, hunpack₂, -⟩ := hy
  obtain ⟨s, hunpack⟩ := unpack_of_value_zero hx hzero
  have hmul : mul Format.binary64 x.toModel.unpack y.toModel.unpack = .zero (s * s₂) := by
    rw [hunpack, hunpack₂]
    rfl
  have hpack := value_pack (u := .zero (s * s₂)) trivial (by
    rw [show number (.zero (s * s₂)) = 0 from rfl, abs_zero]
    positivity)
  rw [← hmul] at hpack
  rw [show value (x * y) = _ from hpack.2, hmul]
  rfl

/-- **The product of two doubles is close to that of their numbers.** -/
theorem value_mul {x y : Float} {low high : ℤ} (hx : x.isFinite = true) (hxpos : 0 < value x)
    (hy : Within y low high) (hypos : 0 < value y) (hlarge : value x * value y < 2 ^ 1000) :
    (x * y).isFinite = true ∧ 0 ≤ value (x * y) ∧ Close (value (x * y)) (value x * value y) := by
  obtain ⟨m₁, e₁, h₁, hunpack₁, -⟩ := unpack_of_value_pos hx hxpos
  obtain ⟨s, m₂, e₂, h₂, hunpack₂, hm₂, -⟩ := hy
  have hproduct : 0 ≤ value x * value y := mul_nonneg hxpos.le hypos.le
  unfold value at hypos
  rw [hunpack₂, number_pos_iff] at hypos
  subst hypos
  obtain ⟨hcanonical, hnonneg, hclose⟩ := @mul_close m₁ m₂ e₁ e₂ h₁ h₂ hm₂
  rw [← hunpack₁, ← hunpack₂] at hcanonical hnonneg hclose
  have hsize : |value x * value y| < 2 ^ 1000 := (abs_of_nonneg hproduct).trans_lt hlarge
  obtain ⟨hfinite, hvalue⟩ := value_pack hcanonical
    ((hclose.size_lt hsize).trans (pow_lt_pow_right₀ one_lt_two (by decide)))
  refine ⟨hfinite, ?_⟩
  rw [show value (x * y) = _ from hvalue]
  exact ⟨hnonneg, hclose⟩

/-! ### The parts of the bits -/

theorem toNat_unpackExponent (x : Float) :
    (@unpackExponent Format.binary64 x.toBits.toBitVec).toNat = exponentBits x := by
  simp [unpackExponent, exponentBits, Nat.shiftRight_eq_div_pow]

theorem toNat_unpackMantissa (x : Float) :
    (@unpackMantissa Format.binary64 x.toBits.toBitVec).toNat =
      x.toBits.toNat % 0x10000000000000 := by
  simp [unpackMantissa]

/-- A double whose first bit is not set has a positive sign. -/
theorem unpackSign_of_lt {x : Float} (h : x.toBits.toNat < 0x8000000000000000) :
    Sign.ofBitVec (@unpackSign Format.binary64 x.toBits.toBitVec) = .positive := by
  have hbit : (@unpackSign Format.binary64 x.toBits.toBitVec).toNat =
      x.toBits.toNat / 0x8000000000000000 % 2 := by
    show (x.toBits.toBitVec.extractLsb' 63 1).toNat = _
    rw [BitVec.extractLsb'_toNat, Nat.shiftRight_eq_div_pow]
    rfl
  have hzero : @unpackSign Format.binary64 x.toBits.toBitVec = 0#1 := by
    rw [← BitVec.toNat_inj, hbit, Nat.div_eq_of_lt h]
    rfl
  rw [hzero]
  rfl

/-- The number of a double without a sign is read off its bits. -/
theorem value_of_bits {x : Float} (h : x.toBits.toNat < 0x8000000000000000) :
    value x =
      if exponentBits x = 2047 then 0
      else if exponentBits x = 0 then
        ((x.toBits.toNat % 0x10000000000000 : Nat) : ℚ) * 2 ^ (-1074 : ℤ)
      else ((x.toBits.toNat % 0x10000000000000 + 0x10000000000000 : Nat) : ℚ) *
        2 ^ ((exponentBits x : ℤ) - 1075) := by
  have hones : @unpackExponent Format.binary64 x.toBits.toBitVec = -1#11 ↔
      exponentBits x = 2047 := by
    rw [← BitVec.toNat_inj, toNat_unpackExponent]
    rfl
  have hzero : @unpackExponent Format.binary64 x.toBits.toBitVec = 0#11 ↔ exponentBits x = 0 := by
    rw [← BitVec.toNat_inj, toNat_unpackExponent]
    rfl
  have hnone : @unpackMantissa Format.binary64 x.toBits.toBitVec = 0#52 ↔
      x.toBits.toNat % 0x10000000000000 = 0 := by
    rw [← BitVec.toNat_inj, toNat_unpackMantissa]
    rfl
  show number (UnpackedFloat.unpack Format.binary64 x.toBits.toBitVec) = _
  unfold UnpackedFloat.unpack
  dsimp only
  rw [unpackSign_of_lt h]
  by_cases hspecial : exponentBits x = 2047
  · rw [if_pos (hones.mpr hspecial), if_pos hspecial]
    split_ifs <;> rfl
  rw [if_neg (mt hones.mp hspecial), if_neg hspecial]
  by_cases hleast : exponentBits x = 0
  · rw [if_pos (hzero.mpr hleast), if_pos hleast]
    by_cases hnothing : x.toBits.toNat % 0x10000000000000 = 0
    · rw [dif_pos (hnone.mpr hnothing), hnothing, Nat.cast_zero, zero_mul]
      rfl
    · rw [dif_neg (mt hnone.mp hnothing), hzero.mpr hleast]
      show ((@unpackMantissa Format.binary64 x.toBits.toBitVec).toNat : ℚ) * 2 ^ (-1074 : ℤ) = _
      rw [toNat_unpackMantissa]
  · rw [if_neg (mt hzero.mp hleast), if_neg hleast, ← toNat_unpackMantissa, ← toNat_unpackExponent]
    show ((1#1 ++ @unpackMantissa Format.binary64 x.toBits.toBitVec).toNat : ℚ) * 2 ^ _ = _
    rw [toNat_implicit_append, Nat.add_comm]
    rfl

/-- **The parts of the bits of a double stand for its number.** -/
theorem value_of_ofFloat {x : Float} {m : Nat} {q : ℤ}
    (h : Decimal.Binary.ofFloat x = .finite false m q) : value x = m * 2 ^ q := by
  unfold Decimal.Binary.ofFloat at h
  dsimp only at h
  rw [show x.toBits.toNat / 0x10000000000000 % 0x800 = exponentBits x from rfl] at h
  split_ifs at h with hspecial hinfinite hleast
  · obtain ⟨hsign, rfl, rfl⟩ := Decimal.Binary.finite.inj h
    rw [value_of_bits (by simpa using hsign), if_neg hspecial, if_pos hleast]
  · obtain ⟨hsign, rfl, rfl⟩ := Decimal.Binary.finite.inj h
    rw [value_of_bits (by simpa using hsign), if_neg hspecial, if_neg hleast]

theorem roundHalfUp_le {m n d : Nat} (hd : 0 < d) (h : 2 * m < (2 * n + 1) * d) :
    Decimal.roundHalfUp m d ≤ n := by
  unfold Decimal.roundHalfUp
  rw [← Nat.lt_succ_iff, Nat.div_lt_iff_lt_mul (Nat.mul_pos two_pos hd)]
  show 2 * m + d < (n + 1) * (2 * d)
  linarith

/-- **A double less than a half above a whole number is not rounded beyond it.** -/
theorem nearestNat_le {x : Float} {n : Nat} (h : value x < n + 1 / 2) :
    Decimal.nearestNat x ≤ n := by
  unfold Decimal.nearestNat
  cases hparts : Decimal.Binary.ofFloat x with
  | infinite negative => exact Nat.zero_le n
  | nan => exact Nat.zero_le n
  | finite negative m q =>
    cases negative with
    | true => exact Nat.zero_le n
    | false =>
      rw [value_of_ofFloat hparts] at h
      dsimp only
      split_ifs with hq
      · have hwhole : (m : ℚ) * 2 ^ q = ((m * 2 ^ q.toNat : Nat) : ℚ) := by
          rw [← Int.toNat_of_nonneg hq, zpow_natCast, Int.toNat_natCast]
          push_cast
          rfl
        rw [hwhole] at h
        have hlt : m * 2 ^ q.toNat < n + 1 := by
          have hnext : ((m * 2 ^ q.toNat : Nat) : ℚ) < ((n + 1 : Nat) : ℚ) := by
            push_cast at h ⊢
            linarith
          exact_mod_cast hnext
        exact Nat.lt_succ_iff.mp hlt
      · have hpower : (2 : ℚ) ^ q * 2 ^ (-q).toNat = 1 := by
          rw [← zpow_natCast, ← zpow_add₀ two_ne_zero, show q + ((-q).toNat : ℤ) = 0 by omega,
            zpow_zero]
        have hscaled : 2 * (m : ℚ) < (2 * n + 1) * 2 ^ (-q).toNat := by
          calc 2 * (m : ℚ) = 2 * (m * 2 ^ q) * 2 ^ (-q).toNat := by
                rw [mul_assoc, mul_assoc, hpower, mul_one]
            _ < (2 * n + 1) * 2 ^ (-q).toNat := by
                refine mul_lt_mul_of_pos_right ?_ (by positivity)
                linarith
        exact roundHalfUp_le (Nat.two_pow_pos _) (by exact_mod_cast hscaled)

end OrderTelemetry.Double
