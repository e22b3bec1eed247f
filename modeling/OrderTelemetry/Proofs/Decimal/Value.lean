import OrderTelemetry.Proofs.Decimal.Rounding

/-! # The number that a double stands for

A finite double stands for a rational number (`value`).  The sum, the difference and the quotient of
two doubles are near to those of their numbers, as long as these are not too large for a double and,
for a quotient, not too small.

* `canonical_unpack`, `unpack_pack_canonical`: canonical form is what comes from bits and what comes
  back from them.
* `value_add`, `value_sub`, `value_div`: the operations.
* `zero_lt_iff`, `value_nonneg`, `value_ofNat_pos`: signs. -/

namespace OrderTelemetry.Double

open Float.Model Float.Model.UnpackedFloat

/-- The number that a double stands for. -/
def value (x : Float) : ℚ := number x.toModel.unpack

variable {u : UnpackedFloat}

/-! ### From bits and back -/

theorem toNat_implicit_append (bits : BitVec 52) : (1#1 ++ bits).toNat = 2 ^ 52 + bits.toNat := by
  rw [BitVec.toNat_append, ← Nat.shiftLeft_add_eq_or_of_lt bits.isLt]
  rfl

/-- What comes from bits is in canonical form if it is finite. -/
theorem canonical_unpack {bits : BitVec 64}
    (h : (UnpackedFloat.unpack Format.binary64 bits).isFinite = true) :
    Canonical (UnpackedFloat.unpack Format.binary64 bits) := by
  have hlt : (@unpackMantissa Format.binary64 bits).toNat < 2 ^ 52 := BitVec.isLt _
  unfold UnpackedFloat.unpack at h ⊢
  dsimp only at h ⊢
  by_cases hones : @unpackExponent Format.binary64 bits = -1#11
  · rw [if_pos hones] at h
    split_ifs at h <;> cases h
  · rw [if_neg hones]
    by_cases hzero : @unpackExponent Format.binary64 bits = 0#11
    · rw [if_pos hzero]
      by_cases hmantissa : @unpackMantissa Format.binary64 bits = 0#52
      · rw [dif_pos hmantissa]
        trivial
      · rw [dif_neg hmantissa]
        rw [hzero]
        exact ⟨hlt.trans (by decide), by decide, .inr rfl⟩
    · rw [if_neg hzero]
      have hpos : 0 < (@unpackExponent Format.binary64 bits).toNat :=
        Nat.pos_of_ne_zero fun h => hzero (BitVec.toNat_inj.mp h)
      have hexponent : (-1074 : ℤ) ≤
          (@unpackExponent Format.binary64 bits).toNat - ((1023 : Nat) + (52 : Nat)) := by omega
      have hmantissa := toNat_implicit_append (@unpackMantissa Format.binary64 bits)
      exact ⟨by omega, hexponent, .inl (by omega)⟩

theorem unpack_pack_subnormal (s : Sign) {m : Nat} (h : 0 < m) (hm : m < 2 ^ 52) :
    UnpackedFloat.unpack Format.binary64
        (UnpackedFloat.pack Format.binary64 (.finite s m (-1074) h)) = .finite s m (-1074) h := by
  have hlog : m.log2 < 52 := (Nat.log2_lt (Nat.ne_of_gt h)).mpr hm
  have hmantissa : (BitVec.ofNat 52 m).toNat = m := by
    rw [BitVec.toNat_ofNat]
    exact Nat.mod_eq_of_lt hm
  have hne : BitVec.ofNat 52 m ≠ 0#52 := fun heq => by
    have := congrArg BitVec.toNat heq
    rw [hmantissa] at this
    have : m = 0 := this
    omega
  have hpack : UnpackedFloat.pack Format.binary64 (.finite s m (-1074) h) =
      packComponents Format.binary64 s 0#11 (BitVec.ofNat 52 m) := by
    unfold UnpackedFloat.pack
    dsimp only
    rw [if_neg (by decide), if_neg (by show ¬ m.log2 + 1 = 53; omega)]
  rw [hpack]
  unfold UnpackedFloat.unpack
  dsimp only
  rw [if_neg (by rw [unpackExponent_packComponents]; decide),
    if_pos (by rw [unpackExponent_packComponents]),
    dif_neg (by rwa [unpackMantissa_packComponents]), UnpackedFloat.finite.injEq,
    unpackSign_packComponents, unpackMantissa_packComponents, unpackExponent_packComponents,
    hmantissa]
  exact ⟨rfl, rfl, rfl⟩

theorem abs_number_finite (s : Sign) (m : Nat) (e : ℤ) (h : 0 < m) :
    |number (.finite s m e h)| = (m : ℚ) * 2 ^ e := by
  show |((s.apply m : ℤ) : ℚ) * 2 ^ e| = _
  rw [apply_mul, abs_mul, abs_apply_one, one_mul]
  exact abs_of_nonneg (mul_nonneg (Nat.cast_nonneg m) (two_zpow_pos e).le)

/-- **A number in canonical form comes back from its bits** if it is not too large. -/
theorem unpack_pack_canonical (hu : Canonical u) (hbound : |number u| < 2 ^ 1023) :
    UnpackedFloat.unpack Format.binary64 (UnpackedFloat.pack Format.binary64 u) = u := by
  cases u with
  | infinity s => exact hu.elim
  | notANumber => exact hu.elim
  | zero s => exact unpack_pack_zero s
  | finite s m e h =>
    obtain ⟨hm, he, hfull⟩ := hu
    by_cases hall : 2 ^ 52 ≤ m
    · have hsize : (2 : ℚ) ^ (52 + e) < 2 ^ (1023 : ℤ) := by
        rw [abs_number_finite] at hbound
        refine lt_of_le_of_lt ?_ hbound
        rw [zpow_add₀ two_ne_zero]
        exact mul_le_mul_of_nonneg_right (by exact_mod_cast hall) (two_zpow_pos e).le
      have hexponent := (zpow_lt_zpow_iff_right₀ one_lt_two).mp hsize
      exact unpack_pack ⟨s, m, e, h, rfl, ⟨hall, hm⟩, le_refl _, le_refl _⟩ (by omega) (by omega)
    · obtain rfl := hfull.resolve_left hall
      exact unpack_pack_subnormal s h (Nat.lt_of_not_le hall)

/-! ### Doubles -/

variable {x y : Float}

theorem canonical_of_isFinite (h : x.isFinite = true) : Canonical x.toModel.unpack :=
  canonical_unpack h

theorem isFinite_of_canonical (hu : Canonical u) : u.isFinite = true := by
  cases u with
  | infinity s => exact hu.elim
  | notANumber => exact hu.elim
  | zero s => rfl
  | finite s m e h => rfl

/-- A number in canonical form that is not too large is that of its double. -/
theorem value_pack (hu : Canonical u) (hbound : |number u| < 2 ^ 1023) :
    (Float.ofModel (.pack u)).isFinite = true ∧ value (.ofModel (.pack u)) = number u := by
  have hunpack := unpack_pack_canonical hu hbound
  refine ⟨?_, congrArg number hunpack⟩
  show (UnpackedFloat.unpack Format.binary64 (UnpackedFloat.pack Format.binary64 u)).isFinite = true
  rw [hunpack]
  exact isFinite_of_canonical hu

/-- **The sum of two doubles is near to that of their numbers.** -/
theorem value_add (hx : x.isFinite = true) (hy : y.isFinite = true)
    (h : |value x + value y| < 2 ^ 1022) :
    (x + y).isFinite = true ∧ Near (value (x + y)) (value x + value y) := by
  obtain ⟨hcanonical, hnear⟩ := add_near (canonical_of_isFinite hx) (canonical_of_isFinite hy)
  obtain ⟨hfinite, hvalue⟩ := value_pack hcanonical (hnear.size_lt h)
  refine ⟨hfinite, ?_⟩
  rw [show value (x + y) = _ from hvalue]
  exact hnear

theorem value_sub (hx : x.isFinite = true) (hy : y.isFinite = true)
    (h : |value x - value y| < 2 ^ 1022) :
    (x - y).isFinite = true ∧ Near (value (x - y)) (value x - value y) := by
  obtain ⟨hcanonical, hnear⟩ := sub_near (canonical_of_isFinite hx) (canonical_of_isFinite hy)
  obtain ⟨hfinite, hvalue⟩ := value_pack hcanonical (hnear.size_lt h)
  refine ⟨hfinite, ?_⟩
  rw [show value (x - y) = _ from hvalue]
  exact hnear

/-! ### Signs -/

theorem number_pos_iff (s : Sign) (m : Nat) (e : ℤ) (h : 0 < m) :
    0 < number (.finite s m e h) ↔ s = .positive := by
  have hpos : (0 : ℚ) < (m : ℚ) * 2 ^ e := mul_pos (Nat.cast_pos.mpr h) (two_zpow_pos e)
  cases s with
  | positive => exact iff_of_true hpos rfl
  | negative =>
    have hneg := number_neg (.finite .positive m e h)
    refine iff_of_false ?_ Sign.noConfusion
    show ¬ 0 < number (UnpackedFloat.neg (.finite .positive m e h))
    rw [hneg]
    exact not_lt.mpr (neg_nonpos.mpr hpos.le)

theorem lt_iff : x < y ↔ UnpackedFloat.lt x.toModel.unpack y.toModel.unpack = true :=
  decide_eq_true_iff

theorem unpack_zero : (Float.toModel 0.0).unpack = .zero .positive := rfl

theorem zero_lt_iff (hx : x.isFinite = true) : 0.0 < x ↔ 0 < value x := by
  rw [lt_iff, unpack_zero]
  unfold value
  have hcanonical := canonical_of_isFinite hx
  cases hunpack : x.toModel.unpack with
  | infinity s => rw [hunpack] at hcanonical; exact hcanonical.elim
  | notANumber => rw [hunpack] at hcanonical; exact hcanonical.elim
  | zero s => exact iff_of_false Bool.false_ne_true (lt_irrefl 0)
  | finite s m e h =>
    rw [number_pos_iff]
    cases s with
    | positive => exact iff_of_true rfl rfl
    | negative => exact iff_of_false Bool.false_ne_true Sign.noConfusion

/-- A double that is not below zero stands for such a number. -/
theorem value_nonneg (h : ¬ x < 0.0) : 0 ≤ value x := by
  by_contra hneg
  rw [lt_iff, unpack_zero] at h
  refine h ?_
  unfold value at hneg
  cases hunpack : x.toModel.unpack with
  | finite s m e hm =>
    cases s with
    | negative => rfl
    | positive =>
      rw [hunpack] at hneg
      exact absurd ((number_pos_iff _ _ _ _).mpr rfl).le hneg
  | _ => rw [hunpack] at hneg; exact absurd le_rfl hneg

/-! ### Whole numbers -/

theorem value_toFloat {n : Nat} (hpos : 0 < n) (hlt : n < 2 ^ 53) :
    Within n.toUInt64.toFloat 0 54 ∧ value n.toUInt64.toFloat = n := by
  have hvalue : n.toUInt64.toNat = n := by
    rw [UInt64.toNat_ofNat']
    omega
  have hunpack : ofUInt64 Format.binary64 n.toUInt64 =
      UnpackedFloat.normalize Format.binary64 n 0 .positive := by
    rw [UnpackedFloat.ofUInt64, UnpackedFloat.ofNat, hvalue]
    rfl
  have hround : UnpackedFloat.normalize Format.binary64 n 0 .positive =
      UnpackedFloat.round Format.binary64 .positive n 0 := by
    have hcompare : compare (n : ℤ) 0 = .gt := Int.compare_eq_gt.mpr (by omega)
    unfold UnpackedFloat.normalize
    rw [hcompare]
    rfl
  have hlog : n.log2 < 53 := (Leads.of_pos hpos).lt hlt
  have hnormal : Normal (UnpackedFloat.normalize Format.binary64 n 0 .positive) 0 54 :=
    (normal_ofInt (.of_pos hpos) (by omega)).mono (Int.le_refl 0) (by omega)
  obtain ⟨-, hnumber⟩ := round_of_le .positive (e := 0) hpos (by omega)
  rw [hunpack.symm] at hnormal hround
  refine ⟨within_pack hnormal (by decide) (by decide), ?_⟩
  show number (UnpackedFloat.unpack Format.binary64 (UnpackedFloat.pack Format.binary64 _)) = _
  rw [unpack_pack hnormal (by decide) (by decide), hround, hnumber]
  simp [Sign.apply]

/-- The double of a number of fifty-three bits stands for that number. -/
theorem value_ofNat {n : Nat} (hpos : 0 < n) (hlt : n < 2 ^ 53) : value (Float.ofNat n) = n := by
  obtain ⟨hwithin, hvalue⟩ := value_toFloat hpos hlt
  have hproduct :
      Float.ofNat n = n.toUInt64.toFloat * Float.exactlyRepresentablePowersOfTen[0] := by
    show Float.ofScientific n false 0 = _
    unfold Float.ofScientific
    rw [dif_pos ⟨hlt, by decide⟩]
    rfl
  have hone : (Float.toModel Float.exactlyRepresentablePowersOfTen[0]).unpack =
      .finite .positive (2 ^ 52) (-52) (by decide) := by rfl
  obtain ⟨s, m, e, hm, hunpack, hleads, hlow, hhigh⟩ := hwithin
  have hsame : mul Format.binary64 n.toUInt64.toFloat.toModel.unpack
      (Float.toModel Float.exactlyRepresentablePowersOfTen[0]).unpack = .finite s m e hm := by
    have hsign : s * .positive = s := by cases s <;> rfl
    rw [hone, hunpack]
    show roundWithAccuracy Format.binary64 (s * .positive) (m * 2 ^ 52) (e - 52) .exact = _
    rw [hsign]
    exact roundWithAccuracy_zeros hm ⟨hleads.2, by omega, .inl hleads.1⟩ s 52
  rw [hproduct, ← hvalue]
  show number (UnpackedFloat.unpack Format.binary64 (UnpackedFloat.pack Format.binary64 _)) =
    number _
  rw [hsame, hunpack, unpack_pack ⟨s, m, e, hm, rfl, hleads, hlow, hhigh⟩ (by decide) (by decide)]

/-! ### Quotients -/

/-- A double stands for zero only if it is zero. -/
theorem unpack_of_value_zero (hx : x.isFinite = true) (hzero : value x = 0) :
    ∃ s, x.toModel.unpack = .zero s := by
  have hcanonical := canonical_of_isFinite hx
  unfold value at hzero
  generalize x.toModel.unpack = u at *
  cases u with
  | infinity s => exact hcanonical.elim
  | notANumber => exact hcanonical.elim
  | zero s => exact ⟨s, rfl⟩
  | finite s m e h =>
    have habs := abs_number_finite s m e h
    rw [hzero, abs_zero] at habs
    exact absurd habs (mul_pos (Nat.cast_pos.mpr h) (two_zpow_pos e)).ne

theorem unpack_of_value_pos (hx : x.isFinite = true) (hpos : 0 < value x) :
    ∃ m e h, x.toModel.unpack = .finite .positive m e h ∧ Fits m e := by
  have hcanonical := canonical_of_isFinite hx
  unfold value at hpos
  generalize x.toModel.unpack = u at *
  cases u with
  | infinity s => exact hcanonical.elim
  | notANumber => exact hcanonical.elim
  | zero s => exact absurd hpos (lt_irrefl 0)
  | finite s m e h =>
    obtain rfl := (number_pos_iff s m e h).mp hpos
    exact ⟨m, e, h, rfl, hcanonical⟩

/-- A quotient of zero is zero. -/
theorem value_div_zero (hx : x.isFinite = true) (hzero : value x = 0) (hy : Within y 0 66) :
    (x / y).isFinite = true ∧ value (x / y) = 0 := by
  obtain ⟨s₂, m₂, e₂, h₂, hunpack₂, -⟩ := hy
  obtain ⟨s, hunpack⟩ := unpack_of_value_zero hx hzero
  have hdiv : div Format.binary64 x.toModel.unpack y.toModel.unpack = .zero (s / s₂) := by
    rw [hunpack, hunpack₂]
    rfl
  have hpack := value_pack (u := .zero (s / s₂)) trivial (by
    rw [show number (.zero (s / s₂)) = 0 from rfl, abs_zero]
    positivity)
  rw [← hdiv] at hpack
  refine ⟨hpack.1, ?_⟩
  rw [show value (x / y) = _ from hpack.2, hdiv]
  rfl

/-- **The quotient of two doubles is close to that of their numbers.** -/
theorem value_div (hx : x.isFinite = true) (hxpos : 0 < value x) (hlarge : value x < 2 ^ 1000)
    (hy : Within y 0 66) (hypos : 0 < value y) :
    (x / y).isFinite = true ∧ 0 ≤ value (x / y) ∧ Close (value (x / y)) (value x / value y) := by
  obtain ⟨m₁, e₁, h₁, hunpack₁, hfits₁⟩ := unpack_of_value_pos hx hxpos
  obtain ⟨s, m₂, e₂, h₂, hunpack₂, hm₂, hlow₂, hhigh₂⟩ := hy
  unfold value at hypos
  rw [hunpack₂, number_pos_iff] at hypos
  subst hypos
  obtain ⟨hcanonical, hnonneg, hclose⟩ := @div_close m₁ m₂ e₁ e₂ h₁ hm₂ h₂ hfits₁.1
  rw [← hunpack₁, ← hunpack₂] at hcanonical hnonneg hclose
  have hone : (1 : ℚ) ≤ value y := by
    have hexponent : (1 : ℚ) ≤ 2 ^ (52 + e₂) := one_le_zpow₀ one_le_two (by omega)
    unfold value
    rw [hunpack₂]
    show (1 : ℚ) ≤ m₂ * 2 ^ e₂
    refine hexponent.trans ?_
    rw [zpow_add₀ two_ne_zero]
    exact mul_le_mul_of_nonneg_right (by exact_mod_cast hm₂.1) (two_zpow_pos e₂).le
  have hsize : |value x / value y| < 2 ^ 1000 := by
    rw [abs_of_nonneg (div_nonneg hxpos.le (zero_le_one.trans hone))]
    exact (div_le_self hxpos.le hone).trans_lt hlarge
  obtain ⟨hfinite, hvalue⟩ := value_pack hcanonical
    ((hclose.size_lt hsize).trans (pow_lt_pow_right₀ one_lt_two (by decide)))
  refine ⟨hfinite, ?_⟩
  rw [show value (x / y) = _ from hvalue]
  exact ⟨hnonneg, hclose⟩

/-- A quotient does not depend on how its operand came about. -/
theorem value_div_congr {z : Float} (hx : x.isFinite = true) (hz : z.isFinite = true)
    (hpos : 0 < value x) (h : value x = value z) (y : Float) : value (x / y) = value (z / y) := by
  obtain ⟨m₁, e₁, h₁, hunpack₁, hfits₁⟩ := unpack_of_value_pos hx hpos
  obtain ⟨m₂, e₂, h₂, hunpack₂, hfits₂⟩ := unpack_of_value_pos hz (h ▸ hpos)
  unfold value at h
  rw [hunpack₁, hunpack₂] at h
  obtain ⟨rfl, rfl⟩ := hfits₁.unique hfits₂ h
  have hsame : x.toModel.unpack = z.toModel.unpack := by rw [hunpack₁, hunpack₂]
  show number (UnpackedFloat.unpack Format.binary64 (UnpackedFloat.pack Format.binary64
    (div Format.binary64 x.toModel.unpack y.toModel.unpack))) = _
  rw [hsame]
  rfl

end OrderTelemetry.Double
