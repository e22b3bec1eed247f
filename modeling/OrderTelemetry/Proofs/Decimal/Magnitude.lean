import Mathlib.Algebra.Group.Nat.Defs
import Mathlib.Tactic.SplitIfs
import OrderTelemetry.Proofs.Decimal.Finite
import OrderTelemetry.Stats

/-! # The size of a double

How large a double may be follows from the place of its leading bit.  `Within x low high` says that
`x` is a normal double whose leading bit stands for a power of two from `2 ^ low` to `2 ^ high`.
Multiplication and division of normal doubles move the bounds by the bounds of the other operand and
by one place for the bits that are carried or rounded, so as long as the bounds stay within the
range of doubles the outcome is finite (`Within.mul`, `Within.div`).

* `within_ofNat`: the double of a number of sixty-four bits above zero.
* `isFinite_percentage`: a share of one number of sixty-four bits in another is finite. -/

namespace OrderTelemetry.Double

open Float.Model Float.Model.UnpackedFloat

/-! ### The leading bit -/

/-- The leading bit of a number stands for `2 ^ k`. -/
def Leads (n k : Nat) : Prop := 2 ^ k ≤ n ∧ n < 2 ^ (k + 1)

namespace Leads

variable {m n j k : Nat}

theorem pos (h : Leads n k) : 0 < n := Nat.lt_of_lt_of_le (Nat.two_pow_pos k) h.1

theorem log2 (h : Leads n k) : n.log2 = k := (Nat.log2_eq_iff (Nat.ne_of_gt h.pos)).mpr h

theorem of_pos (h : 0 < n) : Leads n n.log2 := (Nat.log2_eq_iff (Nat.ne_of_gt h)).mp rfl

theorem lt (h : Leads n k) (hn : n < 2 ^ j) : k < j :=
  (Nat.pow_lt_pow_iff_right (by decide)).mp (Nat.lt_of_le_of_lt h.1 hn)

theorem mul (hm : Leads m j) (hn : Leads n k) :
    Leads (m * n) (j + k) ∨ Leads (m * n) (j + k + 1) := by
  have hlow : 2 ^ (j + k) ≤ m * n := by
    rw [Nat.pow_add]
    exact Nat.mul_le_mul hm.1 hn.1
  have hhigh : m * n < 2 ^ (j + k + 1 + 1) := by
    rw [show j + k + 1 + 1 = (j + 1) + (k + 1) by omega, Nat.pow_add]
    exact Nat.mul_lt_mul'' hm.2 hn.2
  rcases Nat.lt_or_ge (m * n) (2 ^ (j + k + 1)) with h | h
  · exact .inl ⟨hlow, h⟩
  · exact .inr ⟨h, hhigh⟩

theorem shiftLeft (h : Leads n k) (s : Nat) : Leads (n <<< s) (k + s) := by
  rw [Nat.shiftLeft_eq]
  refine ⟨?_, ?_⟩
  · rw [Nat.pow_add]
    exact Nat.mul_le_mul_right _ h.1
  · rw [show k + s + 1 = k + 1 + s by omega, Nat.pow_add 2 (k + 1)]
    exact Nat.mul_lt_mul_of_pos_right h.2 (Nat.two_pow_pos s)

theorem shiftRight (h : Leads n k) {s : Nat} (hs : s ≤ k) : Leads (n / 2 ^ s) (k - s) := by
  refine ⟨(Nat.le_div_iff_mul_le (Nat.two_pow_pos s)).mpr ?_,
    (Nat.div_lt_iff_lt_mul (Nat.two_pow_pos s)).mpr ?_⟩
  · rw [← Nat.pow_add, Nat.sub_add_cancel hs]
    exact h.1
  · rw [← Nat.pow_add, show k - s + 1 + s = k + 1 by omega]
    exact h.2

/-- A quotient has as many bits as its operands differ by, or one less. -/
theorem div (hm : Leads m j) (hn : Leads n k) (hjk : k < j) :
    Leads (m / n) (j - k - 1) ∨ Leads (m / n) (j - k) := by
  have hlow : 2 ^ (j - k - 1) ≤ m / n := by
    rw [Nat.le_div_iff_mul_le hn.pos]
    calc 2 ^ (j - k - 1) * n ≤ 2 ^ (j - k - 1) * 2 ^ (k + 1) :=
          Nat.mul_le_mul_left _ (Nat.le_of_lt hn.2)
      _ = 2 ^ j := by rw [← Nat.pow_add]; congr 1; omega
      _ ≤ m := hm.1
  have hhigh : m / n < 2 ^ (j - k + 1) := by
    rw [Nat.div_lt_iff_lt_mul hn.pos]
    calc m < 2 ^ (j + 1) := hm.2
      _ = 2 ^ (j - k + 1) * 2 ^ k := by rw [← Nat.pow_add]; congr 1; omega
      _ ≤ 2 ^ (j - k + 1) * n := Nat.mul_le_mul_left _ hn.1
  rcases Nat.lt_or_ge (m / n) (2 ^ (j - k)) with h | h
  · exact .inl ⟨hlow, by rwa [show j - k - 1 + 1 = j - k by omega]⟩
  · exact .inr ⟨h, hhigh⟩

end Leads

/-! ### Rounding -/

theorem mantissa_shiftRight (em : ExtendedMantissa) (s : Nat) :
    (em >>> s).mantissa = em.mantissa / 2 ^ s := by
  show (s.repeat ExtendedMantissa.shiftRightOne em).mantissa = _
  induction s with
  | zero => simp [Nat.repeat]
  | succ s ih =>
    show (s.repeat ExtendedMantissa.shiftRightOne em).mantissa / 2 = _
    rw [ih, Nat.div_div_eq_div_mul, ← Nat.pow_succ]

theorem mantissa_ofMantissaAndAccuracy (m : Nat) (accuracy : Accuracy) :
    (ExtendedMantissa.ofMantissaAndAccuracy m accuracy).mantissa = m := by
  unfold ExtendedMantissa.ofMantissaAndAccuracy
  split <;> rfl

/-- Rounding a mantissa leaves it or makes it the next one. -/
theorem roundedMantissa_bounds (em : ExtendedMantissa) :
    em.mantissa ≤ em.roundedMantissa ∧ em.roundedMantissa ≤ em.mantissa + 1 := by
  unfold ExtendedMantissa.roundedMantissa Accuracy.roundToNearestEven
  split <;> omega

/-- The exponent of the last bit that a mantissa keeps. -/
theorem targetExponent_totalExponent (m : Nat) (e : Int) :
    Format.binary64.targetExponent (totalExponent m e) = max ((m.log2 : Int) + e - 52) (-1074) := by
  show max (((m.log2 : Int) + 1 + e) - 53) (-1074) = _
  omega

/-- Shifting to the target exponent drops the bits below it. -/
theorem shiftToTargetExponent_eq {m : Nat} {e t : Int}
    (ht : Format.binary64.targetExponent (totalExponent m e) = t) (he : e ≤ t)
    (accuracy : Accuracy) :
    (shiftToTargetExponent Format.binary64 m e accuracy).1.mantissa = m / 2 ^ (t - e).toNat ∧
      (shiftToTargetExponent Format.binary64 m e accuracy).2 = t := by
  unfold shiftToTargetExponent shiftToExponent
  simp only [ht, mantissa_shiftRight, mantissa_ofMantissaAndAccuracy, true_and]
  omega

/-- Shifting to the target exponent leaves as many bits as a mantissa has. -/
theorem shiftToTargetExponent_leads {m k : Nat} {e : Int} (hm : Leads m k) (hk : 52 ≤ k)
    (hlow : -1022 ≤ k + e) (accuracy : Accuracy) :
    Leads (shiftToTargetExponent Format.binary64 m e accuracy).1.mantissa 52 ∧
      (shiftToTargetExponent Format.binary64 m e accuracy).2 = k + e - 52 := by
  have htarget : Format.binary64.targetExponent (totalExponent m e) = k + e - 52 := by
    rw [targetExponent_totalExponent, hm.log2]
    omega
  obtain ⟨hmantissa, hexponent⟩ := shiftToTargetExponent_eq htarget (by omega) accuracy
  have hleads := hm.shiftRight (s := k - 52) (by omega)
  rw [hmantissa, show ((k : Int) + e - 52 - e).toNat = k - 52 by omega]
  rw [show k - (k - 52) = 52 by omega] at hleads
  exact ⟨hleads, hexponent⟩

/-- A finite number with all the bits that a mantissa can have, whose leading bit stands for a power
of two between two bounds. -/
def Normal (u : UnpackedFloat) (low high : Int) : Prop :=
  ∃ sign m e h, u = .finite sign m e h ∧ Leads m 52 ∧ low ≤ e + 52 ∧ e + 52 ≤ high

theorem Normal.mono {u : UnpackedFloat} {low high low' high' : Int} (h : Normal u low high)
    (hlow : low' ≤ low) (hhigh : high ≤ high') : Normal u low' high' := by
  obtain ⟨sign, m, e, hpos, rfl, hm, hlow₁, hhigh₁⟩ := h
  exact ⟨sign, m, e, hpos, rfl, hm, by omega, by omega⟩

/-- Rounding moves the leading bit by one place at most. -/
theorem normal_roundWithAccuracy {m k : Nat} {e low high : Int} (sign : Sign) (accuracy : Accuracy)
    (hm : Leads m k) (hk : 52 ≤ k) (hnormal : -1022 ≤ low) (hlow : low ≤ k + e)
    (hhigh : k + e ≤ high) :
    Normal (roundWithAccuracy Format.binary64 sign m e accuracy) low (high + 1) := by
  obtain ⟨hfirst, hexponent⟩ := shiftToTargetExponent_leads (e := e) hm hk (by omega) accuracy
  unfold roundWithAccuracy
  generalize shiftToTargetExponent Format.binary64 m e accuracy = first at hfirst hexponent
  obtain ⟨em, e'⟩ := first
  obtain rfl : e' = k + e - 52 := hexponent
  dsimp only at hfirst ⊢
  obtain ⟨hle, hge⟩ := roundedMantissa_bounds em
  have hrounded : Leads em.roundedMantissa 52 ∨ Leads em.roundedMantissa 53 := by
    unfold Leads at hfirst ⊢
    omega
  have hsecond : ∃ j, 52 ≤ j ∧ j ≤ 53 ∧ Leads em.roundedMantissa j := by
    rcases hrounded with h | h
    · exact ⟨52, by omega, by omega, h⟩
    · exact ⟨53, by omega, by omega, h⟩
  obtain ⟨j, hj, hj', hleads⟩ := hsecond
  -- a carry out of the mantissa is shifted back, which is the place that the bound gives way
  obtain ⟨hfinal, hexponent⟩ := shiftToTargetExponent_leads hleads hj
    (e := (k : Int) + e - 52) (by omega) .exact
  rw [dif_neg (Nat.ne_of_gt hfinal.pos)]
  exact ⟨sign, _, _, _, rfl, hfinal, by omega, by omega⟩

/-! ### Packing -/

theorem unpackSign_packComponents (sign : Sign) (exponent : BitVec 11) (mantissa : BitVec 52) :
    Sign.ofBitVec (unpackSign (packComponents Format.binary64 sign exponent mantissa)) = sign := by
  have hbit : (sign.toBitVec ++ exponent ++ mantissa).extractLsb' 63 1 = sign.toBitVec := by
    rw [BitVec.extractLsb'_append_eq_of_le (by decide),
      BitVec.extractLsb'_append_eq_of_le (by decide)]
    cases sign <;> rfl
  show Sign.ofBitVec ((sign.toBitVec ++ exponent ++ mantissa).extractLsb' 63 1) = sign
  rw [hbit]
  cases sign <;> rfl

/-- A number that fits comes back from its bits. -/
theorem unpack_pack {u : UnpackedFloat} {low high : Int} (h : Normal u low high)
    (hlow : -1022 ≤ low) (hhigh : high ≤ 1023) :
    UnpackedFloat.unpack Format.binary64 (UnpackedFloat.pack Format.binary64 u) = u := by
  obtain ⟨sign, m, e, hpos, rfl, hm, hlow', hhigh'⟩ := h
  obtain ⟨biased, rfl⟩ : ∃ biased : Nat, e = (biased : Int) - 1075 := ⟨(e + 1075).toNat, by omega⟩
  have hbiased : ((biased : Int) - 1075 + Format.binary64.exponentBias +
      Format.binary64.mantissaBitsWithoutImplicit).toNat = biased := by
    show ((biased : Int) - 1075 + (1023 : Nat) + (52 : Nat)).toNat = biased
    omega
  have hexponent : (BitVec.ofNat 11 biased).toNat = biased := by
    rw [BitVec.toNat_ofNat]
    omega
  have hones : BitVec.ofNat 11 biased ≠ -1#11 := fun heq => by
    have := congrArg BitVec.toNat heq
    rw [hexponent] at this
    have : biased = 2047 := this
    omega
  have hzero : BitVec.ofNat 11 biased ≠ 0#11 := fun heq => by
    have := congrArg BitVec.toNat heq
    rw [hexponent] at this
    have : biased = 0 := this
    omega
  have hmantissa : (1#1 ++ BitVec.ofNat 52 m).toNat = m := by
    obtain ⟨hge, hlt⟩ := hm
    rw [BitVec.toNat_append, ← Nat.shiftLeft_add_eq_or_of_lt (BitVec.ofNat 52 m).isLt,
      BitVec.toNat_ofNat, BitVec.toNat_ofNat, Nat.shiftLeft_eq]
    omega
  have hpack : UnpackedFloat.pack Format.binary64 (.finite sign m ((biased : Int) - 1075) hpos) =
      packComponents Format.binary64 sign (BitVec.ofNat 11 biased) (BitVec.ofNat 52 m) := by
    unfold UnpackedFloat.pack
    simp only [hbiased, hm.log2]
    rw [if_neg (by show ¬ 2048 ≤ biased + 1; omega),
      if_pos (show 52 + 1 = Format.binary64.mantissaBits from rfl)]
  rw [hpack]
  unfold UnpackedFloat.unpack
  rw [if_neg (by rwa [unpackExponent_packComponents]),
    if_neg (by rwa [unpackExponent_packComponents]), UnpackedFloat.finite.injEq,
    unpackSign_packComponents, unpackMantissa_packComponents, unpackExponent_packComponents,
    hexponent, hmantissa]
  exact ⟨rfl, rfl, rfl⟩

/-! ### Doubles within bounds -/

/-- A normal double whose leading bit stands for a power of two between two bounds. -/
def Within (x : Float) (low high : Int) : Prop := Normal x.toModel.unpack low high

theorem Within.isFinite {x : Float} {low high : Int} (h : Within x low high) :
    x.isFinite = true := by
  obtain ⟨sign, m, e, hpos, hx, -⟩ := h
  show x.toModel.unpack.isFinite = true
  rw [hx]
  rfl

theorem within_pack {u : UnpackedFloat} {low high : Int} (h : Normal u low high)
    (hlow : -1022 ≤ low) (hhigh : high ≤ 1023) : Within (.ofModel (.pack u)) low high := by
  show Normal (UnpackedFloat.unpack Format.binary64 (UnpackedFloat.pack Format.binary64 u)) low high
  rwa [unpack_pack h hlow hhigh]

theorem normal_mul {u v : UnpackedFloat} {a b c d : Int} (hu : Normal u a b) (hv : Normal v c d)
    (hlow : -1022 ≤ a + c) :
    Normal (UnpackedFloat.mul Format.binary64 u v) (a + c) (b + d + 1 + 1) := by
  obtain ⟨s₁, m₁, e₁, hpos₁, rfl, hm₁, hlow₁, hhigh₁⟩ := hu
  obtain ⟨s₂, m₂, e₂, hpos₂, rfl, hm₂, hlow₂, hhigh₂⟩ := hv
  unfold UnpackedFloat.mul
  dsimp only
  rcases hm₁.mul hm₂ with hm | hm
  · exact normal_roundWithAccuracy (e := e₁ + e₂) _ _ hm (by omega) hlow (by omega) (by omega)
  · exact normal_roundWithAccuracy (e := e₁ + e₂) _ _ hm (by omega) hlow (by omega) (by omega)

/-- The exponent to which the quotient of two mantissas is found if the second one has all its
bits. -/
def quotientExponent (m₁ : Nat) (e₁ e₂ : Int) : Int :=
  min (e₁ - e₂) (max ((m₁.log2 : Int) + e₁ - e₂ - 105) (-1074))

theorem divCore_eq {m₂ : Nat} (m₁ : Nat) (e₁ e₂ : Int) (hm₂ : Leads m₂ 52) :
    let e := quotientExponent m₁ e₁ e₂
    let m := m₁ <<< (e₁ - e₂ - e).toNat
    divCore Format.binary64 m₁ e₁ m₂ e₂ = (m / m₂, e, accuracyOfFraction (m % m₂) m₂) := by
  have htarget : min (e₁ - e₂) (Format.binary64.targetExponent
      (totalExponent m₁ e₁ - totalExponent m₂ e₂)) = quotientExponent m₁ e₁ e₂ := by
    unfold totalExponent quotientExponent
    rw [hm₂.log2]
    show min (e₁ - e₂) (max ((m₁.log2 : Int) + 1 + e₁ - ((52 : Nat) + 1 + e₂) - 53) (-1074)) = _
    omega
  unfold divCore
  dsimp only
  rw [htarget]

theorem normal_div {u v : UnpackedFloat} {a b c d : Int} (hu : Normal u a b) (hv : Normal v c d)
    (hlow : -1022 ≤ a - d - 1) :
    Normal (UnpackedFloat.div Format.binary64 u v) (a - d - 1) (b - c + 1) := by
  obtain ⟨s₁, m₁, e₁, hpos₁, rfl, hm₁, hlow₁, hhigh₁⟩ := hu
  obtain ⟨s₂, m₂, e₂, hpos₂, rfl, hm₂, hlow₂, hhigh₂⟩ := hv
  have hexponent : quotientExponent m₁ e₁ e₂ = e₁ - e₂ - 53 := by
    unfold quotientExponent
    rw [hm₁.log2]
    omega
  unfold UnpackedFloat.div
  dsimp only
  rw [divCore_eq m₁ e₁ e₂ hm₂, hexponent, show (e₁ - e₂ - (e₁ - e₂ - 53)).toNat = 53 by omega]
  rcases (hm₁.shiftLeft 53).div hm₂ (by omega) with hm | hm
  · exact normal_roundWithAccuracy (e := e₁ - e₂ - 53) _ _ hm (by omega) hlow (by omega) (by omega)
  · exact normal_roundWithAccuracy (e := e₁ - e₂ - 53) _ _ hm (by omega) hlow (by omega) (by omega)

section Operations
variable {x y : Float} {a b c d : Int} (hx : Within x a b) (hy : Within y c d)
include hx hy

theorem Within.mul (hlow : -1022 ≤ a + c) (hhigh : b + d + 1 + 1 ≤ 1023) :
    Within (x * y) (a + c) (b + d + 1 + 1) :=
  within_pack (normal_mul hx hy hlow) hlow hhigh

theorem Within.div (hlow : -1022 ≤ a - d - 1) (hhigh : b - c + 1 ≤ 1023) :
    Within (x / y) (a - d - 1) (b - c + 1) :=
  within_pack (normal_div hx hy hlow) hlow hhigh

end Operations

/-! ### Whole numbers -/

theorem decreaseExponent_leads {n k : Nat} (h : Leads n k) (hk : k ≤ 1000) :
    ∃ j, 52 ≤ j ∧
      Leads (decreaseExponent n 0 (Format.binary64.targetExponent (totalExponent n 0))).1 j ∧
      j + (decreaseExponent n 0 (Format.binary64.targetExponent (totalExponent n 0))).2 = k := by
  have htarget : Format.binary64.targetExponent (totalExponent n 0) = (k : Int) - 52 := by
    rw [targetExponent_totalExponent, h.log2]
    omega
  rw [htarget]
  refine ⟨k + (0 - ((k : Int) - 52)).toNat, by omega, h.shiftLeft _, ?_⟩
  show ((k + (0 - ((k : Int) - 52)).toNat : Nat) : Int) +
    (0 - ((0 - ((k : Int) - 52)).toNat : Int)) = k
  omega

theorem normal_ofInt {n k : Nat} (h : Leads n k) (hk : k ≤ 1000) :
    Normal (UnpackedFloat.ofInt Format.binary64 n) 0 (k + 1) := by
  have hpos : compare (n : Int) 0 = .gt := by
    have := h.pos
    exact Int.compare_eq_gt.mpr (by omega)
  obtain ⟨j, hj, hleads, hexponent⟩ := decreaseExponent_leads h hk
  simp only [UnpackedFloat.ofInt, UnpackedFloat.normalize, hpos, UnpackedFloat.round,
    Int.toNat_natCast]
  exact normal_roundWithAccuracy _ _ hleads hj (by decide) (by omega) (by omega)

theorem within_one : Within (Float.exactlyRepresentablePowersOfTen[0]) 0 0 :=
  ⟨.positive, 2 ^ 52, -52, by decide, by rfl, by unfold Leads; decide, by decide,
    by decide⟩

theorem within_hundred : Within 100.0 6 6 :=
  ⟨.positive, 100 * 2 ^ 46, -46, by decide, by rfl, by unfold Leads; decide, by decide,
    by decide⟩

/-- The double of a number of sixty-four bits above zero. -/
theorem within_ofNat {n : Nat} (hpos : 0 < n) (hlt : n < 2 ^ 64) : Within (Float.ofNat n) 0 66 := by
  obtain ⟨k, hleads⟩ : ∃ k, Leads n k := ⟨_, .of_pos hpos⟩
  have hk : k < 64 := hleads.lt hlt
  show Within (Float.ofScientific n false 0) 0 66
  unfold Float.ofScientific
  split
  · have hvalue : n.toUInt64.toNat = n := by
      rw [UInt64.toNat_ofNat']
      omega
    have hdouble : Within n.toUInt64.toFloat 0 64 := by
      refine within_pack ?_ (by decide) (by decide)
      rw [UnpackedFloat.ofUInt64, UnpackedFloat.ofNat, hvalue]
      exact (normal_ofInt hleads (by omega)).mono (Int.le_refl 0) (by omega)
    exact hdouble.mul within_one (by decide) (by decide)
  · refine within_pack ?_ (by decide) (by decide)
    have hfits : ¬ (Int.ofNat 0 < -(2 ^ Format.binary64.exponentBits + n.log2)) := by
      show ¬ ((0 : Int) < -((2048 : Int) + (n.log2 : Int)))
      omega
    rw [if_neg Bool.false_ne_true, UnpackedFloat.ofScientific, dif_neg (Nat.ne_of_gt hpos),
      if_neg (by decide), if_neg hfits, if_pos (by decide)]
    have hshifted : Leads (n <<< Format.binary64.mantissaBits * 10 ^ (Int.ofNat 0).toNat)
        (k + 53) := by
      show Leads (n <<< 53 * 1) (k + 53)
      rw [Nat.mul_one]
      exact hleads.shiftLeft 53
    have hexponent : -(Format.binary64.mantissaBits : Int) + 0 = -53 := rfl
    unfold UnpackedFloat.mul
    dsimp only
    rw [hexponent]
    exact (normal_roundWithAccuracy _ _ hshifted (by omega) (by decide)
      (show (0 : Int) ≤ _ by omega) (show _ ≤ (64 : Int) by omega)).mono (by decide) (by decide)

/-! ### Shares -/

theorem unpack_pack_zero (sign : Sign) :
    UnpackedFloat.unpack Format.binary64 (UnpackedFloat.pack Format.binary64 (.zero sign)) =
      .zero sign := by
  cases sign <;> rfl

/-- A share of zero is zero. -/
theorem unpack_percentage_zero {whole : Nat} {low high : Int}
    (h : Within (Float.ofNat whole) low high) :
    ∃ sign, (percentage 0 whole).toModel.unpack = .zero sign := by
  obtain ⟨s₁, m₁, e₁, hpos₁, hwhole, -⟩ := h
  obtain ⟨s₂, m₂, e₂, hpos₂, hhundred, -⟩ := within_hundred
  have hquotient : (Float.ofNat 0 / Float.ofNat whole).toModel.unpack = .zero (.positive / s₁) := by
    show UnpackedFloat.unpack Format.binary64 (UnpackedFloat.pack Format.binary64
      (UnpackedFloat.div Format.binary64 (.zero .positive) (Float.ofNat whole).toModel.unpack)) = _
    rw [hwhole]
    exact unpack_pack_zero _
  refine ⟨.positive / s₁ * s₂, ?_⟩
  show UnpackedFloat.unpack Format.binary64 (UnpackedFloat.pack Format.binary64
    (UnpackedFloat.mul Format.binary64 (Float.ofNat 0 / Float.ofNat whole).toModel.unpack
      (Float.toModel 100.0).unpack)) = _
  rw [hquotient, hhundred]
  exact unpack_pack_zero _

/-- A share of one number of sixty-four bits in another is finite. -/
theorem isFinite_percentage {part whole : Nat} (hpart : part < 2 ^ 64) (hpos : 0 < whole)
    (hwhole : whole < 2 ^ 64) : (percentage part whole).isFinite = true := by
  have hdivisor := within_ofNat hpos hwhole
  rcases Nat.eq_zero_or_pos part with rfl | hpos'
  · obtain ⟨sign, hzero⟩ := unpack_percentage_zero hdivisor
    show (percentage 0 whole).toModel.unpack.isFinite = true
    rw [hzero]
    rfl
  · exact (((within_ofNat hpos' hpart).div hdivisor (by decide) (by decide)).mul within_hundred
      (by decide) (by decide)).isFinite

end OrderTelemetry.Double
