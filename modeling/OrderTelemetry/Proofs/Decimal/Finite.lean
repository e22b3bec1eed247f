import Mathlib.Tactic.SplitIfs
import OrderTelemetry.Decimal.Layout

/-! # Finite doubles

A double is finite unless all bits of its exponent are set, and only finite doubles are written as
JSON numbers. -/

namespace OrderTelemetry.Double

open Float.Model

theorem isFinite_unpack (format : Format) (bits : BitVec format.numBits) :
    (UnpackedFloat.unpack format bits).isFinite = true ↔
      UnpackedFloat.unpackExponent bits ≠ -1#_ := by
  unfold UnpackedFloat.unpack
  dsimp only
  by_cases hones : UnpackedFloat.unpackExponent bits = -1#_
  · rw [if_pos hones]
    refine ⟨fun h => ?_, fun h => absurd hones h⟩
    by_cases hmantissa : UnpackedFloat.unpackMantissa bits = 0#_
    · rw [if_pos hmantissa] at h
      cases h
    · rw [if_neg hmantissa] at h
      cases h
  · rw [if_neg hones]
    refine ⟨fun _ => hones, fun _ => ?_⟩
    by_cases hexponent : UnpackedFloat.unpackExponent bits = 0#_
    · rw [if_pos hexponent]
      by_cases hmantissa : UnpackedFloat.unpackMantissa bits = 0#_
      · rw [dif_pos hmantissa]
        rfl
      · rw [dif_neg hmantissa]
        rfl
    · rw [if_neg hexponent]
      rfl

/-- The bits of the exponent of a double. -/
def exponentBits (x : Float) : Nat := x.toBits.toNat / 0x10000000000000 % 0x800

theorem isFinite_iff (x : Float) : x.isFinite = true ↔ exponentBits x ≠ 2047 := by
  refine (isFinite_unpack Format.binary64 x.toBits.toBitVec).trans (not_congr ?_)
  rw [← BitVec.toNat_inj]
  simp [UnpackedFloat.unpackExponent, exponentBits, Nat.shiftRight_eq_div_pow]

theorem json_of_not_finite {x : Float} (h : x.isFinite = false) : Decimal.json x = none := by
  have hbits : exponentBits x = 2047 := by
    have := isFinite_iff x
    simpa [h] using this
  unfold exponentBits at hbits
  have hbinary : Decimal.Binary.ofFloat x = .nan ∨ ∃ b, Decimal.Binary.ofFloat x = .infinite b := by
    unfold Decimal.Binary.ofFloat
    dsimp only
    rw [if_pos hbits]
    split_ifs
    · exact .inr ⟨_, rfl⟩
    · exact .inl rfl
  unfold Decimal.json
  rcases hbinary with hb | ⟨b, hb⟩ <;> rw [hb]

end OrderTelemetry.Double
