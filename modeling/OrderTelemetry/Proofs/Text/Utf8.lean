import Mathlib.Tactic.IntervalCases
import OrderTelemetry.Text.Utf8

/-! # Octets give their characters back

The octets of a character are read as that character, whatever follows (`decodeFrom_encodeChar`), so
a text comes back from its octets (`decode_encode`).  The first octet says how many follow; each of
them carries six bits, and the bounds of the first of them hold because a character is no surrogate
and was written with as few octets as possible. -/

namespace OrderTelemetry.Text.Utf8

variable {octet : Nat} {p : Partial} {rest : List Nat}

theorem decodeFrom_plain (h : octet < 0x80) :
    decodeFrom none (octet :: rest) = Char.ofNat octet :: decodeFrom none rest := by
  rw [decodeFrom]
  exact if_pos h

theorem decodeFrom_opening (h : ¬ octet < 0x80) (hopening : opening octet = some p) :
    decodeFrom none (octet :: rest) = decodeFrom (some p) rest := by
  rw [decodeFrom]
  dsimp only
  rw [if_neg h, hopening]
  rfl

section Tail
variable {bits missing low high k : Nat} (hlow : low ≤ 0x80 + k) (hhigh : 0x80 + k ≤ high)
include hlow hhigh

/-- The last octet of a character completes its bits. -/
theorem decodeFrom_last :
    decodeFrom (some ⟨bits, 1, low, high⟩) ((0x80 + k) :: rest) =
      Char.ofNat (bits * 64 + k) :: decodeFrom none rest := by
  rw [decodeFrom]
  dsimp only
  rw [if_pos ⟨hlow, hhigh⟩, if_pos rfl, Nat.add_sub_cancel_left]

/-- After an octet that is not the last, the next one may be any. -/
theorem decodeFrom_more :
    decodeFrom (some ⟨bits, missing + 2, low, high⟩) ((0x80 + k) :: rest) =
      decodeFrom (some ⟨bits * 64 + k, missing + 1, 0x80, 0xBF⟩) rest := by
  rw [decodeFrom]
  dsimp only
  rw [if_pos ⟨hlow, hhigh⟩, if_neg (by omega), Nat.add_sub_cancel_left]
  rfl

end Tail

/-! ### The first octet -/

theorem opening_two {k : Nat} (hlow : 2 ≤ k) (hhigh : k < 32) :
    opening (0xC0 + k) = some ⟨k, 1, 0x80, 0xBF⟩ := by
  unfold opening
  rw [if_pos (by omega)]
  simp

/-- Three octets may not spell a character of two, nor a surrogate. -/
theorem opening_three {k : Nat} (h : k < 16) :
    opening (0xE0 + k) =
      some ⟨k, 2, if k = 0 then 0xA0 else 0x80, if k = 13 then 0x9F else 0xBF⟩ := by
  interval_cases k <;> rfl

/-- Four octets may not spell a character of three, nor go beyond the last one. -/
theorem opening_four {k : Nat} (h : k < 5) :
    opening (0xF0 + k) =
      some ⟨k, 3, if k = 0 then 0x90 else 0x80, if k = 4 then 0x8F else 0xBF⟩ := by
  interval_cases k <;> rfl

/-! ### Characters -/

/-- **A character comes back from its octets.** -/
theorem decodeFrom_encodeChar (c : Char) (rest : List Nat) :
    decodeFrom none (encodeChar c ++ rest) = c :: decodeFrom none rest := by
  have hvalid : c.toNat < 0xD800 ∨ (0xDFFF < c.toNat ∧ c.toNat < 0x110000) := c.valid
  have hback : Char.ofNat c.toNat = c := Char.ofNat_toNat c
  unfold encodeChar
  simp only [show Nat.pow 64 0 = 1 from rfl, show Nat.pow 64 1 = 64 from rfl,
    show Nat.pow 64 2 = 4096 from rfl, Nat.div_one]
  generalize c.toNat = n at hvalid hback
  subst hback
  -- by the number of octets; `hbits` puts the groups of six bits together again
  split_ifs with hone htwo hthree
  · rw [List.singleton_append, decodeFrom_plain hone]
  · have hbits : n / 64 * 64 + n % 64 = n := by omega
    simp only [List.cons_append, List.nil_append]
    rw [decodeFrom_opening (by omega) (opening_two (by omega) (by omega)),
      decodeFrom_last (by omega) (by omega), hbits]
  · have hbits : (n / 4096 * 64 + n / 64 % 64) * 64 + n % 64 = n := by omega
    simp only [List.cons_append, List.nil_append]
    rw [decodeFrom_opening (by omega) (opening_three (by omega)),
      decodeFrom_more (by split_ifs <;> omega) (by split_ifs <;> omega),
      decodeFrom_last (by omega) (by omega), hbits]
  · have hbits : ((n / 262144 * 64 + n / 4096 % 64) * 64 + n / 64 % 64) * 64 + n % 64 = n := by
      omega
    simp only [List.cons_append, List.nil_append]
    rw [decodeFrom_opening (by omega) (opening_four (by omega)),
      decodeFrom_more (by split_ifs <;> omega) (by split_ifs <;> omega),
      decodeFrom_more (by omega) (by omega),
      decodeFrom_last (by omega) (by omega), hbits]

/-- **A text comes back from its octets.** -/
theorem decode_encode (s : List Char) : decode (encode s) = s := by
  unfold decode encode
  induction s with
  | nil => rfl
  | cons c s ih => rw [List.flatMap_cons, decodeFrom_encodeChar, ih]

example : decode (encode "aé日😀".toList) = "aé日😀".toList := by decide +kernel

end OrderTelemetry.Text.Utf8
