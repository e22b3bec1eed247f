import OrderTelemetry.Decimal.Reader

/-! # The digits of a whole number

A whole number is written with digits alone and none too many, so that the readers of whole numbers
get it back: as the value of its digits (`ofDigits_toDigits`), and within the bound of sixty-four
bits (`uint64?_repr`). -/

namespace OrderTelemetry.Decimal

variable {n : Nat} {c : Char}

theorem isDigit_eq (c : Char) : isDigit c = c.isDigit := by
  simp [isDigit, Char.isDigit, Char.le_def]

theorem isDigit_of_mem_toDigits (h : c ∈ Nat.toDigits 10 n) : isDigit c = true := by
  rw [isDigit_eq]
  exact Nat.isDigit_of_mem_toDigits (by decide) (by decide) h

/-- The value of the digits of a number is the number. -/
@[simp] theorem ofDigits_toDigits (n : Nat) : ofDigits (Nat.toDigits 10 n) = n :=
  Nat.ofDigitChars_eq_foldl.symm.trans Nat.ofDigitChars_ten_toDigits

/-- The first digit of a number above zero is not zero. -/
theorem head?_toDigits_ne_zero (h : 0 < n) : (Nat.toDigits 10 n).head? ≠ some '0' := by
  induction n using Nat.strongRecOn with
  | ind n ih =>
    by_cases hten : n < 10
    · rw [Nat.toDigits_of_lt_base hten]
      simp [Nat.ne_of_gt h]
    · rw [Nat.toDigits_of_base_le (by decide) (by omega), List.head?_append,
        List.head?_eq_some_head Nat.toDigits_ne_nil, Option.some_or,
        ← List.head?_eq_some_head Nat.toDigits_ne_nil]
      exact ih (n / 10) (by omega) (by omega)

theorem splitSign_toDigits (n : Nat) :
    splitSign (Nat.toDigits 10 n) = (false, Nat.toDigits 10 n) := by
  have hdigit := @isDigit_of_mem_toDigits n
  unfold splitSign
  split
  · rename_i heq
    exact absurd (hdigit (heq ▸ List.mem_cons_self)) (by decide)
  · rename_i heq
    exact absurd (hdigit (heq ▸ List.mem_cons_self)) (by decide)
  · rfl

theorem natural?_toDigits (n : Nat) : natural? (Nat.toDigits 10 n) = some n := by
  have hall : (Nat.toDigits 10 n).all isDigit = true :=
    List.all_eq_true.mpr fun _ => isDigit_of_mem_toDigits
  unfold natural?
  rw [hall, List.isEmpty_eq_false_iff.mpr Nat.toDigits_ne_nil, ofDigits_toDigits]
  rfl

/-- A number of sixty-four bits is read back from its digits. -/
theorem uint64?_repr (h : n ≤ 0xFFFFFFFFFFFFFFFF) : uint64? n.repr = some n := by
  have hbound : (n : Int) ≤ 0xFFFFFFFFFFFFFFFF := by omega
  unfold uint64? wholeBetween
  rw [Nat.toList_repr, splitSign_toDigits]
  dsimp only
  rw [natural?_toDigits, Option.bind_some, if_pos hbound]
  rfl

end OrderTelemetry.Decimal
