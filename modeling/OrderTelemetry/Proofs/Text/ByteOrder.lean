import Mathlib.Tactic.SplitIfs
import OrderTelemetry.Text.Utf8

/-! # The order of octets

Texts are compared by their code points, one after the other, and this is also the order of their
octets (`encode_lt_encode`).  The first octet of a character rises with the number of octets, and
for equal numbers the octets are the digits of the code point, the highest first. -/

namespace OrderTelemetry.Text.Utf8

theorem toNat_lt (c : Char) : c.toNat < 0x110000 := by
  have hvalid : c.toNat < 0xD800 ∨ (0xDFFF < c.toNat ∧ c.toNat < 0x110000) := c.valid
  omega

/-- The octets of two characters decide, whatever follows them. -/
theorem encodeChar_append_lt {c d : Char} (h : c < d) (x y : List Nat) :
    encodeChar c ++ x < encodeChar d ++ y := by
  have hlt : c.toNat < d.toNat := h
  have hc := toNat_lt c
  have hd := toNat_lt d
  unfold encodeChar
  simp only [show Nat.pow 64 0 = 1 from rfl, show Nat.pow 64 1 = 64 from rfl,
    show Nat.pow 64 2 = 4096 from rfl, Nat.div_one]
  generalize c.toNat = m at *
  generalize d.toNat = n at *
  -- by the numbers of octets: an earlier character has no more, and then the first digit in which
  -- they differ is smaller
  split_ifs <;> simp only [List.cons_append, List.nil_append, List.cons_lt_cons_iff] <;> omega

theorem encodeChar_ne_nil (c : Char) : encodeChar c ≠ [] := by
  unfold encodeChar
  dsimp only
  split_ifs <;> exact List.cons_ne_nil _ _

/-- **The order of texts is that of their octets.** -/
theorem encode_lt_encode {s t : List Char} (h : s < t) : encode s < encode t := by
  unfold encode
  induction s generalizing t with
  | nil =>
    cases t with
    | nil => exact absurd h (List.lt_irrefl [])
    | cons d t =>
      rw [List.flatMap_nil, List.flatMap_cons]
      obtain ⟨octet, rest, hd⟩ := List.exists_cons_of_ne_nil (encodeChar_ne_nil d)
      rw [hd]
      exact List.nil_lt_cons _ _
  | cons c s ih =>
    cases t with
    | nil => exact absurd h (List.not_lt_nil _)
    | cons d t =>
      rw [List.flatMap_cons, List.flatMap_cons]
      rcases List.cons_lt_cons_iff.mp h with hcd | ⟨rfl, hst⟩
      · exact encodeChar_append_lt hcd _ _
      · exact List.append_left_lt (ih hst)

end OrderTelemetry.Text.Utf8
