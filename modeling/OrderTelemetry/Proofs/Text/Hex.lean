import OrderTelemetry.Text.Hex

/-! # Hexadecimal digits read back

The digit of a number below sixteen stands for that number, as a capital and as a small letter. -/

namespace OrderTelemetry.Text

theorem hexValue_hexDigit : ∀ {n : Nat}, n < 16 → hexValue (hexDigit n) = some n := by
  decide

theorem hexValue_toLower_hexDigit :
    ∀ {n : Nat}, n < 16 → hexValue (hexDigit n).toLower = some n := by
  decide

end OrderTelemetry.Text
