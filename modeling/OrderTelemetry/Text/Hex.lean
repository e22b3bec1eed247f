/-!
# Hexadecimal digits
-/

namespace OrderTelemetry.Text

/-- The value of a hexadecimal digit. -/
def hexValue (c : Char) : Option Nat :=
  if '0' ≤ c ∧ c ≤ '9' then some (c.toNat - '0'.toNat)
  else if 'a' ≤ c ∧ c ≤ 'f' then some (c.toNat - 'a'.toNat + 10)
  else if 'A' ≤ c ∧ c ≤ 'F' then some (c.toNat - 'A'.toNat + 10)
  else none

/-- The hexadecimal digit for a number below sixteen, a capital letter from ten on. -/
def hexDigit (n : Nat) : Char := "0123456789ABCDEF".toList.getD n '0'

end OrderTelemetry.Text
