import OrderTelemetry.Decimal.Binary

/-!
# The fewest digits that read back

Every double is the nearest double to all reals of an interval around it.  `shortest` gives the
decimal with the fewest digits in that interval, and of those the nearest to the double; of two
equally near ones the upper one.  It tries one digit, two digits, and so on: on the grid of decimals
with a given last place only the two neighbours of the double have to be looked at.
-/

namespace OrderTelemetry.Decimal

/-- A decimal number `digits · 10 ^ power`. -/
structure Digits where
  digits : Nat
  power : Int
  deriving DecidableEq, Repr

/-- The number of decimal digits of a natural number, one for zero. -/
def digitCount (n : Nat) : Nat := (Nat.toDigits 10 n).length

/-- The power of ten of the first digit of `m · 2 ^ q`, for `m` above zero.  No double is as small
as `10 ^ (-400)`, so the scaled quotient keeps the first digit. -/
def leadingPower (m : Nat) (q : Int) : Int :=
  if 0 ≤ q then digitCount (m * Nat.pow 2 q.toNat) - 1
  else digitCount (m * Nat.pow 10 400 / Nat.pow 2 (-q).toNat) - 401

/-- The interval of reals whose nearest double is `m · 2 ^ q`, in units of `2 ^ (q - 2)`.  Below a
power of two the doubles are twice as dense. -/
def roundingInterval (m : Nat) (q : Int) : Nat × Nat :=
  (if m = 0x10000000000000 ∧ -1074 < q then 4 * m - 1 else 4 * m - 2, 4 * m + 2)

/-- The decimal with last place `10 ^ p` that is nearest to `m · 2 ^ q` among those that read back
as it, if there is one.  The ends of the interval belong to the double with an even mantissa. -/
def onGrid (m : Nat) (q p : Int) : Option Digits :=
  let scale (x : Nat) := x * Nat.pow 2 (q - 2).toNat * Nat.pow 10 (-p).toNat
  let unit := Nat.pow 10 p.toNat * Nat.pow 2 (2 - q).toNat
  let (low, high) := roundingInterval m q
  let readsBack (d : Nat) : Bool :=
    if m % 2 = 0 then scale low ≤ d * unit && d * unit ≤ scale high
    else scale low < d * unit && d * unit < scale high
  let value := scale (4 * m)
  let below := value / unit
  let above := below + 1
  match readsBack below, readsBack above with
  | true, true =>
    some ⟨if 2 * value < (below + above) * unit then below else above, p⟩
  | true, false => some ⟨below, p⟩
  | false, true => some ⟨above, p⟩
  | false, false => none

/-- The same number without zeros at the end of its digits. -/
def Digits.reduce (d : Digits) : Digits :=
  if d.digits = 0 then ⟨0, 0⟩
  else if d.digits % 10 = 0 then (⟨d.digits / 10, d.power + 1⟩ : Digits).reduce
  else d
termination_by d.digits
decreasing_by omega

/-- The shortest decimal that reads back as `m · 2 ^ q`.  Seventeen digits are always enough. -/
def shortest (m : Nat) (q : Int) : Digits :=
  if m = 0 then ⟨0, 0⟩
  else
    let lead := leadingPower m q
    let found := (List.range 17).findSome? fun n : Nat => onGrid m q (lead - (n : Int))
    (found.getD ⟨m, q⟩).reduce

end OrderTelemetry.Decimal
