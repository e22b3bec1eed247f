import OrderTelemetry.Decimal.Binary

/-!
# Percentiles by nearest rank

The `p`-th percentile of `n` values in ascending order is the value with rank `⌈p / 100 · n⌉`,
counted from one.  The percentage is first rounded to hundredths, so the rank is found in whole
numbers.

Values are put in order by `Decimal.rank`, which tells all doubles apart: what is no number comes
last, and negative zero comes before zero.
-/

namespace OrderTelemetry.Percentile

/-- Values in ascending order. -/
def ascending (values : List Float) : List Float :=
  values.mergeSort fun a b => decide (Decimal.rank a ≤ Decimal.rank b)

/-- A percentage between zero and a hundred.  What is no number stays as it is. -/
def clamp (percentage : Float) : Float :=
  if percentage < 0.0 then 0.0 else if 100.0 < percentage then 100.0 else percentage

/-- The whole number of hundredths of a percent that is nearest to a percentage. -/
def hundredths (percentage : Float) : Nat := Decimal.nearestNat (clamp percentage * 100.0)

/-- The rank of a percentile among `n` values. -/
def rankOf (n hundredths : Nat) : Nat := max 1 (min n ((n * hundredths + 9999) / 10000))

/-- The percentile of values in ascending order, zero if there is none. -/
def nearestRank (sorted : Array Float) (percentage : Float) : Float :=
  sorted.getD (rankOf sorted.size (hundredths percentage) - 1) 0.0

end OrderTelemetry.Percentile
