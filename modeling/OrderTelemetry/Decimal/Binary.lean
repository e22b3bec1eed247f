/-!
# The value of a double

A finite double is `± m · 2 ^ q` with a natural number `m` and an integer `q`.  `Binary.ofFloat`
reads the three parts off the bits, and everything that turns a double into digits (`shortest`,
`roundedTo`) or into an integer (`nearestNat`) works on `m` and `q` in exact arithmetic.
-/

namespace OrderTelemetry.Decimal

/-- What the bits of a double stand for. -/
inductive Binary where
  /-- `± mantissa · 2 ^ exponent`; zero has a sign too. -/
  | finite (negative : Bool) (mantissa : Nat) (exponent : Int)
  | infinite (negative : Bool)
  | nan
  deriving DecidableEq, Repr

/-- The parts of a double: the sign bit, eleven bits of exponent and fifty-two bits of fraction. -/
def Binary.ofFloat (x : Float) : Binary :=
  let bits : Nat := x.toBits.toNat
  let negative := decide (0x8000000000000000 ≤ bits)
  let exponent : Nat := bits / 0x10000000000000 % 0x800
  let fraction : Nat := bits % 0x10000000000000
  if exponent = 2047 then
    if fraction = 0 then .infinite negative else .nan
  else if exponent = 0 then .finite negative fraction (-1074)
  else .finite negative (fraction + 0x10000000000000) (exponent - 1075)

/-- `n / d` rounded to the nearest natural number, a half to the even one. -/
def roundHalfEven (n d : Nat) : Nat :=
  let q := n / d
  let r := n % d
  if 2 * r < d then q
  else if d < 2 * r then q + 1
  else q + q % 2

/-- `n / d` rounded to the nearest natural number, a half upwards. -/
def roundHalfUp (n d : Nat) : Nat := (2 * n + d) / (2 * d)

/-- The natural number nearest to a double, a half upwards.  A negative double and one that is no
number count as zero. -/
def nearestNat (x : Float) : Nat :=
  match Binary.ofFloat x with
  | .finite false m q => if 0 ≤ q then m * Nat.pow 2 q.toNat else roundHalfUp m (Nat.pow 2 (-q).toNat)
  | _ => 0

/-- The whole number between two bounds that is nearest to a double, a half away from zero.  What is
no number counts as zero. -/
def saturating (low high : Int) (x : Float) : Int :=
  match Binary.ofFloat x with
  | .nan => 0
  | .infinite negative => if negative then low else high
  | .finite negative m q =>
    let size : Nat := if 0 ≤ q then m * Nat.pow 2 q.toNat else roundHalfUp m (Nat.pow 2 (-q).toNat)
    max low (min high (if negative then -(size : Int) else size))

/-- The order of all doubles by their bits: negative ones by falling magnitude, then the positive
ones, negative zero before zero, and what is no number last. -/
def rank (x : Float) : Int :=
  let bits : Nat := x.toBits.toNat
  if bits < 0x8000000000000000 then bits else 0x7FFFFFFFFFFFFFFF - bits

end OrderTelemetry.Decimal
