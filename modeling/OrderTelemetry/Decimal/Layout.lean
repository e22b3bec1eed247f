import OrderTelemetry.Decimal.Shortest

/-!
# Written forms of a double

Three ways to write a double.

* `plain`: its shortest digits, always positional, without a point if it is whole.  Messages and the
  export use it.
* `json`: its shortest digits with a point or an exponent, so that a reader of JSON takes it for a
  real number: positional up to sixteen places before the point and from the fifth place after it.
* `fixed p`: its exact value rounded to `p` places, a half to the even digit.  Reports use it.
-/

namespace OrderTelemetry.Decimal

/-- `n` zeros. -/
def zeros (n : Nat) : String := String.ofList (List.replicate n '0')

/-- The first `n` characters of a text and the rest. -/
def splitText (n : Nat) (s : String) : String × String :=
  (String.ofList (s.toList.take n), String.ofList (s.toList.drop n))

/-- The sign in front of a number. -/
def sign (negative : Bool) : String := if negative then "-" else ""

/-- Digits in positional form, without a point if no digit stands behind it. -/
def Digits.positional (d : Digits) : String :=
  let text := d.digits.repr
  if 0 ≤ d.power then text ++ zeros d.power.toNat
  else
    let point := (text.length : Int) + d.power
    if 0 < point then
      let (whole, fraction) := splitText point.toNat text
      whole ++ "." ++ fraction
    else "0." ++ zeros (-point).toNat ++ text

/-- Digits with one digit before the point and an exponent. -/
def Digits.scientific (d : Digits) : String :=
  let text := d.digits.repr
  let exponent := (text.length : Int) + d.power - 1
  let (first, rest) := splitText 1 text
  (if rest.isEmpty then first else first ++ "." ++ rest) ++ "e" ++ toString exponent

/-- A double in positional form with as many digits as it needs. -/
def plain (x : Float) : String :=
  match Binary.ofFloat x with
  | .nan => "NaN"
  | .infinite negative => sign negative ++ "inf"
  | .finite negative m q =>
    if m = 0 then sign negative ++ "0" else sign negative ++ (shortest m q).positional

/-- A finite double as a JSON number with a point or an exponent. -/
def json (x : Float) : Option String :=
  match Binary.ofFloat x with
  | .nan | .infinite _ => none
  | .finite negative m q =>
    if m = 0 then some (sign negative ++ "0.0")
    else
      let d := shortest m q
      let point := (digitCount d.digits : Int) + d.power
      let body :=
        if 0 ≤ d.power ∧ point ≤ 16 then d.positional ++ ".0"
        else if -5 < point ∧ point ≤ 16 then d.positional
        else d.scientific
      some (sign negative ++ body)

/-- The number of units of `10 ^ (-places)` in `m · 2 ^ q`, a half unit to the even number. -/
def roundedTo (places m : Nat) (q : Int) : Nat :=
  if 0 ≤ q then m * Nat.pow 2 q.toNat * Nat.pow 10 places
  else roundHalfEven (m * Nat.pow 10 places) (Nat.pow 2 (-q).toNat)

/-- A double with a fixed number of places after the point. -/
def fixed (places : Nat) (x : Float) : String :=
  match Binary.ofFloat x with
  | .nan => "NaN"
  | .infinite negative => sign negative ++ "inf"
  | .finite negative m q =>
    let units := roundedTo places m q
    let text := units.repr
    let text := zeros (places + 1 - text.length) ++ text
    let (whole, fraction) := splitText (text.length - places) text
    sign negative ++ (if places = 0 then whole else whole ++ "." ++ fraction)

end OrderTelemetry.Decimal
