/-!
# Numbers in text

Settings and command lines give numbers as text.  A whole number is a sign and digits within the
range of its type; a real number is an optional sign and either digits with at most one point and
an optional exponent, or one of the words `inf`, `infinity` and `nan` in any case.  A real number is
read as the nearest double.
-/

namespace OrderTelemetry.Decimal

/-- Whether a character is one of `0` to `9`. -/
def isDigit (c : Char) : Bool := '0' ≤ c && c ≤ '9'

/-- The value of a digit. -/
def digitValue (c : Char) : Nat := c.toNat - '0'.toNat

/-- The number that a list of digits stands for. -/
def ofDigits (cs : List Char) : Nat := cs.foldl (fun n c => 10 * n + digitValue c) 0

/-- A sign in front of a text, true for a minus, and the rest. -/
def splitSign : List Char → Bool × List Char
  | '-' :: rest => (true, rest)
  | '+' :: rest => (false, rest)
  | s => (false, s)

/-- The number that a non-empty text of digits stands for. -/
def natural? (s : List Char) : Option Nat :=
  if s.isEmpty || !s.all isDigit then none else some (ofDigits s)

/-- A whole number between two bounds.  Zero is the only number that a minus may precede where the
lower bound is zero; a type without negative numbers takes no minus at all. -/
def wholeBetween (low high : Int) (s : String) : Option Int :=
  match splitSign s.toList, s.toList with
  | (true, rest), _ =>
    if low = 0 then none
    else (natural? rest).bind fun n => if low ≤ -(n : Int) then some (-(n : Int)) else none
  | (false, rest), _ => (natural? rest).bind fun n => if (n : Int) ≤ high then some n else none

/-- A whole number of sixty-four bits with a sign. -/
def int64? (s : String) : Option Int := wholeBetween (-0x8000000000000000) 0x7FFFFFFFFFFFFFFF s

/-- A whole number of sixty-four bits without a sign. -/
def uint64? (s : String) : Option Nat := (wholeBetween 0 0xFFFFFFFFFFFFFFFF s).map Int.toNat

/-- The double nearest to `n · 10 ^ e`.  Beyond four hundred places on either side of the point
nothing but zero and infinity is left. -/
def nearestDouble (n : Nat) (e : Int) : Float :=
  if n = 0 then 0.0
  else
    let lead := (n.repr.length : Int) + e
    if 400 < lead then 1.0 / 0.0
    else if lead < -400 then 0.0
    else Float.ofScientific n (decide (e < 0)) e.natAbs

/-- An exponent: nothing, or `e` with an optional sign and digits. -/
def exponent? : List Char → Option Int
  | [] => some 0
  | c :: rest =>
    if c = 'e' ∨ c = 'E' then
      let (negative, digits) := splitSign rest
      (natural? digits).map fun n => if negative then -(n : Int) else n
    else none

/-- A real number without its sign. -/
def unsignedReal? (s : List Char) : Option Float :=
  let word := String.ofList (s.map Char.toLower)
  if word = "inf" ∨ word = "infinity" then some (1.0 / 0.0)
  else if word = "nan" then some (0.0 / 0.0)
  else
    let whole := s.takeWhile isDigit
    let rest := s.dropWhile isDigit
    let (fraction, rest) := match rest with
      | '.' :: r => (r.takeWhile isDigit, r.dropWhile isDigit)
      | r => ([], r)
    if whole.isEmpty && fraction.isEmpty then none
    else (exponent? rest).map fun e =>
      nearestDouble (ofDigits (whole ++ fraction)) (e - fraction.length)

/-- A real number. -/
def real? (s : String) : Option Float :=
  let (negative, rest) := splitSign s.toList
  (unsignedReal? rest).map fun x => if negative then -x else x

end OrderTelemetry.Decimal
