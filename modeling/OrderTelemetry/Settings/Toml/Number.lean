import OrderTelemetry.Decimal.Reader
import OrderTelemetry.Settings.Toml.Text
import OrderTelemetry.Text.Column

/-!
# Numbers and times in TOML

Digits may be grouped by underscores that stand between two of them.  A whole number has sixty-four
bits with a sign; without a sign it may be hexadecimal, octal or binary.  A real number has a
fraction or an exponent.  Times are only checked for their form and kept as texts.
-/

namespace OrderTelemetry.Toml

/-- Digits, possibly grouped by underscores, that follow a digit. -/
def moreDigits (ok : Char → Bool) : List Char → List Char × List Char
  | [] => ([], [])
  | '_' :: c :: rest =>
    if ok c then
      let (found, rest) := moreDigits ok rest
      (c :: found, rest)
    else ([], '_' :: c :: rest)
  | c :: rest =>
    if ok c then
      let (found, rest) := moreDigits ok rest
      (c :: found, rest)
    else ([], c :: rest)

/-- At least one digit. -/
def digits (ok : Char → Bool) : Reader (List Char)
  | [] => none
  | c :: rest =>
    if ok c then
      let (found, rest) := moreDigits ok rest
      some (c :: found, rest)
    else none

/-- The digits of a decimal number: zero, or digits that do not begin with zero. -/
def decimalDigits : Reader (List Char)
  | '0' :: rest => some (['0'], rest)
  | s => digits Decimal.isDigit s

/-- A whole number in another base than ten, after what names the base. -/
def inBase (base : Nat) (s : List Char) : Option (Int × List Char) := do
  let isDigit (c : Char) : Bool := ((Text.hexValue c).map fun v => decide (v < base)) = some true
  let (found, rest) ← digits isDigit s
  let n := found.foldl (fun n c => base * n + (Text.hexValue c).getD 0) 0
  if n < 0x8000000000000000 then return ((n : Int), rest) else none

/-- A whole number. -/
def integer : Reader Int
  | '0' :: 'x' :: rest => inBase 16 rest
  | '0' :: 'o' :: rest => inBase 8 rest
  | '0' :: 'b' :: rest => inBase 2 rest
  | s => do
    let (negative, unsigned) := Decimal.splitSign s
    let (found, rest) ← decimalDigits unsigned
    let n := Decimal.ofDigits found
    if negative then if n ≤ 0x8000000000000000 then return (-(n : Int), rest) else none
    else if n < 0x8000000000000000 then return ((n : Int), rest) else none

/-- An exponent as it was written. -/
def exponent : Reader (List Char)
  | c :: s =>
    if c = 'e' ∨ c = 'E' then do
      let (negative, unsigned) := Decimal.splitSign s
      let (found, rest) ← digits Decimal.isDigit unsigned
      return ('e' :: (if negative then '-' :: found else found), rest)
    else none
  | [] => none

/-- A fraction as it was written. -/
def fraction : Reader (List Char)
  | '.' :: s => do
    let (found, rest) ← digits Decimal.isDigit s
    return ('.' :: found, rest)
  | _ => none

/-- A part that may be missing. -/
def orNothing (read : Reader (List Char)) (s : List Char) : List Char × List Char :=
  (read s).getD ([], s)

/-- A real number without its sign, as it was written. -/
def unsignedReal : Reader (List Char)
  | 'i' :: 'n' :: 'f' :: rest => some ("inf".toList, rest)
  | 'n' :: 'a' :: 'n' :: rest => some ("nan".toList, rest)
  | s => do
    let (whole, rest) ← decimalDigits s
    let (part, rest) := orNothing fraction rest
    let (power, rest) := orNothing exponent rest
    if part.isEmpty && power.isEmpty then none else return (whole ++ part ++ power, rest)

/-- A real number.  One with digits must not be beyond the largest double. -/
def real (s : List Char) : Option (Float × List Char) := do
  let (negative, unsigned) := Decimal.splitSign s
  let (written, rest) ← unsignedReal unsigned
  let x ← Decimal.real? (String.ofList written)
  if x.isInf && written != "inf".toList then none else return (if negative then -x else x, rest)

/-! ### Times -/

/-- A number of exactly `count` digits. -/
def fixedDigits (count : Nat) (s : List Char) : Option (Nat × List Char) :=
  let found := s.take count
  if found.length = count ∧ found.all Decimal.isDigit then
    some (Decimal.ofDigits found, s.drop count)
  else none

/-- One expected character. -/
def character (c : Char) : Reader Unit
  | d :: rest => if c = d then some ((), rest) else none
  | [] => none

/-- The number of days of a month. -/
def daysOfMonth (year month : Nat) : Nat :=
  if month = 2 then
    if year % 4 = 0 ∧ (year % 100 ≠ 0 ∨ year % 400 = 0) then 29 else 28
  else if month = 4 ∨ month = 6 ∨ month = 9 ∨ month = 11 then 30
  else 31

/-- A date. -/
def date (s : List Char) : Option (String × List Char) := do
  let (year, rest) ← fixedDigits 4 s
  let ((), rest) ← character '-' rest
  let (month, rest) ← fixedDigits 2 rest
  let ((), rest) ← character '-' rest
  let (day, rest) ← fixedDigits 2 rest
  if 1 ≤ month ∧ month ≤ 12 ∧ 1 ≤ day ∧ day ≤ daysOfMonth year month then
    return (String.ofList (s.take 4) ++ "-" ++ Text.zeroPadded 2 month ++ "-" ++
      Text.zeroPadded 2 day, rest)
  else none

/-- The digits of a fraction of a second, nine at most and without zeros at the end. -/
def subsecond (digits : List Char) : String :=
  let kept := ((digits.take 9).reverse.dropWhile (· = '0')).reverse
  if kept.isEmpty then "" else "." ++ String.ofList kept

/-- A time of the day. -/
def time (s : List Char) : Option (String × List Char) := do
  let (hour, rest) ← fixedDigits 2 s
  let ((), rest) ← character ':' rest
  let (minute, rest) ← fixedDigits 2 rest
  let ((), rest) ← character ':' rest
  let (second, rest) ← fixedDigits 2 rest
  let (part, rest) := match rest with
    | '.' :: more => (more.takeWhile Decimal.isDigit, more.dropWhile Decimal.isDigit)
    | more => ([], more)
  if hour < 24 ∧ minute < 60 ∧ second ≤ 60 then
    return (Text.zeroPadded 2 hour ++ ":" ++ Text.zeroPadded 2 minute ++ ":" ++
      Text.zeroPadded 2 second ++ subsecond part,
      rest)
  else none

/-- The offset of a time from universal time. -/
def offset : Reader String
  | c :: s =>
    if c = 'Z' ∨ c = 'z' then some ("Z", s)
    else if c = '+' ∨ c = '-' then do
      let (hour, rest) ← fixedDigits 2 s
      let ((), rest) ← character ':' rest
      let (minute, rest) ← fixedDigits 2 rest
      if hour < 24 ∧ minute < 60 then
        let sign := if c = '-' ∧ 0 < hour + minute then "-" else "+"
        return (sign ++ Text.zeroPadded 2 hour ++ ":" ++ Text.zeroPadded 2 minute, rest)
      else none
    else none
  | [] => none

/-- A time of the day with an offset that may be missing, after what separates it from the date. -/
def timeOfDate : Reader String
  | c :: s =>
    if c = 'T' ∨ c = 't' ∨ c = ' ' then do
      let (clock, rest) ← time s
      let (zone, rest) := (offset rest).getD ("", rest)
      return ("T" ++ clock ++ zone, rest)
    else none
  | [] => none

/-- A date, a time of the day, or both. -/
def moment (s : List Char) : Option (String × List Char) :=
  match date s with
  | some (day, rest) =>
    let (clock, rest) := (timeOfDate rest).getD ("", rest)
    some (day ++ clock, rest)
  | none => time s

end OrderTelemetry.Toml
