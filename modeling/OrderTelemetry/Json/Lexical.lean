import OrderTelemetry.Decimal.Reader
import OrderTelemetry.Text.Hex

/-!
# The small parts of a JSON text

A JSON text is read in one pass from left to right, and the first problem decides what is wrong with
it (`Problem`).  The functions here read the parts without inner structure: blanks, literal words,
numbers and strings.  Each takes the characters that remain and returns what it read with the
characters that remain after it.

A number keeps as many digits as fit sixty-four bits and is then scaled once by a power of ten
(`scaled`), so a whole number is exact and a real number may differ from the nearest double in its
last bit once it has more than fifteen digits.
-/

namespace OrderTelemetry.Json

/-- What is wrong with a JSON text at its first problem. -/
inductive Problem where
  /-- The characters are not JSON. -/
  | malformed
  /-- The JSON is not of the expected kind. -/
  | mismatched
  /-- The text ends too early. -/
  | truncated
  deriving DecidableEq, Repr

/-- Reads a value off the front of the remaining characters. -/
abbrev Reader (α : Type) := List Char → Except Problem (α × List Char)

/-- The four characters that may stand between the parts. -/
def isSpace (c : Char) : Bool := c = ' ' || c = '\n' || c = '\t' || c = '\r'

/-- The remaining characters from the next part on. -/
def skipSpace (s : List Char) : List Char := s.dropWhile isSpace

/-- Reads the rest of a literal word. -/
def word : List Char → List Char → Except Problem (List Char)
  | [], s => .ok s
  | _ :: _, [] => .error .truncated
  | c :: w, d :: s => if c = d then word w s else .error .malformed

/-! ### Numbers -/

/-- A number as it was written: whole numbers that fit sixty-four bits, and all others. -/
inductive Number where
  | natural (n : Nat)
  | negative (n : Int)
  | real (x : Float)

/-- Digits appended to a significand as long as it fits sixty-four bits, and the digits left. -/
def absorb : Nat → List Char → Nat × List Char
  | n, [] => (n, [])
  | n, c :: cs =>
    let next := 10 * n + Decimal.digitValue c
    if next < 0x10000000000000000 then absorb next cs else (n, c :: cs)

/-- The double for a power of ten up to 308. -/
def powerOfTen (k : Nat) : Float := Float.ofScientific 1 false k

/-- A double divided by `10 ^ k`, in steps that the double can make. -/
def scaleDown (x : Float) (k : Nat) : Float :=
  if k ≤ 308 then x / powerOfTen k
  else if x == 0.0 then x
  else scaleDown (x / powerOfTen 308) (k - 308)
termination_by k
decreasing_by omega

/-- `n · 10 ^ e` as a double, unless it is beyond the largest one. -/
def scaled (n : Nat) (e : Int) : Except Problem Float :=
  let x := Float.ofNat n
  if e < 0 then .ok (scaleDown x e.natAbs)
  else if 308 < e then if n = 0 then .ok x else .error .malformed
  else
    let y := x * powerOfTen e.toNat
    if y.isInf then .error .malformed else .ok y

/-- The digits of an exponent, after its letter. -/
def exponent (s : List Char) : Except Problem (Int × List Char) :=
  let (negative, s) := Decimal.splitSign s
  let digits := s.takeWhile Decimal.isDigit
  let rest := s.dropWhile Decimal.isDigit
  if digits.isEmpty then .error (if rest.isEmpty then .truncated else .malformed)
  else
    let e : Int := Decimal.ofDigits digits
    .ok (if negative then -e else e, rest)

/-- The optional exponent of a real number whose digits stand for `n · 10 ^ e`. -/
def scaledExponent (n : Nat) (e : Int) : List Char → Except Problem (Float × List Char)
  | c :: s =>
    if c = 'e' ∨ c = 'E' then do
      let (more, rest) ← exponent s
      let x ← scaled n (e + more)
      .ok (x, rest)
    else do
      let x ← scaled n e
      .ok (x, c :: s)
  | [] => do
    let x ← scaled n e
    .ok (x, [])

/-- The fraction of a real number, after its point. -/
def fraction (n : Nat) (e : Int) (s : List Char) : Except Problem (Float × List Char) :=
  let digits := s.takeWhile Decimal.isDigit
  let rest := s.dropWhile Decimal.isDigit
  if digits.isEmpty then .error (if rest.isEmpty then .truncated else .malformed)
  else
    let (n, left) := absorb n digits
    scaledExponent n (e - (digits.length - left.length : Nat)) rest

/-- A number without its sign, as the digits that fit and what they have to be scaled by. -/
def unsignedNumber (s : List Char) : Except Problem ((Nat ⊕ Float) × List Char) :=
  let digits := s.takeWhile Decimal.isDigit
  let rest := s.dropWhile Decimal.isDigit
  match digits with
  | [] => .error (if rest.isEmpty then .truncated else .malformed)
  | '0' :: _ :: _ => .error .malformed
  | _ =>
    let (n, left) := absorb 0 digits
    let real (r : Except Problem (Float × List Char)) := r.map fun (x, t) => (Sum.inr x, t)
    match rest with
    | '.' :: t => real (fraction n left.length t)
    | c :: _ =>
      if c = 'e' ∨ c = 'E' ∨ !left.isEmpty then real (scaledExponent n left.length rest)
      else .ok (.inl n, rest)
    | [] => if left.isEmpty then .ok (.inl n, []) else real (scaledExponent n left.length [])

/-- Reads a number.  Minus zero and whole numbers beyond sixty-four bits count as real. -/
def readNumber : Reader Number
  | '-' :: s => do
    match ← unsignedNumber s with
    | (.inl n, rest) =>
      if n = 0 ∨ 0x8000000000000000 < n then .ok (.real (-(Float.ofNat n)), rest)
      else .ok (.negative (-(n : Int)), rest)
    | (.inr x, rest) => .ok (.real (-x), rest)
  | s => do
    match ← unsignedNumber s with
    | (.inl n, rest) => .ok (.natural n, rest)
    | (.inr x, rest) => .ok (.real x, rest)

/-! ### Strings -/

/-- The number of bytes of the remaining characters. -/
def byteCount (s : List Char) : Nat := s.foldl (fun n c => n + c.utf8Size) 0

/-- Four hexadecimal digits.  If fewer than four bytes remain the text has ended too early. -/
def hexFour (s : List Char) : Except Problem (Nat × List Char) :=
  let bad := Except.error (if byteCount (s.take 4) < 4 then Problem.truncated else .malformed)
  match s with
  | a :: b :: c :: d :: rest =>
    match Text.hexValue a, Text.hexValue b, Text.hexValue c, Text.hexValue d with
    | some a, some b, some c, some d => .ok (((a * 16 + b) * 16 + c) * 16 + d, rest)
    | _, _, _, _ => bad
  | _ => bad

/-- The character of a pair of surrogates. -/
def surrogatePair (high low : Nat) : Char :=
  Char.ofNat (0x10000 + (high - 0xD800) * 0x400 + (low - 0xDC00))

/-- The character for a code written in hexadecimal.  A high surrogate needs a low one after it. -/
def codePoint (s : List Char) : Except Problem (Char × List Char) := do
  let (high, rest) ← hexFour s
  if 0xDC00 ≤ high ∧ high ≤ 0xDFFF then .error .malformed
  else if 0xD800 ≤ high ∧ high ≤ 0xDBFF then
    match rest with
    | [] | ['\\'] => .error .truncated
    | '\\' :: 'u' :: rest =>
      let (low, rest) ← hexFour rest
      if 0xDC00 ≤ low ∧ low ≤ 0xDFFF then .ok (surrogatePair high low, rest)
      else .error .malformed
    | _ => .error .malformed
  else .ok (Char.ofNat high, rest)

/-- The characters that a backslash and one letter stand for. -/
def shortEscape (c : Char) : Option Char :=
  if c = '"' ∨ c = '\\' ∨ c = '/' then some c
  else if c = 'b' then some '\x08'
  else if c = 'f' then some '\x0c'
  else if c = 'n' then some '\n'
  else if c = 'r' then some '\r'
  else if c = 't' then some '\t'
  else none

/-- The character after a backslash; `code` reads a code written in hexadecimal. -/
def escape (code : Reader Char) : Reader Char
  | [] => .error .truncated
  | 'u' :: s => code s
  | c :: s => match shortEscape c with
    | some d => .ok (d, s)
    | none => .error .malformed

/-- The characters up to the closing quote.  The first argument bounds the number of characters,
the third holds those read so far, the last one first. -/
def characters (code : Reader Char) :
    Nat → List Char → List Char → Except Problem (String × List Char)
  | 0, _, _ => .error .truncated
  | n + 1, read, s => match s with
    | [] => .error .truncated
    | '"' :: rest => .ok (String.ofList read.reverse, rest)
    | '\\' :: rest => do
      let (c, rest) ← escape code rest
      characters code n (c :: read) rest
    | c :: rest =>
      if c.toNat < 0x20 then .error .malformed else characters code n (c :: read) rest

/-- The string after its opening quote. -/
def stringBody : Reader String := fun s => characters codePoint (s.length + 1) [] s

/-- Steps over the string after its opening quote.  A code in a string that nobody reads may stand
for anything. -/
def skipString (s : List Char) : Except Problem (List Char) :=
  (characters (fun s => (hexFour s).map fun (_, rest) => ('?', rest)) (s.length + 1) [] s).map
    Prod.snd

end OrderTelemetry.Json
