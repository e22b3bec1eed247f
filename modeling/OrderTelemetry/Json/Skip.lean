import OrderTelemetry.Json.Lexical

/-!
# Values that nobody reads

A member with an unknown name may hold any value, however deeply nested.  `skipValue` steps over it
and checks that it is JSON.  It keeps the brackets that are still open, so the depth is bounded by
the text alone.  Numbers are checked for their form and not for their range, and a number cut off at
the end of the text counts as malformed.
-/

namespace OrderTelemetry.Json

/-- An open bracket. -/
inductive Bracket where
  | list
  | object
  deriving DecidableEq, Repr

/-- The character that closes a bracket. -/
def Bracket.closing : Bracket → Char
  | list => ']'
  | object => '}'

/-- What the reader stands in front of. -/
inductive Place where
  /-- A value. -/
  | value
  /-- The first entry of the bracket just opened, or its end. -/
  | opened
  /-- The end of a value. -/
  | done

/-- Steps over digits, of which there must be one at least. -/
def skipDigits (s : List Char) : Except Problem (List Char) :=
  match s.takeWhile Decimal.isDigit with
  | [] => .error .malformed
  | _ => .ok (s.dropWhile Decimal.isDigit)

/-- Steps over an optional exponent. -/
def skipExponent : List Char → Except Problem (List Char)
  | c :: s =>
    if c = 'e' ∨ c = 'E' then skipDigits (Decimal.splitSign s).2 else .ok (c :: s)
  | [] => .ok []

/-- Steps over a number without its sign. -/
def skipNumber (s : List Char) : Except Problem (List Char) :=
  match s.takeWhile Decimal.isDigit with
  | [] => .error .malformed
  | '0' :: _ :: _ => .error .malformed
  | _ => match s.dropWhile Decimal.isDigit with
    | '.' :: rest => do skipExponent (← skipDigits rest)
    | rest => skipExponent rest

/-- Steps over the name of a member and its colon. -/
def skipName (s : List Char) : Except Problem (List Char) :=
  match skipSpace s with
  | [] => .error .truncated
  | '"' :: rest => do
    match skipSpace (← skipString rest) with
    | [] => .error .truncated
    | ':' :: rest => .ok rest
    | _ => .error .malformed
  | _ => .error .malformed

/-- Steps over a name if the innermost bracket is an object. -/
def skipKey (bracket : Bracket) (s : List Char) : Except Problem (List Char) :=
  match bracket with
  | .list => .ok s
  | .object => skipName s

/-- Steps from a place to the end of the outermost value, with the open brackets innermost first.
The first argument bounds the number of steps. -/
def skipFrom : Nat → Place → List Bracket → List Char → Except Problem (List Char)
  | 0, _, _, _ => .error .truncated
  | n + 1, .value, brackets, s =>
    match skipSpace s with
    | [] => .error .truncated
    | 'n' :: rest => do skipFrom n .done brackets (← word "ull".toList rest)
    | 't' :: rest => do skipFrom n .done brackets (← word "rue".toList rest)
    | 'f' :: rest => do skipFrom n .done brackets (← word "alse".toList rest)
    | '-' :: rest => do skipFrom n .done brackets (← skipNumber rest)
    | '"' :: rest => do skipFrom n .done brackets (← skipString rest)
    | '[' :: rest => skipFrom n .opened (.list :: brackets) rest
    | '{' :: rest => skipFrom n .opened (.object :: brackets) rest
    | c :: rest => do
      if Decimal.isDigit c then skipFrom n .done brackets (← skipNumber (c :: rest))
      else .error .malformed
  | _ + 1, .done, [], s => .ok s
  | n + 1, .done, b :: brackets, s =>
    match skipSpace s with
    | [] => .error .truncated
    | c :: rest => do
      if c = ',' then skipFrom n .value (b :: brackets) (← skipKey b rest)
      else if c = b.closing then skipFrom n .done brackets rest
      else .error .malformed
  | _ + 1, .opened, [], s => .ok s
  | n + 1, .opened, b :: brackets, s =>
    match skipSpace s with
    | [] => .error .truncated
    | c :: rest => do
      if c = b.closing then skipFrom n .done brackets rest
      else skipFrom n .value (b :: brackets) (← skipKey b (c :: rest))

/-- Steps over one value. -/
def skipValue (s : List Char) : Except Problem (List Char) :=
  skipFrom (2 * s.length + 2) .value [] s

end OrderTelemetry.Json
