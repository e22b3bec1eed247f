import OrderTelemetry.Text.Hex
import OrderTelemetry.Text.Utf8

/-!
# Forms

The query of a request is a list of names with values: pairs are separated by `&`, and the first `=`
of a pair ends its name.  A space is written as a plus sign, and an octet that must not stand for
itself as a percent sign with two hexadecimal digits.

* `Form.encode`: the query for a list of pairs.
* `Form.decode`: the pairs of a query.  A percent sign that is not followed by two hexadecimal digits
  stands for itself.
-/

namespace OrderTelemetry.Http.Form

/-- Whether a character stands for itself. -/
def isPlain (c : Char) : Bool := c.isAlphanum || c = '*' || c = '-' || c = '.' || c = '_'

/-- An octet as an escape. -/
def escaped (octet : Nat) : List Char :=
  ['%', Text.hexDigit (octet / 16), Text.hexDigit (octet % 16)]

/-- The characters for a character of a name or a value. -/
def encodeChar (c : Char) : List Char :=
  if isPlain c then [c]
  else if c = ' ' then ['+']
  else (Text.Utf8.encodeChar c).flatMap escaped

/-- The characters for a name or a value. -/
def encodePart (s : String) : List Char := s.toList.flatMap encodeChar

/-- The query for a list of pairs. -/
def encode (pairs : List (String × String)) : String :=
  String.ofList <| ['&'].intercalate <|
    pairs.map fun (name, value) => encodePart name ++ '=' :: encodePart value

/-- The octets that a name or a value stands for. -/
def octets : List Char → List Nat
  | [] => []
  | '%' :: a :: b :: rest =>
    match Text.hexValue a, Text.hexValue b with
    | some x, some y => (16 * x + y) :: octets rest
    | _, _ => '%'.toNat :: octets (a :: b :: rest)
  | '+' :: rest => ' '.toNat :: octets rest
  | c :: rest => Text.Utf8.encodeChar c ++ octets rest

/-- The text that a name or a value stands for. -/
def decodePart (s : List Char) : String := String.ofList (Text.Utf8.decode (octets s))

/-- The parts of a query between its separators. -/
def parts : List Char → List (List Char)
  | [] => [[]]
  | c :: rest =>
    if c = '&' then [] :: parts rest
    else match parts rest with
      | [] => [[c]]
      | part :: more => (c :: part) :: more

/-- A pair. -/
def pair (s : List Char) : String × String :=
  (decodePart (s.takeWhile (· != '=')), decodePart ((s.dropWhile (· != '=')).drop 1))

/-- The pairs of a query. -/
def decode (query : String) : List (String × String) :=
  ((parts query.toList).filter fun part => !part.isEmpty).map pair

end OrderTelemetry.Http.Form
