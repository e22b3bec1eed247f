/-!
# Patterns for times

A pattern is text with directives.  A directive is a percent sign, an optional modifier and a
letter: `%d` stands for the day of the month, `%-d` for the same without a leading zero.
`Pattern.parse?` turns a text into its items and fails if a directive is unknown, cut off, or has a
modifier that it does not take.
-/

namespace OrderTelemetry.Pattern

/-- What a number is filled up with on its left. -/
inductive Pad where
  | none
  | zero
  | space
  deriving DecidableEq, Repr

/-- The parts of a time that are numbers. -/
inductive Numeric where
  | year
  | century
  | yearOfCentury
  | isoYear
  | isoYearOfCentury
  | quarter
  | month
  | day
  | ordinal
  | weekFromSunday
  | weekFromMonday
  | isoWeek
  /-- The day of the week, Sunday as zero. -/
  | weekday
  /-- The day of the week, Monday as one. -/
  | isoWeekday
  | hour
  | hour12
  | minute
  | second
  | nanosecond
  /-- The seconds since 1970. -/
  | timestamp
  deriving DecidableEq, Repr

/-- How the offset from universal time is written. -/
inductive Offset where
  /-- Hours and minutes without a colon. -/
  | plain
  /-- Hours and minutes. -/
  | colon
  /-- Hours, minutes and seconds. -/
  | seconds
  /-- Hours alone. -/
  | hours
  /-- Hours and minutes, and seconds if there are any. -/
  | exact
  deriving DecidableEq, Repr

/-- A part of a pattern. -/
inductive Item where
  | literal (c : Char)
  | numeric (part : Numeric) (pad : Pad)
  | shortWeekday
  | longWeekday
  | shortMonth
  | longMonth
  /-- `AM` or `PM`. -/
  | upperHalf
  /-- `am` or `pm`. -/
  | lowerHalf
  /-- The fraction of the second with a point, as long as it needs, in groups of three digits. -/
  | fraction
  /-- A fixed number of digits of the fraction, with or without a point. -/
  | digits (point : Bool) (count : Nat)
  | offset (form : Offset)
  /-- Date and time in the form of RFC 3339. -/
  | rfc3339
  /-- An offset that can be read in several forms and therefore not be written. -/
  | unwritable
  deriving DecidableEq, Repr

open Item Numeric

/-- The items of a time with seconds. -/
def clock : List Item :=
  [numeric hour .zero, literal ':', numeric minute .zero, literal ':', numeric second .zero]

/-- The items that a directive of one letter stands for. -/
def letter : Char → Option (List Item)
  | 'A' => some [longWeekday]
  | 'B' => some [longMonth]
  | 'C' => some [numeric century .zero]
  | 'D' | 'x' => some [numeric month .zero, literal '/', numeric day .zero, literal '/',
      numeric yearOfCentury .zero]
  | 'F' => some [numeric year .zero, literal '-', numeric month .zero, literal '-',
      numeric day .zero]
  | 'G' => some [numeric isoYear .zero]
  | 'H' => some [numeric hour .zero]
  | 'I' => some [numeric hour12 .zero]
  | 'M' => some [numeric minute .zero]
  | 'P' => some [lowerHalf]
  | 'R' => some [numeric hour .zero, literal ':', numeric minute .zero]
  | 'S' => some [numeric second .zero]
  | 'T' | 'X' => some clock
  | 'U' => some [numeric weekFromSunday .zero]
  | 'V' => some [numeric isoWeek .zero]
  | 'W' => some [numeric weekFromMonday .zero]
  | 'Y' => some [numeric year .zero]
  | 'Z' => some [offset .exact]
  | 'a' => some [shortWeekday]
  | 'b' | 'h' => some [shortMonth]
  | 'c' => some ([shortWeekday, literal ' ', shortMonth, literal ' ', numeric day .space,
      literal ' '] ++ clock ++ [literal ' ', numeric year .zero])
  | 'd' => some [numeric day .zero]
  | 'e' => some [numeric day .space]
  | 'f' => some [numeric nanosecond .zero]
  | 'g' => some [numeric isoYearOfCentury .zero]
  | 'j' => some [numeric ordinal .zero]
  | 'k' => some [numeric hour .space]
  | 'l' => some [numeric hour12 .space]
  | 'm' => some [numeric month .zero]
  | 'n' => some [literal '\n']
  | 'p' => some [upperHalf]
  | 'q' => some [numeric quarter .zero]
  | 'r' => some ([numeric hour12 .zero, literal ':', numeric minute .zero, literal ':',
      numeric second .zero, literal ' ', upperHalf])
  | 's' => some [numeric timestamp .none]
  | 't' => some [literal '\t']
  | 'u' => some [numeric isoWeekday .zero]
  | 'v' => some [numeric day .space, literal '-', shortMonth, literal '-', numeric year .zero]
  | 'w' => some [numeric weekday .zero]
  | 'y' => some [numeric yearOfCentury .zero]
  | 'z' => some [offset .plain]
  | '+' => some [rfc3339]
  | '%' => some [literal '%']
  | _ => none

/-- The items of a directive after its percent sign and modifier, and what remains. -/
def directive : List Char → Option (List Item × List Char)
  | '.' :: 'f' :: rest => some ([fraction], rest)
  | '.' :: '3' :: 'f' :: rest => some ([digits true 3], rest)
  | '.' :: '6' :: 'f' :: rest => some ([digits true 6], rest)
  | '.' :: '9' :: 'f' :: rest => some ([digits true 9], rest)
  | '3' :: 'f' :: rest => some ([digits false 3], rest)
  | '6' :: 'f' :: rest => some ([digits false 6], rest)
  | '9' :: 'f' :: rest => some ([digits false 9], rest)
  | ':' :: 'z' :: rest => some ([offset .colon], rest)
  | ':' :: ':' :: 'z' :: rest => some ([offset .seconds], rest)
  | ':' :: ':' :: ':' :: 'z' :: rest => some ([offset .hours], rest)
  | c :: rest => (letter c).map fun items => (items, rest)
  | [] => none

/-- A directive with a modifier that says how to fill up a number.  Only a single number takes
it. -/
def padded (pad : Pad) (s : List Char) : Option (List Item × List Char) :=
  match directive s with
  | some ([numeric part _], rest) => some ([numeric part pad], rest)
  | _ => none

/-- The items of a directive after its percent sign, and what remains. -/
def modified : List Char → Option (List Item × List Char)
  | '-' :: rest => padded .none rest
  | '0' :: rest => padded .zero rest
  | '_' :: rest => padded .space rest
  | '#' :: 'z' :: rest => some ([unwritable], rest)
  | s => directive s

/-- The items of a text.  The first argument bounds their number. -/
def items : Nat → List Char → Option (List Item)
  | _, [] => some []
  | 0, _ => none
  | n + 1, '%' :: rest => do
    let (found, rest) ← modified rest
    let more ← items n rest
    return found ++ more
  | n + 1, c :: rest => do
    let more ← items n rest
    return literal c :: more

/-- The items of a pattern, if it is one. -/
def parse? (s : String) : Option (List Item) := items s.length s.toList

/-- Whether a text is a pattern. -/
def isValid (s : String) : Bool := (parse? s).isSome

end OrderTelemetry.Pattern
