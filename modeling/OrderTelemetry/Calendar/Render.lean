import OrderTelemetry.Calendar.Date
import OrderTelemetry.Calendar.Instant
import OrderTelemetry.Calendar.Pattern
import OrderTelemetry.Text.Column

/-!
# Times as text

A `LocalTime` is an instant seen in a zone with a fixed offset from universal time.  It is written
after a pattern (`LocalTime.format`) or in the form of RFC 3339 (`LocalTime.rfc3339`), which also
stands in for a pattern that cannot be written.
-/

namespace OrderTelemetry

/-- An instant in a zone with a fixed offset in seconds. -/
structure LocalTime where
  /-- The seconds since 1970 in universal time. -/
  timestamp : Int
  offset : Int
  nanos : Nat
  deriving DecidableEq, Repr

namespace LocalTime

/-- An instant in a zone. -/
def ofInstant (t : Instant) (offset : Int) : LocalTime := ⟨t.seconds, offset, t.nanos⟩

/-- The day in the zone. -/
def days (t : LocalTime) : Int := (t.timestamp + t.offset) / 86400

/-- The date in the zone. -/
def date (t : LocalTime) : Date := .ofDays t.days

/-- The second of the day in the zone. -/
def secondOfDay (t : LocalTime) : Nat := ((t.timestamp + t.offset) % 86400).toNat

/-- The hour. -/
def hour (t : LocalTime) : Nat := t.secondOfDay / 3600

/-- The hour on a clock with twelve hours. -/
def hour12 (t : LocalTime) : Nat := if t.hour % 12 = 0 then 12 else t.hour % 12

/-- Whether it is noon or later. -/
def isAfternoon (t : LocalTime) : Bool := 12 ≤ t.hour

/-- The minute. -/
def minute (t : LocalTime) : Nat := t.secondOfDay / 60 % 60

/-- The second, sixty in a leap second. -/
def second (t : LocalTime) : Nat := t.secondOfDay % 60 + t.nanos / 1000000000

/-- The nanoseconds of the second. -/
def fraction (t : LocalTime) : Nat := t.nanos % 1000000000

/-! ### Numbers -/

/-- A number on at least `width` characters, the sign among them.  A plus is written on demand. -/
def padded (pad : Pattern.Pad) (width : Nat) (plus : Bool) (n : Int) : String :=
  let sign := if n < 0 then "-" else if plus then "+" else ""
  match pad with
  | .none => sign ++ n.natAbs.repr
  | .zero => sign ++ Text.zeroPadded (width - sign.length) n.natAbs
  | .space => Text.fill .right width (sign ++ n.natAbs.repr)

/-- A number below 256 whose last digit stands alone and whose tens are one character, past `9` in
the order of characters if need be. -/
def twoPlaces (pad : Pattern.Pad) (n : Nat) : String :=
  let ones := Char.ofNat ('0'.toNat + n % 10)
  let tens := Char.ofNat ('0'.toNat + n / 10)
  match n / 10, pad with
  | 0, .none => String.singleton ones
  | 0, .space => String.ofList [' ', ones]
  | _, _ => String.ofList [tens, ones]

/-- A year.  It has a sign unless it has four digits or less and is not negative. -/
def yearText (pad : Pattern.Pad) (year : Int) : String :=
  if 0 ≤ year ∧ year ≤ 9999 then padded pad 4 false year else padded pad 5 true year

/-- The number of the week of the year, if weeks begin `since` days ago. -/
def weekNumber (t : LocalTime) (since : Nat) : Nat := (t.date.ordinal + 6 - since) / 7

/-- A part of a time. -/
def numeric (t : LocalTime) (pad : Pattern.Pad) : Pattern.Numeric → String
  | .year => yearText pad t.date.year
  | .century => twoPlaces pad (t.date.year / 100 % 256).toNat
  | .yearOfCentury => twoPlaces pad (t.date.year % 100).toNat
  | .isoYear => yearText pad (Date.isoWeek t.days).1
  | .isoYearOfCentury => twoPlaces pad ((Date.isoWeek t.days).1 % 100).toNat
  | .quarter => ((t.date.month - 1) / 3 + 1).repr
  | .month => twoPlaces pad t.date.month
  | .day => twoPlaces pad t.date.day
  | .ordinal => padded pad 3 false t.date.ordinal
  | .weekFromSunday => twoPlaces pad (t.weekNumber (Date.weekday t.days))
  | .weekFromMonday => twoPlaces pad (t.weekNumber (Date.sinceMonday t.days))
  | .isoWeek => twoPlaces pad (Date.isoWeek t.days).2
  | .weekday => (Date.weekday t.days).repr
  | .isoWeekday => (Date.sinceMonday t.days + 1).repr
  | .hour => twoPlaces pad t.hour
  | .hour12 => twoPlaces pad t.hour12
  | .minute => twoPlaces pad t.minute
  | .second => twoPlaces pad t.second
  | .nanosecond => padded pad 9 false t.fraction
  | .timestamp => padded pad 9 false t.timestamp

/-! ### Names -/

/-- The days of the week from Sunday on. -/
def weekdayNames : List String :=
  ["Sunday", "Monday", "Tuesday", "Wednesday", "Thursday", "Friday", "Saturday"]

/-- The months of the year. -/
def monthNames : List String :=
  ["January", "February", "March", "April", "May", "June", "July", "August", "September",
   "October", "November", "December"]

/-- The name of the day of the week. -/
def weekdayName (t : LocalTime) : String := weekdayNames.getD (Date.weekday t.days) ""

/-- The name of the month. -/
def monthName (t : LocalTime) : String := monthNames.getD (t.date.month - 1) ""

/-! ### Fractions and offsets -/

/-- The first digits of the fraction of a second. -/
def fractionDigits (t : LocalTime) (count : Nat) : String :=
  Text.zeroPadded count (t.fraction / Nat.pow 10 (9 - count))

/-- The fraction of a second with a point: nothing, or three, six or nine digits. -/
def fractionText (t : LocalTime) : String :=
  if t.fraction = 0 then ""
  else if t.fraction % 1000000 = 0 then "." ++ t.fractionDigits 3
  else if t.fraction % 1000 = 0 then "." ++ t.fractionDigits 6
  else "." ++ t.fractionDigits 9

/-- The offset from universal time.  Without seconds it is rounded to the nearest minute. -/
def offsetText (t : LocalTime) (form : Pattern.Offset) : String :=
  let sign := if t.offset < 0 then "-" else "+"
  let size := t.offset.natAbs
  let minutes := (size + 30) / 60
  let rounded (colon : String) :=
    sign ++ Text.zeroPadded 2 (minutes / 60) ++ colon ++ Text.zeroPadded 2 (minutes % 60)
  let hours := sign ++ Text.zeroPadded 2 (size / 3600)
  let whole := hours ++ ":" ++ Text.zeroPadded 2 (size / 60 % 60)
  let exact := whole ++ ":" ++ Text.zeroPadded 2 (size % 60)
  match form with
  | .plain => rounded ""
  | .colon => rounded ":"
  | .seconds => exact
  | .hours => hours
  | .exact => if size % 60 = 0 then whole else exact

/-- Date and time in the form of RFC 3339. -/
def rfc3339 (t : LocalTime) : String :=
  let two := Text.zeroPadded 2
  yearText .zero t.date.year ++ "-" ++ two t.date.month ++ "-" ++ two t.date.day ++ "T" ++
    two t.hour ++ ":" ++ two t.minute ++ ":" ++ two t.second ++ t.fractionText ++
    t.offsetText .colon

/-! ### Patterns -/

/-- An item of a pattern, `none` if it cannot be written. -/
def item? (t : LocalTime) : Pattern.Item → Option String
  | .literal c => some (String.singleton c)
  | .numeric part pad => some (t.numeric pad part)
  | .shortWeekday => some (Text.truncate 3 t.weekdayName)
  | .longWeekday => some t.weekdayName
  | .shortMonth => some (Text.truncate 3 t.monthName)
  | .longMonth => some t.monthName
  | .upperHalf => some (if t.isAfternoon then "PM" else "AM")
  | .lowerHalf => some (if t.isAfternoon then "pm" else "am")
  | .fraction => some t.fractionText
  | .digits point count => some ((if point then "." else "") ++ t.fractionDigits count)
  | .offset form => some (t.offsetText form)
  | .rfc3339 => some t.rfc3339
  | .unwritable => none

/-- The items of a pattern one after the other. -/
def items? (t : LocalTime) (items : List Pattern.Item) : Option String :=
  (items.mapM t.item?).map String.join

/-- A time after a pattern, or in the form of RFC 3339 if the pattern cannot be written. -/
def format (t : LocalTime) (pattern : String) : String :=
  ((Pattern.parse? pattern).bind t.items?).getD t.rfc3339

end LocalTime

end OrderTelemetry
