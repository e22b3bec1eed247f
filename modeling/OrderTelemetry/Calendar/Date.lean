/-!
# Dates

The proleptic Gregorian calendar: every day has a number, counted from 1970-01-01, and a date.
Years are counted from March inside the computation, so that the leap day is the last day of its
year and a cycle of four hundred years has `146097` days.

* `Date.ofDays`: the date of a day.
* `Date.toDays`: the day of a date.
-/

namespace OrderTelemetry

/-- A day of the calendar. -/
structure Date where
  year : Int
  month : Nat
  day : Nat
  deriving DecidableEq, Repr

namespace Date

/-- The days from the 1st of March of year zero to 1970-01-01. -/
def epochOffset : Int := 719468

/-- The days of a cycle of four hundred years. -/
def cycleDays : Int := 146097

/-- The year of a cycle in which a day of the cycle falls, counted from March. -/
def yearOfCycle (day : Nat) : Nat :=
  (day - day / 1460 + day / 36524 - day / 146096) / 365

/-- The days of a cycle before one of its years. -/
def daysBeforeYear (year : Nat) : Nat := 365 * year + year / 4 - year / 100

/-- The days before a month, counted from March. -/
def daysBeforeMonth (month : Nat) : Nat := (153 * month + 2) / 5

/-- The month, counted from March, in which a day of a year falls. -/
def monthOfYear (day : Nat) : Nat := (5 * day + 2) / 153

/-- The date of a day. -/
def ofDays (days : Int) : Date :=
  let shifted := days + epochOffset
  let cycle := shifted / cycleDays
  let dayOfCycle := (shifted % cycleDays).toNat
  let year := yearOfCycle dayOfCycle
  let dayOfYear := dayOfCycle - daysBeforeYear year
  let month := monthOfYear dayOfYear
  { year := cycle * 400 + year + (if month < 10 then 0 else 1)
    month := if month < 10 then month + 3 else month - 9
    day := dayOfYear - daysBeforeMonth month + 1 }

/-- The day of a date. -/
def toDays (d : Date) : Int :=
  let year := if d.month ≤ 2 then d.year - 1 else d.year
  let month := if d.month ≤ 2 then d.month + 9 else d.month - 3
  year / 400 * cycleDays + daysBeforeYear (year % 400).toNat + daysBeforeMonth month +
    (d.day - 1 : Nat) - epochOffset

/-- The day of the year, counted from one. -/
def ordinal (d : Date) : Nat := (d.toDays - (⟨d.year, 1, 1⟩ : Date).toDays).toNat + 1

/-- The day of the week, counted from Sunday as zero. -/
def weekday (days : Int) : Nat := ((days + 4) % 7).toNat

/-- The days since the last Monday. -/
def sinceMonday (days : Int) : Nat := ((days + 3) % 7).toNat

/-- The Thursday of the week of a day.  A week belongs to the year of its Thursday. -/
def thursday (days : Int) : Int := days - sinceMonday days + 3

/-- The year to which the week of a day belongs, and the number of the week in it. -/
def isoWeek (days : Int) : Int × Nat :=
  let date := ofDays (thursday days)
  (date.year, (date.ordinal - 1) / 7 + 1)

end Date

end OrderTelemetry
