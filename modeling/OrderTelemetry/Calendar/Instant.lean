/-!
# Instants

An instant is a second since 1970-01-01T00:00:00 UTC and the nanoseconds into it.  More than a
thousand million nanoseconds stand for a leap second, which follows the second it is counted from.
Instants are ordered by seconds, then by nanoseconds.

The calendar ends at the years -262143 and 262142, so a step back in time (`Instant.minus?`) may
leave it.
-/

namespace OrderTelemetry

/-- A length of time. -/
structure Duration where
  nanos : Nat
  deriving DecidableEq, Repr

namespace Duration

/-- A number of whole seconds. -/
def ofSeconds (n : Nat) : Duration := ⟨n * 1000000000⟩

/-- A number of whole milliseconds. -/
def ofMillis (n : Nat) : Duration := ⟨n * 1000000⟩

/-- A number of days. -/
def ofDays (n : Nat) : Duration := ⟨86400000000000 * n⟩

/-- The whole seconds in a length of time. -/
def seconds (d : Duration) : Nat := d.nanos / 1000000000

/-- The longest time that a step between two instants can take: a signed number of milliseconds in
sixty-four bits. -/
def longest : Duration := ofMillis 0x7FFFFFFFFFFFFFFF

end Duration

/-- A point in time. -/
structure Instant where
  seconds : Int
  nanos : Nat
  deriving DecidableEq, Repr, Inhabited

namespace Instant

/-- The first second of the calendar. -/
def firstSecond : Int := -8334601228800

/-- The last second of the calendar. -/
def lastSecond : Int := 8210266876799

/-- Whether a second lies in the calendar. -/
def inCalendar (seconds : Int) : Bool := firstSecond ≤ seconds && seconds ≤ lastSecond

/-- Whether an instant lies in a leap second. -/
def isLeap (t : Instant) : Bool := 1000000000 ≤ t.nanos

/-- Whether an instant comes before another one. -/
def before (a b : Instant) : Bool :=
  a.seconds < b.seconds || (a.seconds = b.seconds && a.nanos < b.nanos)

/-- The number of whole milliseconds since 1970, rounded down. -/
def millis (t : Instant) : Int := t.seconds * 1000 + (t.nanos / 1000000 : Nat)

/-- The instant a number of milliseconds after 1970, if the calendar has it. -/
def ofMillis? (ms : Int) : Option Instant :=
  let seconds := ms / 1000
  if inCalendar seconds then some ⟨seconds, (ms % 1000).toNat * 1000000⟩ else none

/-- The instant without what is finer than a millisecond.  An instant whose milliseconds the
calendar does not have stays as it is. -/
def truncated (t : Instant) : Instant := (ofMillis? t.millis).getD t

/-- The instant a length of time earlier, if the calendar has it and the time is not too long.

A step that stays below a second does not leave a leap second; a longer one starts from the second
after it. -/
def minus? (t : Instant) (d : Duration) : Option Instant :=
  if Duration.longest.nanos < d.nanos then none
  else if t.isLeap ∧ d.nanos < 1000000000 then some ⟨t.seconds, t.nanos - d.nanos⟩
  else
    let total := t.seconds * 1000000000 + t.nanos - d.nanos
    let seconds := total / 1000000000
    if inCalendar seconds then some ⟨seconds, (total % 1000000000).toNat⟩ else none

end Instant

end OrderTelemetry
