import OrderTelemetry.Calendar.Instant

/-!
# Retention

How many records a store keeps, and how old they may get.
-/

namespace OrderTelemetry

/-- The bounds of a store. -/
structure Retention where
  maxRecords : Nat
  maxAge : Option Duration
  deriving DecidableEq, Repr

namespace Retention

/-- A bound on the number of records, of at least one. -/
def ofCount (n : Nat) : Retention := ⟨max 1 n, none⟩

/-- The same bounds with one on the age. -/
def withMaxAge (p : Retention) (age : Duration) : Retention := { p with maxAge := some age }

/-- Ten thousand records of any age. -/
def standard : Retention := ofCount 10000

/-- The instant before which records are too old.  There is none without a bound on the age, and
none if it would lie outside the calendar. -/
def cutoff (p : Retention) (now : Instant) : Option Instant := p.maxAge.bind now.minus?

end Retention

end OrderTelemetry
