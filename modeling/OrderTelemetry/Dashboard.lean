import OrderTelemetry.Export.Chunks
import OrderTelemetry.Store.Query

/-!
# What the dashboard may ask

The dashboard reads the store and never changes what is retained.  It asks for pages of recent
records, for the records of an order, for statistics and for an export.
-/

namespace OrderTelemetry

/-- How many records a page has. -/
structure PageLimits where
  /-- The number of records of a page whose size is not given. -/
  standard : Nat
  maximum : Nat
  deriving DecidableEq, Repr

/-- Limits of at least one record, the standard one within the maximum. -/
def PageLimits.of (standard maximum : Nat) : PageLimits :=
  let maximum := max 1 maximum
  ⟨max 1 (min standard maximum), maximum⟩

/-- The settings of the dashboard. -/
structure Dashboard where
  limits : PageLimits
  format : ExportFormat

namespace Dashboard

/-- The size of a page. -/
def pageSize (d : Dashboard) (limit : Option Nat) : Nat :=
  min (limit.getD d.limits.standard) d.limits.maximum

/-- A page of the newest records, newest first. -/
def recent (d : Dashboard) (s : Store) (limit : Option Nat) : List Record :=
  s.recent (d.pageSize limit)

/-- All retained records of an order, oldest first.  Blanks around its id do not matter. -/
def ofOrder (s : Store) (orderId : String) : List Record := s.ofOrder (Text.trim orderId)

/-- An export of the window as it is. -/
def openExport (d : Dashboard) (s : Store) : Export := .ofRecords s.window d.format

end Dashboard

end OrderTelemetry
