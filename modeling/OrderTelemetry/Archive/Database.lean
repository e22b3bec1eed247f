import OrderTelemetry.Archive.Row

/-!
# The archive's table

A table of rows with one row for each id, in ascending order of the ids.  A row that is there is
never changed: a second one with its id is ignored.

Every operation takes some time at most.  While another program holds the table it times out, and
once the table is gone it is refused.
-/

namespace OrderTelemetry

/-- The state of the archive's table. -/
structure Database where
  /-- The rows by ascending ids. -/
  rows : List Row
  timeoutMs : Nat
  /-- Another program holds the table. -/
  locked : Bool
  /-- Another program has dropped the table. -/
  dropped : Bool
  deriving DecidableEq, Repr

namespace Database

/-- A table without rows. -/
def empty (timeoutMs : Nat) : Database := ⟨[], timeoutMs, false, false⟩

/-- Puts a row into its place, unless its id is taken. -/
def insertRow (row : Row) : List Row → List Row
  | [] => [row]
  | first :: rest =>
    if row.id < first.id then row :: first :: rest
    else if row.id = first.id then first :: rest
    else first :: insertRow row rest

/-- Puts a row into the table if the table takes it. -/
def addRow (d : Database) (row : Row) : Database :=
  if row.isStorable then { d with rows := insertRow row d.rows } else d

/-- Why an operation cannot be carried out at the moment. -/
def obstacle? (d : Database) (operation : String) : Option Fault :=
  if d.locked then some (.timeout operation d.timeoutMs)
  else if d.dropped then some (.unavailable "no such table: order_latency")
  else none

/-- What an operation answers unless there is an obstacle. -/
def guarded {α : Type} (d : Database) (operation : String) (a : α) : Except Fault α :=
  match d.obstacle? operation with
  | some f => .error f
  | none => .ok a

/-- Puts the rows of records into the table. -/
def persist (d : Database) (records : List Record) : Except Fault Database :=
  if records.isEmpty then .ok d
  else d.guarded "persist" ((records.map Row.ofRecord).foldl addRow d)

/-- The rows with the highest ids up to a number, in ascending order. -/
def newest (d : Database) (limit : Nat) : List Row := d.rows.drop (d.rows.length - limit)

/-- The newest rows as records where they are such, the others as the faults they have. -/
def loadRecent (d : Database) (limit : Nat) : Except Fault (List (Except Fault Record)) :=
  d.guarded "load_recent" ((d.newest limit).map Row.toRecord)

/-- Removes the rows from before an instant and says how many there were. -/
def purgeBefore (d : Database) (cutoff : Instant) : Except Fault (Nat × Database) :=
  let kept := d.rows.filter fun row => cutoff.millis ≤ row.timestampMs
  d.guarded "purge" (d.rows.length - kept.length, { d with rows := kept })

/-- The highest id, none in an empty table.  It is not below zero. -/
def maxId (d : Database) : Except Fault (Option Nat) :=
  d.guarded "max_id" (d.rows.getLast?.map fun row => row.id.toNat)

/-- The number of rows. -/
def count (d : Database) : Except Fault Nat := d.guarded "count" d.rows.length

end Database

end OrderTelemetry
