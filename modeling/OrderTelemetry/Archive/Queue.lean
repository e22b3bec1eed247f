import OrderTelemetry.Notice

/-!
# The archive queue

Records wait in a bounded queue until the writer takes them.  Whoever puts a record in never waits:
if the queue is full, or its writer has stopped, the record is left out.
-/

namespace OrderTelemetry

/-- The records that wait for the writer. -/
structure Queue where
  capacity : Nat
  capacity_pos : 0 < capacity
  pending : List Record
  /-- The writer takes no more records. -/
  stopped : Bool

namespace Queue

theorem max_one_pos (n : Nat) : 0 < max 1 n := Nat.le_max_left 1 n

/-- A queue for a number of records, of at least one. -/
def ofCapacity (n : Nat) : Queue := ⟨max 1 n, max_one_pos n, [], false⟩

/-- Puts a record at the end of the queue and says whether that was possible. -/
def enqueue (q : Queue) (r : Record) : Bool × Queue × List Notice :=
  if q.stopped then (false, q, [.queueClosed r.id])
  else if q.capacity ≤ q.pending.length then (false, q, [.queueFull r.id])
  else (true, { q with pending := q.pending ++ [r] }, [])

end Queue

end OrderTelemetry
