import Std.Data.TreeMap.Basic
import OrderTelemetry.Notice
import OrderTelemetry.Stats.Percentile
import OrderTelemetry.Stats.Totals
import OrderTelemetry.Store.Retention

/-!
# The store

The store keeps a window of the newest records, oldest first, with ids that rise along it.  Beside
the window it keeps the ids of every order, the running totals, and the last sorted sample of
round-trip times.  Records enter at the end (`push`) and leave at the front (`evict`), and both
count as a new generation of the window.

* `Store.insert`: checks a draft, gives it the next id and appends it.
* `Store.restore`: appends records that already have ids.
* `Store.resumeAfter`: makes later ids greater than a given one.
* `Store.evictExpired`: drops the records at the front that are too old.

Ids are numbers of sixty-four bits, and an operation that would need one more fails.
-/

namespace OrderTelemetry

/-- A sorted sample of round-trip times and the generation it belongs to. -/
structure SortedSample where
  generation : Nat
  rtts : Array Float

/-- A bounded window of records with what is derived from it. -/
structure Store where
  retention : Retention
  /-- The retained records, oldest first. -/
  window : Array Record
  /-- The ids of the retained records of every order, oldest first. -/
  byOrder : Std.TreeMap String (Array Nat)
  nextId : Nat
  /-- The number of records that have entered or left the window. -/
  generation : Nat
  totals : Totals
  sample : Option SortedSample

namespace Store

/-- An empty store. -/
def empty (retention : Retention) : Store where
  retention
  window := #[]
  byOrder := ∅
  nextId := 1
  generation := 0
  totals := .zero
  sample := none

/-- The greatest number that an id can be compared with; it is never given to a record. -/
def lastId : Nat := 0xFFFFFFFFFFFFFFFF

/-- The number of retained records. -/
def size (s : Store) : Nat := s.window.size

/-- Appends a record to the window. -/
def push (s : Store) (r : Record) : Store :=
  { s with
    window := s.window.push r
    byOrder := s.byOrder.insert r.orderId ((s.byOrder[r.orderId]?.getD #[]).push r.id)
    generation := s.generation + 1
    totals := s.totals.add r }

/-- Takes the id of a record out of the index.  An order without records leaves it. -/
def unindex (byOrder : Std.TreeMap String (Array Nat)) (r : Record) :
    Std.TreeMap String (Array Nat) :=
  match byOrder[r.orderId]? with
  | none => byOrder
  | some ids =>
    let left := ids.filter (· != r.id)
    if left.isEmpty then byOrder.erase r.orderId else byOrder.insert r.orderId left

/-- Drops the first `n` records of the window. -/
def evict (s : Store) (n : Nat) : Store :=
  let gone := s.window.extract 0 n
  { s with
    window := s.window.extract n s.window.size
    byOrder := gone.foldl unindex s.byOrder
    generation := s.generation + gone.size
    totals := gone.foldl Totals.remove s.totals }

/-- How many records at the front are beyond the bound on their number. -/
def excess (s : Store) : Nat := s.window.size - s.retention.maxRecords

/-- How many records from a position on come before a limit, up to the first that does not. -/
def countBefore (window : Array Record) (limit : Instant) (i : Nat) : Nat :=
  if _h : i < window.size then
    if window[i].timestamp.before limit then countBefore window limit (i + 1) + 1 else 0
  else 0
termination_by window.size - i

/-- How many of the records from a position on are too old, up to the first that is not. -/
def staleFrom (s : Store) (now : Instant) (start : Nat) : Nat :=
  match s.retention.cutoff now with
  | some limit => countBefore s.window limit start
  | none => 0

/-- How many records at the front have to go. -/
def surplus (s : Store) (now : Instant) : Nat := s.excess + s.staleFrom now s.excess

/-- Brings the window within its bounds. -/
def enforce (s : Store) (now : Instant) : Store := s.evict (s.surplus now)

/-! ### Writing -/

/-- Appends a draft under the next id. -/
def insert (s : Store) (d : Draft) (now : Instant) : Step Store Record :=
  match d.latencies.fault? with
  | some f => { answer := .error (.fault f), state := s }
  | none =>
    let unexplained := if d.isFailure && d.error.isNone then [.failureStored d.orderId] else []
    if s.nextId = lastId then
      { answer := .error .idsExhausted, state := s, notices := unexplained }
    else
      let r := d.withId s.nextId
      let pushed := ({ s with nextId := s.nextId + 1 } : Store).push r
      let gone := pushed.surplus now
      { answer := .ok r
        state := pushed.enforce now
        notices := unexplained ++ (if gone = 0 then [] else [.evicted gone r.id]) }

/-- Appends a record that has an id, unless the id is below the next one. -/
def readmit (s : Store) (r : Record) : Except Store Store :=
  if r.id < s.nextId then .ok s
  else if r.id = lastId then .error s
  else .ok (({ s with nextId := r.id + 1 } : Store).push r)

/-- Appends records one after the other.  If one has an id that cannot be followed by another, those
before it stay. -/
def readmitAll : Store → List Record → Except Store Store
  | s, [] => .ok s
  | s, r :: rest => do readmitAll (← s.readmit r) rest

/-- Appends records that have ids, in the order of the ids, and answers how many there were.  Ids
that the store has already passed are left out. -/
def restore (s : Store) (records : List Record) (now : Instant) : Step Store Nat :=
  match s.readmitAll (records.mergeSort fun a b => decide (a.id ≤ b.id)) with
  | .ok t => { answer := .ok (t.generation - s.generation), state := t.enforce now }
  | .error t => { answer := .error .idsExhausted, state := t }

/-- Makes all later ids greater than a given one. -/
def resumeAfter (s : Store) (id : Nat) : Step Store Unit :=
  if id < s.nextId then { answer := .ok (), state := s }
  else if id = lastId then { answer := .error .idsExhausted, state := s }
  else { answer := .ok (), state := { s with nextId := id + 1 } }

/-- Drops the records at the front that are too old, and says how many. -/
def evictExpired (s : Store) (now : Instant) : Nat × Store :=
  if s.retention.maxAge.isNone then (0, s) else (s.surplus now, s.enforce now)

end Store

end OrderTelemetry
