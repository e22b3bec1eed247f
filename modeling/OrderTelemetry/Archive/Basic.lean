import OrderTelemetry.Archive.Database
import OrderTelemetry.Archive.Script
import OrderTelemetry.Store.Basic

/-!
# Archives

An archive keeps records beyond the window of the store: it takes batches of records, gives the
newest ones back, forgets old ones, and knows the highest id it has.  `Store.restoreFrom` fills a
new store from an archive before the first record is accepted.
-/

namespace OrderTelemetry

/-- An archive. -/
inductive Archive where
  | database (d : Database)
  | scripted (s : Script)

/-- How the attempt to keep a batch ended. -/
inductive Persisted where
  | done
  | failed (fault : Fault)
  | crashed (cause : String)
  deriving DecidableEq, Repr

namespace Archive

/-- Hands a batch of records to the archive. -/
def persist (a : Archive) (records : List Record) : Persisted × Archive :=
  match a with
  | database d => match d.persist records with
    | .ok d => (.done, .database d)
    | .error f => (.failed f, a)
  | scripted s =>
    let (outcome, s) := s.persist records
    (match outcome with
      | .kept => .done
      | .failed => .failed (Script.fault "persist")
      | .crashed => .crashed "the scripted attempt crashed",
     .scripted s)

/-- The newest records up to a number, oldest first, with a notice for every row that is none. -/
def loadRecent (a : Archive) (limit : Nat) : Except Fault (List Record × List Notice) :=
  match a with
  | database d => (d.loadRecent limit).map fun found =>
    (found.filterMap Except.toOption,
     found.filterMap fun r => match r with
      | .ok _ => none
      | .error f => some (.rowUnreadable f))
  | scripted s => (Script.answer "load_recent" s.recent).map fun records => (records, [])

/-- Forgets what is older than an instant and says how much that was. -/
def purgeBefore (a : Archive) (cutoff : Instant) : Except Fault (Nat × Archive) :=
  match a with
  | database d => (d.purgeBefore cutoff).map fun (n, d) => (n, .database d)
  | scripted _ => .error (Script.fault "purge")

/-- The highest id that the archive has. -/
def maxId (a : Archive) : Except Fault (Option Nat) :=
  match a with
  | database d => d.maxId
  | scripted s => Script.answer "max_id" s.maxId

/-- The number of rows.  A scripted archive has none. -/
def count (a : Archive) : Except Fault Nat :=
  match a with
  | database d => d.count
  | scripted _ => .ok 0

end Archive

/-- Fills a store from an archive and answers how many records it took.  Later ids are greater than
all ids of the archive, even if the records themselves cannot be loaded.  Without a known highest id
the store stays as it is. -/
def Store.restoreFrom (s : Store) (a : Archive) (limit : Nat) (now : Instant) : Step Store Nat :=
  match a.maxId with
  | .error f => { answer := .error (.fault f), state := s }
  | .ok highest =>
    let loaded : Step Store Nat := match a.loadRecent limit with
      | .error f => { answer := .ok 0, state := s, notices := [.restoreFailed f] }
      | .ok (records, unreadable) =>
        { s.restore records now with notices := unreadable }
    match loaded.answer, highest with
    | .ok n, some id =>
      let resumed := loaded.state.resumeAfter id
      { resumed with answer := resumed.answer.map fun _ => n, notices := loaded.notices }
    | _, _ => loaded

end OrderTelemetry
