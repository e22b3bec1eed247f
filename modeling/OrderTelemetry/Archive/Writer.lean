import OrderTelemetry.Archive.Basic
import OrderTelemetry.Archive.Queue

/-!
# The archive writer

The writer drains the queue into an archive in batches.  It waits for a first record, takes further
ones as long as there are any and the batch is not full, and hands the batch to the archive, which
may take its time.  A batch that the archive refuses is lost; the next one is tried again.  Once
nobody can put in records any more and the queue is empty, the writer stops.

`Spool.write` is one step of the writer.  What producers do between the steps is up to them, so
every schedule is a list of calls of `Spool.offer` and `Spool.write`; `Spool.drain` lets the writer
run alone until it stops or has to wait.
-/

namespace OrderTelemetry

/-- Where the writer stands. -/
inductive Phase where
  | waiting
  /-- It fills a batch that has a first record. -/
  | filling (batch : List Record)
  /-- It takes no more records into a batch and waits for the archive to take the batch. -/
  | persisting (batch : List Record)
  | stopped
  | crashed
  deriving DecidableEq, Repr

/-- The writer of an archive queue. -/
structure Writer where
  batchSize : Nat
  batchSize_pos : 0 < batchSize
  phase : Phase

/-- A writer that fills batches of some size, of at least one. -/
def Writer.ofBatchSize (n : Nat) : Writer := ⟨max 1 n, Queue.max_one_pos n, .waiting⟩

/-- A queue with its writer and the archive that the writer fills. -/
structure Spool where
  queue : Queue
  writer : Writer
  archive : Archive
  /-- Nobody can put in records any more. -/
  closed : Bool

namespace Spool

/-- Puts a record into the queue and says whether that was possible. -/
def offer (s : Spool) (r : Record) : Bool × Spool × List Notice :=
  let (taken, queue, notices) := s.queue.enqueue r
  (taken, { s with queue }, notices)

/-- The spool with its writer in another phase. -/
def entering (s : Spool) (phase : Phase) : Spool := { s with writer := { s.writer with phase } }

/-- The spool without the records that the writer has taken. -/
def leaving (s : Spool) (rest : List Record) : Spool :=
  { s with queue := { s.queue with pending := rest } }

/-- The spool once its queue takes no more records. -/
def shut (s : Spool) : Spool := { s with queue := { s.queue with stopped := true } }

/-- Hands a batch to the archive. -/
def commit (s : Spool) (batch : List Record) : Spool × List Notice :=
  let (persisted, archive) := s.archive.persist batch
  let s := { s with archive }
  match persisted with
  | .done => (s.entering .waiting, [.batchArchived batch.length])
  | .failed f => (s.entering .waiting, [.batchLost batch.length f])
  | .crashed _ => ((s.entering .crashed).shut, [])

/-- One step of the writer, `none` if it has to wait or is no longer there. -/
def write (s : Spool) : Option (Spool × List Notice) :=
  match s.writer.phase, s.queue.pending with
  | .waiting, r :: rest => some ((s.leaving rest).entering (.filling [r]), [])
  | .waiting, [] =>
    if s.closed then some ((s.entering .stopped).shut, [.writerStopped]) else none
  | .filling batch, [] => some (s.entering (.persisting batch), [])
  | .filling batch, r :: rest =>
    if batch.length < s.writer.batchSize then
      some ((s.leaving rest).entering (.filling (batch ++ [r])), [])
    else some (s.entering (.persisting batch), [])
  | .persisting batch, _ => some (s.commit batch)
  | .stopped, _ => none
  | .crashed, _ => none

/-- Steps of the writer alone, up to a number of them. -/
def writeFor : Nat → Spool → Spool × List Notice
  | 0, s => (s, [])
  | n + 1, s => match s.write with
    | none => (s, [])
    | some (next, notices) =>
      let (last, more) := writeFor n next
      (last, notices ++ more)

/-- Lets the writer run until it stops or has to wait.  It takes every waiting record once, and a
batch costs it two more steps. -/
def drain (s : Spool) : Spool × List Notice := writeFor (3 * s.queue.pending.length + 3) s

/-- Lets the writer finish once the gateway has let go of the queue, and says whether it did.  If
someone else still holds the queue the writer waits for more and the time runs out. -/
def flush (s : Spool) (held : Bool) : Bool × Spool × List Notice :=
  let (last, notices) := ({ s with closed := !held } : Spool).drain
  match last.writer.phase with
  | .stopped => (true, last, notices)
  | .crashed => (false, last, notices ++ [.writerCrashed "the writer crashed"])
  | _ => (false, last, notices ++ [.flushTimedOut])

end Spool

end OrderTelemetry
