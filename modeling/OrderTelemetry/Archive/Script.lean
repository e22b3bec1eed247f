import OrderTelemetry.Record

/-!
# A scripted archive

An archive that keeps nothing and answers from a script.  It shows how the rest of the service
behaves when an archive fails.
-/

namespace OrderTelemetry

/-- How an attempt to keep a batch of records ends. -/
inductive Outcome where
  | kept
  | failed
  /-- The writer goes down with the attempt. -/
  | crashed
  deriving DecidableEq, Repr

/-- The answers of a scripted archive, where none is a failure. -/
structure Script where
  maxId : Option (Option Nat)
  recent : Option (List Record)
  /-- The outcomes of the next attempts.  All further attempts succeed. -/
  outcomes : List Outcome
  /-- The ids of the batches that have been handed over. -/
  batches : Array (List Nat)
  deriving DecidableEq, Repr

namespace Script

/-- The fault of an operation that the script lets fail. -/
def fault (operation : String) : Fault := .timeout operation 10

/-- The answer to a question, or the fault if it has none. -/
def answer {α : Type} (operation : String) : Option α → Except Fault α
  | some a => .ok a
  | none => .error (fault operation)

/-- Hands over a batch of records. -/
def persist (s : Script) (records : List Record) : Outcome × Script :=
  (s.outcomes.headD .kept,
   { s with outcomes := s.outcomes.tail, batches := s.batches.push (records.map Record.id) })

end Script

end OrderTelemetry
