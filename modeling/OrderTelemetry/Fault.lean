import OrderTelemetry.Decimal.Layout

/-!
# What can go wrong

`Fault` lists the causes for which a request of the telemetry service is refused, `Fault.message`
gives their wording.  `Flaw` says what is wrong with a single field.
-/

namespace OrderTelemetry

/-- What is wrong with a field. -/
inductive Flaw where
  /-- There is nothing but blanks. -/
  | missing
  /-- A latency is infinite or no number. -/
  | notFinite
  | negative (x : Float)
  /-- An outcome is none of the known words. -/
  | unknownStatus (word : String)
  /-- A stored time is outside the calendar. -/
  | outOfRange (millis : Int)
  | negativeId (id : Int)
  /-- A flaw in other words. -/
  | stated (reason : String)
  deriving DecidableEq, Repr

/-- The wording of a flaw. -/
def Flaw.reason : Flaw → String
  | missing => "is required"
  | notFinite => "must be a finite number"
  | negative x => "must be non-negative, got " ++ Decimal.plain x
  | unknownStatus word => "must be SUCCESS or FAILURE, got '" ++ word ++ "'"
  | outOfRange millis => "out of range: " ++ toString millis
  | negativeId id => "negative id " ++ toString id
  | stated reason => reason

/-- Why an operation of the service failed. -/
inductive Fault where
  /-- A field of a record is not as it must be. -/
  | validation (field : String) (flaw : Flaw)
  /-- The archive cannot be used. -/
  | unavailable (cause : String)
  /-- The archive took too long. -/
  | timeout (operation : String) (millis : Nat)
  | config (reason : String)
  | exporting (reason : String)
  /-- A server could not be reached or its answer not be read. -/
  | http (cause : String)
  /-- A server refused the request. -/
  | api (status : Nat) (message : String)
  | io (cause : String)
  deriving DecidableEq, Repr

namespace Fault

/-- The wording of a fault. -/
def message : Fault → String
  | validation field flaw => "Validation failed: " ++ field ++ " " ++ flaw.reason
  | unavailable cause => "Storage backend unavailable: " ++ cause
  | timeout operation millis =>
    "Storage operation '" ++ operation ++ "' timed out after " ++ millis.repr ++ "ms"
  | config reason => "Config error: " ++ reason
  | exporting reason => "Export error: " ++ reason
  | http cause => "HTTP error: " ++ cause
  | api status message => "API error " ++ status.repr ++ ": " ++ message
  | io cause => "IO error: " ++ cause

/-- Whether the fault lies with the archive rather than with the caller. -/
def isBackend : Fault → Bool
  | unavailable _ => true
  | timeout _ _ => true
  | _ => false

end Fault

/-- Why an operation on the store failed. -/
inductive Failure where
  | fault (f : Fault)
  /-- No id is left for another record. -/
  | idsExhausted
  /-- A time that is needed lies outside the calendar. -/
  | beyondCalendar
  deriving DecidableEq, Repr

end OrderTelemetry
