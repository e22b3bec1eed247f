import OrderTelemetry.Archive.Basic

/-!
# The sweep

From time to time the server drops the records that have become too old, from its store and from its
archive.
-/

namespace OrderTelemetry.Server

/-- What a sweep works on. -/
structure Swept where
  store : Store
  archive : Option Archive

/-- The instant a number of days earlier. -/
def daysBefore (now : Instant) (days : Nat) : Option Instant :=
  now.minus? (.ofDays days)

/-- Drops the rows of an archive that are older than a number of days. -/
def purge (archive : Archive) (days : Nat) (now : Instant) : Step Archive Unit :=
  match daysBefore now days with
  | none => { answer := .error .beyondCalendar, state := archive }
  | some cutoff => match archive.purgeBefore cutoff with
    | .error f => { answer := .ok (), state := archive, notices := [.purgeFailed f] }
    | .ok (n, archive) =>
      { answer := .ok (), state := archive, notices := if n = 0 then [] else [.purged n] }

/-- One sweep.  Without a number of days the archive keeps everything. -/
def sweep (purgeAfterDays : Option Nat) (s : Swept) (now : Instant) : Step Swept Unit :=
  let (n, store) := s.store.evictExpired now
  let expired := if n = 0 then [] else [.expired n]
  match s.archive, purgeAfterDays with
  | some archive, some days =>
    let step := purge archive days now
    { answer := step.answer
      state := ⟨store, some step.state⟩
      notices := expired ++ step.notices }
  | archive, _ => { answer := .ok (), state := ⟨store, archive⟩, notices := expired }

end OrderTelemetry.Server
