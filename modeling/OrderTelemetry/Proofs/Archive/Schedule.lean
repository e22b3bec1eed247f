import Mathlib.Data.List.Basic
import OrderTelemetry.Archive.Writer

/-! # Schedules of the archive writer

Producers and the writer of a spool take turns in any order.  A schedule is a list of events: a
record is offered, the writer makes a step, nobody can offer records any more, another program takes
hold of the archive's table or lets go of it.

* `Spool.run`, `Spool.taken`, `Spool.attempts`: the spool after a schedule, the records that the
  schedule puts into the queue, and the batches that it hands to the archive, each with what became
  of it.
* `Spool.Step`, `Spool.Move`: the steps of the writer, and the moves that events come down to.
* `Spool.run_keeps`: what every move keeps holds after a schedule.
* `Spool.drain_stops`: once nobody can offer records, the writer comes to an end. -/

namespace OrderTelemetry

/-! ### Archives that others use, too -/

/-- An attempt to persist a batch takes the rows of all its records or fails. -/
theorem Database.persist_cases (d : Database) (batch : List Record) :
    (∃ f, d.persist batch = .error f) ∨
      d.persist batch = .ok ((batch.map Row.ofRecord).foldl addRow d) := by
  unfold persist guarded
  by_cases hempty : batch.isEmpty = true
  · refine Or.inr ?_
    rw [if_pos hempty, List.isEmpty_iff.mp hempty]
    rfl
  · rw [if_neg hempty]
    cases d.obstacle? "persist" with
    | some f => exact Or.inl ⟨f, rfl⟩
    | none => exact Or.inr rfl

namespace Archive

/-- The archive while another program holds its table or does not. -/
def lock (a : Archive) (held : Bool) : Archive :=
  match a with
  | database d => .database { d with locked := held }
  | scripted s => .scripted s

/-- The writer will not go down with an attempt. -/
def Steady : Archive → Prop
  | database _ => True
  | scripted s => .crashed ∉ s.outcomes

/-- A table takes all rows of a batch or stays as it is. -/
theorem persist_database (d : Database) (batch : List Record) :
    (∃ f, (database d).persist batch = (.failed f, database d)) ∨
      ∃ e, (database d).persist batch = (.done, database e) ∧
        e.rows = ((batch.map Row.ofRecord).foldl Database.addRow d).rows := by
  unfold Archive.persist
  dsimp only
  rcases d.persist_cases batch with ⟨f, hfailed⟩ | hdone
  · exact Or.inl ⟨f, by rw [hfailed]⟩
  · exact Or.inr ⟨_, by rw [hdone], rfl⟩

/-- An archive that spares the writer goes on doing so. -/
theorem Steady.persist {a b : Archive} (h : a.Steady) {batch : List Record} {outcome : Persisted}
    (hpersist : a.persist batch = (outcome, b)) :
    b.Steady ∧ ∀ cause, outcome ≠ .crashed cause := by
  cases a with
  | database d =>
    rcases persist_database d batch with ⟨f, hd⟩ | ⟨after, hd, -⟩
    · rw [hd] at hpersist
      cases hpersist
      exact ⟨trivial, by intro cause h; cases h⟩
    · rw [hd] at hpersist
      cases hpersist
      exact ⟨trivial, by intro cause h; cases h⟩
  | scripted script =>
    cases hpersist
    have hsteady : .crashed ∉ script.outcomes := h
    refine ⟨fun hmem => hsteady (List.mem_of_mem_tail hmem), ?_⟩
    intro cause
    cases houtcomes : script.outcomes with
    | nil => simp
    | cons outcome rest =>
      rw [houtcomes] at hsteady
      cases outcome with
      | kept => simp
      | failed => simp
      | crashed => exact absurd List.mem_cons_self hsteady

end Archive

/-- An attempt to keep a batch of records. -/
structure Attempt where
  batch : List Record
  outcome : Persisted
  deriving DecidableEq

namespace Spool

/-! ### Schedules -/

/-- What may happen to a spool. -/
inductive Event where
  | offer (r : Record)
  | write
  /-- The last one who could put in records lets go of the queue. -/
  | close
  /-- Another program takes hold of the archive's table or lets go of it. -/
  | lock (held : Bool)

/-- A spool with an empty queue. -/
def start (capacity batchSize : Nat) (archive : Archive) : Spool :=
  ⟨.ofCapacity capacity, .ofBatchSize batchSize, archive, false⟩

/-- The spool after an event.  A writer that has to wait stays as it is. -/
def next (s : Spool) : Event → Spool
  | .offer r => (s.offer r).2.1
  | .write =>
    match s.write with
    | some (t, _) => t
    | none => s
  | .close => { s with closed := true }
  | .lock held => { s with archive := s.archive.lock held }

/-- The record that an event puts into the queue, if it does. -/
def takenBy (s : Spool) : Event → List Record
  | .offer r => if (s.offer r).1 then [r] else []
  | _ => []

/-- The attempt that an event makes, if it does. -/
def attemptsBy (s : Spool) : Event → List Attempt
  | .write =>
    match s.writer.phase with
    | .persisting batch => [⟨batch, (s.archive.persist batch).1⟩]
    | _ => []
  | _ => []

/-- The spool after some events. -/
def run (s : Spool) (events : List Event) : Spool := events.foldl next s

/-- The records that some events put into the queue, in their order. -/
def taken (s : Spool) : List Event → List Record
  | [] => []
  | e :: rest => s.takenBy e ++ (s.next e).taken rest

/-- The attempts that some events make, in their order. -/
def attempts (s : Spool) : List Event → List Attempt
  | [] => []
  | e :: rest => s.attemptsBy e ++ (s.next e).attempts rest

/-! ### Moves -/

/-- The steps of a writer, with the attempts that they make. -/
inductive Step (s : Spool) : List Attempt → Spool → Prop
  | receive (r : Record) (rest : List Record) : s.writer.phase = .waiting →
      s.queue.pending = r :: rest → Step s [] ((s.leaving rest).entering (.filling [r]))
  | fill (batch : List Record) (r : Record) (rest : List Record) :
      s.writer.phase = .filling batch → s.queue.pending = r :: rest →
      batch.length < s.writer.batchSize →
      Step s [] ((s.leaving rest).entering (.filling (batch ++ [r])))
  | finish (batch : List Record) : s.writer.phase = .filling batch →
      Step s [] (s.entering (.persisting batch))
  | commit (batch : List Record) (outcome : Persisted) (archive : Archive) :
      s.writer.phase = .persisting batch → s.archive.persist batch = (outcome, archive) →
      (∀ cause, outcome ≠ .crashed cause) →
      Step s [⟨batch, outcome⟩] (({ s with archive } : Spool).entering .waiting)
  | crash (batch : List Record) (cause : String) (archive : Archive) :
      s.writer.phase = .persisting batch → s.archive.persist batch = (.crashed cause, archive) →
      Step s [⟨batch, .crashed cause⟩] (({ s with archive } : Spool).entering .crashed).shut
  | stop : s.writer.phase = .waiting → s.queue.pending = [] → s.closed = true →
      Step s [] (s.entering .stopped).shut

/-- The moves of a spool, with the records that they put into the queue and the attempts that they
make. -/
inductive Move (s : Spool) : List Record → List Attempt → Spool → Prop
  | rest : Move s [] [] s
  | take (r : Record) : s.queue.pending.length < s.queue.capacity → s.queue.stopped = false →
      Move s [r] [] { s with queue := { s.queue with pending := s.queue.pending ++ [r] } }
  | close : Move s [] [] { s with closed := true }
  | lock (held : Bool) : Move s [] [] { s with archive := s.archive.lock held }
  | write {made : List Attempt} {t : Spool} : Step s made t → Move s [] made t

theorem step_of_write {s t : Spool} {notices : List Notice} (h : s.write = some (t, notices)) :
    Step s (s.attemptsBy .write) t := by
  unfold write at h
  unfold attemptsBy
  cases hphase : s.writer.phase with
  | waiting =>
    cases hpending : s.queue.pending with
    | nil =>
      simp only [hphase, hpending] at h
      split_ifs at h with hclosed
      cases h
      exact .stop hphase hpending hclosed
    | cons r rest =>
      simp only [hphase, hpending] at h
      cases h
      exact .receive r rest hphase hpending
  | filling batch =>
    cases hpending : s.queue.pending with
    | nil =>
      simp only [hphase, hpending] at h
      cases h
      exact .finish batch hphase
    | cons r rest =>
      simp only [hphase, hpending] at h
      split_ifs at h with hroom
      · cases h
        exact .fill batch r rest hphase hpending hroom
      · cases h
        exact .finish batch hphase
  | persisting batch =>
    simp only [hphase] at h
    have ht : (s.commit batch).1 = t := congrArg Prod.fst (Option.some.inj h)
    rw [← ht]
    rcases hpersist : s.archive.persist batch with ⟨outcome, archive⟩
    unfold commit
    simp only [hpersist]
    cases outcome with
    | done => exact .commit batch .done archive hphase hpersist (by intro cause h; cases h)
    | failed f =>
      exact .commit batch (.failed f) archive hphase hpersist (by intro cause h; cases h)
    | crashed cause => exact .crash batch cause archive hphase hpersist
  | stopped => simp [hphase] at h
  | crashed => simp [hphase] at h

/-- A writer that has gone down makes no step. -/
theorem Step.phase_ne_crashed {s t : Spool} {made : List Attempt} (h : Step s made t) :
    s.writer.phase ≠ .crashed := by
  intro hcrashed
  cases h <;> simp_all

/-- When the writer has nothing to do. -/
theorem phase_of_write_eq_none {s : Spool} (h : s.write = none) :
    (s.writer.phase = .waiting ∧ s.closed = false) ∨ s.writer.phase = .stopped ∨
      s.writer.phase = .crashed := by
  unfold write at h
  cases hphase : s.writer.phase with
  | waiting =>
    cases hpending : s.queue.pending with
    | nil => exact Or.inl ⟨rfl, by simpa [hphase, hpending] using h⟩
    | cons r rest => simp [hphase, hpending] at h
  | filling batch =>
    cases hpending : s.queue.pending with
    | nil => simp [hphase, hpending] at h
    | cons r rest =>
      simp only [hphase, hpending] at h
      split_ifs at h
  | persisting batch => simp [hphase] at h
  | stopped => exact Or.inr (Or.inl rfl)
  | crashed => exact Or.inr (Or.inr rfl)

theorem attemptsBy_of_write_eq_none {s : Spool} (h : s.write = none) :
    s.attemptsBy .write = [] := by
  unfold attemptsBy
  rcases phase_of_write_eq_none h with ⟨hphase, -⟩ | hphase | hphase <;> rw [hphase]

/-- Every event is a move. -/
theorem next_move (s : Spool) (e : Event) : Move s (s.takenBy e) (s.attemptsBy e) (s.next e) := by
  cases e with
  | offer r =>
    unfold takenBy next offer Queue.enqueue attemptsBy
    by_cases hstopped : s.queue.stopped = true
    · simp only [hstopped, if_true]
      exact .rest
    · by_cases hfull : s.queue.capacity ≤ s.queue.pending.length
      · simp only [if_neg hstopped, if_pos hfull]
        exact .rest
      · simp only [if_neg hstopped, if_neg hfull]
        exact .take r (by omega) (by simpa using hstopped)
  | write =>
    unfold next takenBy
    cases hwrite : s.write with
    | none =>
      rw [attemptsBy_of_write_eq_none hwrite]
      exact .rest
    | some step => exact .write (step_of_write hwrite)
  | close => exact .close
  | lock held => exact .lock held

/-- What every move keeps holds after a run. -/
theorem run_keeps {P : List Record → List Attempt → Spool → Prop}
    (hmove : ∀ {taken more attempts made s t}, P taken attempts s → Move s more made t →
      P (taken ++ more) (attempts ++ made) t)
    {s : Spool} (h : P [] [] s) (events : List Event) :
    P (s.taken events) (s.attempts events) (s.run events) := by
  suffices hgeneral : ∀ taken attempts, P taken attempts s →
      P (taken ++ s.taken events) (attempts ++ s.attempts events) (s.run events) from
    hgeneral [] [] h
  clear h
  induction events generalizing s with
  | nil =>
    intro taken attempts h
    simpa [Spool.taken, Spool.attempts, run] using h
  | cons e rest ih =>
    intro taken attempts h
    have h := ih _ _ (hmove h (s.next_move e))
    simpa [Spool.taken, Spool.attempts, run] using h

/-! ### The end of the writer -/

/-- A number of steps after which the writer has stopped or waits. -/
def effort (s : Spool) : Nat :=
  match s.writer.phase with
  | .waiting => 3 * s.queue.pending.length + 1
  | .filling _ => 3 * s.queue.pending.length + 3
  | .persisting _ => 3 * s.queue.pending.length + 2
  | _ => 0

theorem effort_le (s : Spool) : s.effort ≤ 3 * s.queue.pending.length + 3 := by
  unfold effort
  cases s.writer.phase <;> dsimp only <;> omega

/-- Every step brings the writer closer to its end. -/
theorem Step.effort_lt {s t : Spool} {made : List Attempt} (h : Step s made t) :
    t.effort < s.effort := by
  cases h with
  | receive r rest hphase hqueue =>
    simp only [effort, hphase, hqueue, entering, leaving, List.length_cons]
    omega
  | fill batch r rest hphase hqueue hroom =>
    simp only [effort, hphase, hqueue, entering, leaving, List.length_cons]
    omega
  | finish batch hphase => simp [effort, hphase, entering]
  | commit batch outcome archive hphase hpersist hsurvived => simp [effort, hphase, entering]
  | crash batch cause archive hphase hpersist => simp [effort, hphase, entering, shut]
  | stop hphase hqueue hclosed => simp [effort, hphase, entering, shut]

/-- A writer that nobody gives records any more, with an archive that it survives. -/
structure Ending (s : Spool) : Prop where
  closed : s.closed = true
  steady : s.archive.Steady
  alive : s.writer.phase ≠ .crashed

theorem Ending.step {s t : Spool} {made : List Attempt} (h : s.Ending) (hstep : Step s made t) :
    t.Ending := by
  cases hstep with
  | receive r rest hphase hqueue => exact ⟨h.closed, h.steady, by simp [entering]⟩
  | fill batch r rest hphase hqueue hroom => exact ⟨h.closed, h.steady, by simp [entering]⟩
  | finish batch hphase => exact ⟨h.closed, h.steady, by simp [entering]⟩
  | commit batch outcome archive hphase hpersist hsurvived =>
    exact ⟨h.closed, (Archive.Steady.persist h.steady hpersist).1, by simp [entering]⟩
  | crash batch cause archive hphase hpersist =>
    exact absurd rfl ((Archive.Steady.persist h.steady hpersist).2 cause)
  | stop hphase hqueue hclosed => exact ⟨h.closed, h.steady, by simp [entering, shut]⟩

theorem writeFor_stops {s : Spool} (h : s.Ending) {n : Nat} (hn : s.effort ≤ n) :
    (writeFor n s).1.writer.phase = .stopped := by
  induction n generalizing s with
  | zero =>
    show s.writer.phase = .stopped
    cases hphase : s.writer.phase with
    | stopped => rfl
    | crashed => exact absurd hphase h.alive
    | waiting => simp [effort, hphase] at hn
    | filling batch => simp [effort, hphase] at hn
    | persisting batch => simp [effort, hphase] at hn
  | succ n ih =>
    unfold writeFor
    cases hwrite : s.write with
    | none =>
      rcases phase_of_write_eq_none hwrite with ⟨-, hopen⟩ | hstopped | hcrashed
      · rw [h.closed] at hopen
        cases hopen
      · exact hstopped
      · exact absurd hcrashed h.alive
    | some step =>
      have hstep := step_of_write hwrite
      have hless := hstep.effort_lt
      exact ih (h.step hstep) (by omega)

/-- **The writer stops** once nobody can give it records any more, unless the archive takes it
down. -/
theorem drain_stops {s : Spool} (h : s.Ending) : s.drain.1.writer.phase = .stopped :=
  writeFor_stops h s.effort_le

end Spool

end OrderTelemetry
