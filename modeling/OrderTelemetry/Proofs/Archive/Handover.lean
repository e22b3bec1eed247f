import OrderTelemetry.Proofs.Archive.Schedule

/-! # From the queue into the archive

Whatever the order of the steps, a record that the queue takes is handed to the archive once, unless
the writer goes down before that.  No record is lost between the queue and the batches, and a batch
that the archive refuses is the only one that it does not keep.

* `Attempt.kept`: the records of the batches that the archive kept.
* `Archive.Grown`: the archive has what these records make of it, and nothing else.
* `Spool.Balanced`: at every time the records taken are those of all batches so far, those of the
  batch in hand and those in the queue, in this order.
* `Spool.archived_once`: when the writer has stopped, the batches are the records taken. -/

namespace OrderTelemetry

namespace Attempt

/-- The records of the batches that were kept. -/
def kept (attempts : List Attempt) : List Record :=
  (attempts.filter fun a => a.outcome = .done).flatMap batch

theorem kept_append (a b : List Attempt) : kept (a ++ b) = kept a ++ kept b := by
  unfold kept
  rw [List.filter_append, List.flatMap_append]

theorem kept_done (batch : List Record) : kept [⟨batch, .done⟩] = batch := by simp [kept]

theorem kept_failed (batch : List Record) (f : Fault) : kept [⟨batch, .failed f⟩] = [] := rfl

end Attempt

namespace Phase

/-- The records that a writer has in hand. -/
def batch : Phase → List Record
  | filling batch => batch
  | persisting batch => batch
  | _ => []

/-- A writer that has a batch in hand has one that is neither empty nor too large. -/
def Within (size : Nat) : Phase → Prop
  | filling batch => 0 < batch.length ∧ batch.length ≤ size
  | persisting batch => 0 < batch.length ∧ batch.length ≤ size
  | _ => True

end Phase

namespace Spool

/-! ### What is taken and what is handed over -/

/-- The records taken are those of the batches handed over, those in hand and those in the queue, in
this order.  The queue and the batches keep within their bounds. -/
structure Balanced (room size : Nat) (taken : List Record) (attempts : List Attempt) (s : Spool) :
    Prop where
  capacity : s.queue.capacity = room
  batchSize : s.writer.batchSize = size
  order : taken = attempts.flatMap Attempt.batch ++ s.writer.phase.batch ++ s.queue.pending
  pending : s.queue.pending.length ≤ room
  inHand : s.writer.phase.Within size
  handed : ∀ a ∈ attempts, 0 < a.batch.length ∧ a.batch.length ≤ size
  stopped : s.writer.phase = .stopped → s.queue.pending = [] ∧ s.queue.stopped = true

namespace Balanced

variable {room size : Nat} {taken : List Record} {attempts : List Attempt} {s t : Spool}

theorem start (capacity batchSize : Nat) (archive : Archive) :
    Balanced (max 1 capacity) (max 1 batchSize) [] [] (start capacity batchSize archive) where
  capacity := rfl
  batchSize := rfl
  order := rfl
  pending := Nat.zero_le _
  inHand := trivial
  handed := by simp
  stopped := by intro h; cases h

/-- What the writer takes leaves the queue within its bound. -/
theorem rest_le (h : Balanced room size taken attempts s) {r : Record} {rest : List Record}
    (hqueue : s.queue.pending = r :: rest) : rest.length ≤ room := by
  have hpending := h.pending
  rw [hqueue, List.length_cons] at hpending
  exact Nat.le_of_succ_le hpending

/-- The batch that the writer hands over is within its bound. -/
theorem handed_append (h : Balanced room size taken attempts s) {batch : List Record}
    (hphase : s.writer.phase = .persisting batch) (outcome : Persisted) :
    ∀ a ∈ attempts ++ [⟨batch, outcome⟩], 0 < a.batch.length ∧ a.batch.length ≤ size := by
  have hinHand := h.inHand
  rw [hphase] at hinHand
  intro a ha
  rcases List.mem_append.mp ha with ha | ha
  · exact h.handed a ha
  · rw [List.mem_singleton] at ha
    rw [ha]
    exact hinHand

/-- One step of the writer. -/
theorem step {made : List Attempt} (h : Balanced room size taken attempts s)
    (hstep : Step s made t) : Balanced room size taken (attempts ++ made) t := by
  have horder := h.order
  have hinHand := h.inHand
  cases hstep with
  | receive r rest hphase hqueue =>
    rw [hphase, hqueue] at horder
    refine ⟨h.capacity, h.batchSize, ?_, h.rest_le hqueue, ?_, by simpa using h.handed, ?_⟩
    · simpa [Phase.batch, entering, leaving] using horder
    · exact ⟨Nat.one_pos, h.batchSize ▸ s.writer.batchSize_pos⟩
    · intro hstopped; cases hstopped
  | fill batch r rest hphase hqueue hroom =>
    rw [hphase, hqueue] at horder
    rw [h.batchSize] at hroom
    refine ⟨h.capacity, h.batchSize, ?_, h.rest_le hqueue, ?_, by simpa using h.handed, ?_⟩
    · simpa [Phase.batch, entering, leaving] using horder
    · show 0 < (batch ++ [r]).length ∧ (batch ++ [r]).length ≤ size
      rw [List.length_append, List.length_singleton]
      omega
    · intro hstopped; cases hstopped
  | finish batch hphase =>
    rw [hphase] at horder hinHand
    refine ⟨h.capacity, h.batchSize, ?_, h.pending, hinHand, by simpa using h.handed, ?_⟩
    · simpa [Phase.batch, entering] using horder
    · intro hstopped; cases hstopped
  | commit batch outcome archive hphase hpersist hsurvived =>
    rw [hphase] at horder
    refine ⟨h.capacity, h.batchSize, ?_, h.pending, trivial, h.handed_append hphase outcome, ?_⟩
    · simpa [Phase.batch, entering] using horder
    · intro hstopped; cases hstopped
  | crash batch cause archive hphase hpersist =>
    rw [hphase] at horder
    refine ⟨h.capacity, h.batchSize, ?_, h.pending, trivial, h.handed_append hphase _, ?_⟩
    · simpa [Phase.batch, entering, shut] using horder
    · intro hstopped; cases hstopped
  | stop hphase hqueue hclosed =>
    rw [hphase] at horder
    refine ⟨h.capacity, h.batchSize, ?_, h.pending, trivial, by simpa using h.handed, ?_⟩
    · simpa [Phase.batch, entering, shut] using horder
    · exact fun _ => ⟨hqueue, rfl⟩

/-- One move. -/
theorem move {more : List Record} {made : List Attempt} (h : Balanced room size taken attempts s)
    (hmove : Move s more made t) : Balanced room size (taken ++ more) (attempts ++ made) t := by
  cases hmove with
  | rest => simpa using h
  | take r hroom hopen =>
    refine ⟨h.capacity, h.batchSize, ?_, ?_, h.inHand, by simpa using h.handed, ?_⟩
    · rw [h.order, List.append_nil, List.append_assoc]
    · rw [h.capacity] at hroom
      rw [List.length_append, List.length_singleton]
      exact hroom
    · intro hphase
      rw [(h.stopped hphase).2] at hopen
      cases hopen
  | close =>
    rw [List.append_nil, List.append_nil]
    exact ⟨h.capacity, h.batchSize, h.order, h.pending, h.inHand, h.handed, h.stopped⟩
  | lock held =>
    rw [List.append_nil, List.append_nil]
    exact ⟨h.capacity, h.batchSize, h.order, h.pending, h.inHand, h.handed, h.stopped⟩
  | write hstep =>
    rw [List.append_nil]
    exact h.step hstep

end Balanced

end Spool

/-! ### What becomes of the batches -/

/-- What a table takes depends on its rows only. -/
theorem Database.rows_foldl_addRow {d e : Database} (h : d.rows = e.rows) (rows : List Row) :
    (rows.foldl addRow d).rows = (rows.foldl addRow e).rows := by
  induction rows generalizing d e with
  | nil => exact h
  | cons row rest ih =>
    rw [List.foldl_cons, List.foldl_cons]
    apply ih
    unfold addRow
    split_ifs
    · rw [h]
    · exact h

namespace Archive

/-- What attempts have made of an archive.  A table has the rows that it would have if the records
of the batches kept had been put into it one by one, and no others.  A script has been told every
batch. -/
def Grown (attempts : List Attempt) : Archive → Archive → Prop
  | database d, database e =>
    e.rows = (((Attempt.kept attempts).map Row.ofRecord).foldl Database.addRow d).rows
  | scripted s, scripted t =>
    t.batches.toList = s.batches.toList ++ attempts.map fun a => a.batch.map Record.id
  | _, _ => False

variable {first a b : Archive} {attempts : List Attempt}

theorem Grown.refl (a : Archive) : a.Grown [] a := by
  cases a with
  | database d => rfl
  | scripted s => simp [Grown]

theorem Grown.lock (h : first.Grown attempts a) (held : Bool) :
    first.Grown attempts (a.lock held) := by
  cases first <;> cases a <;> exact h

/-- An attempt that fails leaves the rows of a table as they are. -/
theorem Grown.persist (h : first.Grown attempts a) {batch : List Record} {outcome : Persisted}
    (hpersist : a.persist batch = (outcome, b)) :
    first.Grown (attempts ++ [⟨batch, outcome⟩]) b := by
  cases first with
  | database d =>
    cases a with
    | scripted script => exact absurd h id
    | database e =>
      have hrows : e.rows = _ := h
      rcases persist_database e batch with ⟨f, he⟩ | ⟨after, he, hafter⟩
      · rw [he] at hpersist
        cases hpersist
        show e.rows = _
        rw [Attempt.kept_append, Attempt.kept_failed, List.append_nil]
        exact hrows
      · rw [he] at hpersist
        cases hpersist
        show after.rows = _
        rw [Attempt.kept_append, Attempt.kept_done, List.map_append, List.foldl_append, hafter]
        exact Database.rows_foldl_addRow hrows _
  | scripted script =>
    cases a with
    | database e => exact absurd h id
    | scripted script' =>
      have hbatches : script'.batches.toList = _ := h
      cases hpersist
      simp [Grown, hbatches]

end Archive

namespace Spool

/-- The archive has what the attempts left in it, and none of them was fatal to a writer that is
still there. -/
structure Recorded (first : Archive) (attempts : List Attempt) (s : Spool) : Prop where
  archive : first.Grown attempts s.archive
  alive : s.writer.phase ≠ .crashed → ∀ a ∈ attempts, ∀ cause, a.outcome ≠ .crashed cause

namespace Recorded

variable {first : Archive} {attempts made : List Attempt} {s t : Spool}

/-- One step of the writer. -/
theorem step (h : Recorded first attempts s) (hstep : Step s made t) :
    Recorded first (attempts ++ made) t := by
  have halive := h.alive hstep.phase_ne_crashed
  cases hstep with
  | receive r rest hphase hqueue =>
    rw [List.append_nil]
    exact ⟨h.archive, fun _ => halive⟩
  | fill batch r rest hphase hqueue hroom =>
    rw [List.append_nil]
    exact ⟨h.archive, fun _ => halive⟩
  | finish batch hphase =>
    rw [List.append_nil]
    exact ⟨h.archive, fun _ => halive⟩
  | commit batch outcome archive hphase hpersist hsurvived =>
    refine ⟨h.archive.persist hpersist, ?_⟩
    intro _ a ha
    rcases List.mem_append.mp ha with ha | ha
    · exact halive a ha
    · rw [List.mem_singleton] at ha
      rw [ha]
      exact hsurvived
  | crash batch cause archive hphase hpersist =>
    refine ⟨h.archive.persist hpersist, ?_⟩
    intro hcrashed
    exact absurd rfl hcrashed
  | stop hphase hqueue hclosed =>
    rw [List.append_nil]
    exact ⟨h.archive, fun _ => halive⟩

/-- One move. -/
theorem move {more : List Record} (h : Recorded first attempts s) (hmove : Move s more made t) :
    Recorded first (attempts ++ made) t := by
  cases hmove with
  | rest => simpa using h
  | take r hroom hopen =>
    rw [List.append_nil]
    exact ⟨h.archive, h.alive⟩
  | close =>
    rw [List.append_nil]
    exact ⟨h.archive, h.alive⟩
  | lock held =>
    rw [List.append_nil]
    exact ⟨h.archive.lock held, h.alive⟩
  | write hstep => exact h.step hstep

end Recorded

/-! ### The whole run -/

/-- **Every record is handed over once**: under every schedule of producers and writer the queue and
the batches keep within their bounds, and once the writer has stopped, the batches are the records
that were taken, in their order.  The archive has grown by the batches that did not fail. -/
theorem archived_once (capacity batchSize : Nat) (archive : Archive) (events : List Event) :
    let s := start capacity batchSize archive
    (s.run events).queue.pending.length ≤ max 1 capacity ∧
      (∀ a ∈ s.attempts events, 1 ≤ a.batch.length ∧ a.batch.length ≤ max 1 batchSize) ∧
      ((s.run events).writer.phase = .stopped →
        (s.attempts events).flatMap Attempt.batch = s.taken events ∧
          (∀ a ∈ s.attempts events, a.outcome = .done ∨ ∃ f, a.outcome = .failed f) ∧
          archive.Grown (s.attempts events) (s.run events).archive) := by
  intro s
  have hbalanced : Balanced (max 1 capacity) (max 1 batchSize) (s.taken events)
      (s.attempts events) (s.run events) :=
    run_keeps (fun h hmove => h.move hmove) (.start capacity batchSize archive) events
  have hrecorded : Recorded archive (s.attempts events) (s.run events) :=
    run_keeps (P := fun _ => Recorded archive) (fun h hmove => h.move hmove)
      ⟨.refl archive, by simp⟩ events
  refine ⟨hbalanced.pending, hbalanced.handed, ?_⟩
  intro hstopped
  refine ⟨?_, ?_, hrecorded.archive⟩
  · have horder := hbalanced.order
    rw [hstopped, (hbalanced.stopped hstopped).1] at horder
    simpa [Phase.batch] using horder.symm
  · intro a ha
    have halive := hrecorded.alive (by rw [hstopped]; simp) a ha
    cases houtcome : a.outcome with
    | done => exact Or.inl rfl
    | failed f => exact Or.inr ⟨f, rfl⟩
    | crashed cause => exact absurd houtcome (halive cause)

/-- Four records for a queue of two and batches of two.  The third finds the queue full, the fourth
comes while the writer fills its first batch, and the table is held when the second one is due. -/
def crowded : List Event :=
  let record (id : Nat) : Record :=
    { orderId := "A", broker := "b", symbol := "S", orderType := .market, timestamp := ⟨100, 0⟩,
      latencies := ⟨1.0, 2.0, 0.5, 1.0, 0.5⟩, status := .success, error := none, id }
  [.offer (record 1), .offer (record 2), .offer (record 3), .write, .offer (record 4), .write,
    .write, .write, .lock true, .write, .close, .write, .write, .write, .lock false]

/-- The batch that fails takes no record of another one with it. -/
theorem archived_once_crowded :
    ((start 2 2 (.database (.empty 10))).run crowded).writer.phase = .stopped ∧
      ((start 2 2 (.database (.empty 10))).attempts crowded).flatMap Attempt.batch =
        (start 2 2 (.database (.empty 10))).taken crowded ∧
      ((start 2 2 (.database (.empty 10))).taken crowded).map Record.id = [1, 2, 4] ∧
      ((start 2 2 (.database (.empty 10))).run crowded).archive.maxId.toOption = some (some 2) := by
  have hstopped : ((start 2 2 (.database (.empty 10))).run crowded).writer.phase = .stopped := by
    decide +kernel
  exact ⟨hstopped, ((archived_once 2 2 (.database (.empty 10)) crowded).2.2 hstopped).1,
    by decide +kernel, by decide +kernel⟩

end Spool

end OrderTelemetry
