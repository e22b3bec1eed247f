import Mathlib.Data.List.Perm.Basic
import Mathlib.Logic.Relation
import OrderTelemetry.Proofs.Archive.Schedule
import OrderTelemetry.Proofs.Archive.Table
import OrderTelemetry.Proofs.Server.Idle

/-! # One archive, many runs

A server runs over an archive, stops at any time and starts again.  Each run fills a new store from
the archive, which may hold less of it than there is: the window may be small, rows may not be
readable, rows may have been purged, and records of the last run may never have been persisted.  The
new store goes on with ids above all rows all the same.

* `Site`, `Site.Move`: the archive's table with the store of the present run, and what may happen.
* `Site.Sound`: the records that wait to be persisted have ids of their own, whatever happens.
* `Site.new_rows_after_restarts`: so each of them becomes a new row. -/

namespace OrderTelemetry

/-- What an archive tells about the highest id is true of a table.  It may tell nothing, and what it
gives back of the rows does not matter. -/
def Archive.Tells (a : Archive) (d : Database) : Prop :=
  ∀ highest, a.maxId = .ok highest → highest = d.rows.getLast?.map fun row => row.id.toNat

/-- The records that a call inserts into a store. -/
def Store.insertedBy (s : Store) : Call → List Record
  | .insert d now => s.pushed (.insert d now)
  | _ => []

/-- An archive's table, and a server that runs over it. -/
structure Site where
  table : Database
  store : Store
  /-- The records that the run has inserted and not handed to the archive yet. -/
  fresh : List Record
  /-- The run could read the highest id, so it may write. -/
  writes : Bool

namespace Site

/-- A table over which no server runs. -/
def idle (d : Database) (p : Retention) : Site := ⟨d, .empty p, [], false⟩

/-- The site with a new run, which has not inserted anything. -/
def restarted (s : Site) (p : Retention) (a : Archive) (limit : Nat) (now : Instant) : Site :=
  let step := (Store.empty p).restoreFrom a limit now
  { table := s.table, store := step.state, fresh := [], writes := step.answer.isOk }

/-- The site after a call of its store. -/
def called (s : Site) (c : Call) : Site :=
  { s with store := s.store.after c, fresh := s.fresh ++ s.store.insertedBy c }

/-- What may happen at a site. -/
inductive Move : Site → Site → Prop
  /-- A new run begins and asks the archive, which may fail to answer. -/
  | restart {s : Site} (p : Retention) (a : Archive) (limit : Nat) (now : Instant) :
      a.Tells s.table → Move s (s.restarted p a limit now)
  /-- Records come and go in the store. -/
  | call {s : Site} (c : Call) : Move s (s.called c)
  /-- Some of the records are handed to the archive, which may fail to take them. -/
  | persist {s : Site} (batch rest : List Record) (outcome : Persisted) (d : Database) :
      s.writes = true → s.fresh.Perm (batch ++ rest) → (∀ r ∈ batch, r.id < Row.idBound) →
      (Archive.database s.table).persist batch = (outcome, .database d) →
      Move s { s with table := d, fresh := rest }
  /-- Old rows are removed, by a run or between two runs. -/
  | purge {s : Site} (cutoff : Instant) (n : Nat) (d : Database) :
      (Archive.database s.table).purgeBefore cutoff = .ok (n, .database d) →
      Move s { s with table := d }
  /-- Another program takes hold of the table or lets go of it. -/
  | lock {s : Site} (held : Bool) : Move s { s with table := { s.table with locked := held } }

/-- One move after the other. -/
abbrev Moves : Site → Site → Prop := Relation.ReflTransGen Move

/-- The ids of a site are apart: those of the rows, and those of the records that are to become
rows.  All of them are below the next one. -/
structure Sound (s : Site) : Prop where
  ordered : s.table.Ordered
  nonneg : ∀ row ∈ s.table.rows, 0 ≤ row.id
  passed : s.writes = true → ∀ row ∈ s.table.rows, row.id < s.store.nextId
  distinct : s.fresh.Pairwise fun a b => a.id ≠ b.id
  below : ∀ r ∈ s.fresh, r.id < s.store.nextId
  free : s.writes = true → ∀ r ∈ s.fresh, ∀ row ∈ s.table.rows, row.id ≠ r.id
  finite : ∀ r ∈ s.fresh, ∀ x ∈ r.latencies.values, x.isFinite = true

end Site

/-! ### Beginning a run -/

theorem Archive.tells_database (d : Database) : (Archive.database d).Tells d :=
  fun _ h => Database.eq_of_guarded h

/-- An insertion that succeeds gives the next id to a record of finite latencies. -/
theorem Store.insertedBy_cases (s : Store) (c : Call) :
    s.insertedBy c = [] ∨
      ∃ r : Record, s.insertedBy c = [r] ∧ r.id = s.nextId ∧ r.id < (s.after c).nextId ∧
        ∀ x ∈ r.latencies.values, x.isFinite = true := by
  cases c with
  | insert d now =>
    rcases s.insert_cases d now with ⟨e, hanswer, -⟩ | ⟨hanswer, -⟩
    · refine .inl ?_
      simp only [insertedBy, pushed, hanswer]
    · have hpushed : s.pushed (.insert d now) = [d.withId s.nextId] := by
        simp only [pushed, hanswer]
      refine .inr ⟨d.withId s.nextId, hpushed, rfl, ?_, ?_⟩
      · exact s.pushed_lt_after (.insert d now) _ (by rw [hpushed]; exact List.mem_cons_self)
      · intro x hx
        cases hfault : d.latencies.fault? with
        | none => exact (Latencies.fault?_eq_none_iff.mp hfault x hx).1
        | some f =>
          unfold insert at hanswer
          rw [hfault] at hanswer
          cases hanswer
  | restore records now => exact .inl rfl
  | resumeAfter id => exact .inl rfl
  | evictExpired now => exact .inl rfl
  | stats => exact .inl rfl

theorem Database.rows_purge {d e : Database} {cutoff : Instant} {n : Nat}
    (h : (Archive.database d).purgeBefore cutoff = .ok (n, .database e)) :
    e.rows.Sublist d.rows := by
  unfold Archive.purgeBefore at h
  dsimp only at h
  cases hpurge : d.purgeBefore cutoff with
  | error f => rw [hpurge] at h; cases h
  | ok purged =>
    rw [hpurge] at h
    cases h
    exact rows_purgeBefore hpurge

namespace Site.Sound

variable {s : Site}

theorem idle {d : Database} (hordered : d.Ordered) (hnonneg : ∀ row ∈ d.rows, 0 ≤ row.id)
    (p : Retention) : (Site.idle d p).Sound :=
  ⟨hordered, hnonneg, nofun, .nil, nofun, nofun, nofun⟩

section Moves
variable (h : s.Sound)
include h

/-- A new run goes on above the last row, which is the highest. -/
theorem restart (p : Retention) {a : Archive} (ha : a.Tells s.table) (limit : Nat) (now : Instant) :
    (s.restarted p a limit now).Sound := by
  refine ⟨h.ordered, h.nonneg, fun hwrites row hrow => ?_, .nil, nofun, nofun, nofun⟩
  obtain ⟨highest, hmax, hpassed⟩ := Store.lt_nextId_restoreFrom hwrites
  obtain ⟨last, hlast⟩ : ∃ last, s.table.rows.getLast? = some last :=
    Option.isSome_iff_exists.mp
      (List.getLast?_isSome.mpr (List.ne_nil_of_mem (show row ∈ s.table.rows from hrow)))
  have hle := h.ordered.le_last hlast row hrow
  have hlt := hpassed last.id.toNat (by rw [ha highest hmax, hlast]; rfl)
  have hnonneg := h.nonneg row hrow
  show row.id < ((Store.empty p).restoreFrom a limit now).state.nextId
  omega

/-- A new record has an id above those of all rows and of all records that wait. -/
theorem call (c : Call) : (s.called c).Sound := by
  unfold called
  have hle := s.store.nextId_le_after c
  have hpassed : s.writes = true → ∀ row ∈ s.table.rows, row.id < (s.store.after c).nextId := by
    intro hwrites row hrow
    have hlt := h.passed hwrites row hrow
    omega
  have hbelow : ∀ r ∈ s.fresh, r.id < (s.store.after c).nextId := fun r hr =>
    Nat.lt_of_lt_of_le (h.below r hr) hle
  rcases s.store.insertedBy_cases c with hnone | ⟨r, hone, hid, hnext, hfinite⟩
  · rw [hnone, List.append_nil]
    exact ⟨h.ordered, h.nonneg, hpassed, h.distinct, hbelow, h.free, h.finite⟩
  · rw [hone]
    refine ⟨h.ordered, h.nonneg, hpassed, ?_, ?_, fun hwrites => ?_, ?_⟩
    · refine List.pairwise_append.mpr ⟨h.distinct, List.pairwise_singleton _ _, fun a ha b hb => ?_⟩
      have hlt := h.below a ha
      rw [List.mem_singleton.mp hb, hid]
      omega
    · exact List.forall_mem_append.mpr ⟨hbelow, List.forall_mem_singleton.mpr hnext⟩
    · refine List.forall_mem_append.mpr ⟨h.free hwrites, List.forall_mem_singleton.mpr ?_⟩
      intro row hrow
      have hlt := h.passed hwrites row hrow
      omega
    · exact List.forall_mem_append.mpr ⟨h.finite, List.forall_mem_singleton.mpr hfinite⟩

section Batch
variable {batch rest : List Record} (hfresh : s.fresh.Perm (batch ++ rest))
include hfresh

theorem apart : (batch ++ rest).Pairwise fun a b => a.id ≠ b.id :=
  (hfresh.pairwise_iff fun {_ _} hne => Ne.symm hne).mp h.distinct

variable (hids : ∀ r ∈ batch, r.id < Row.idBound)
include hids

/-- **A batch of records that wait becomes that many new rows.** -/
theorem rows_of_done (hwrites : s.writes = true) {e : Database}
    (hdone : (Archive.database s.table).persist batch = (.done, .database e)) :
    e.rows.Perm (s.table.rows ++ batch.map Row.ofRecord) := by
  have hmem : ∀ r ∈ batch, r ∈ s.fresh := fun r hr =>
    hfresh.mem_iff.mpr (List.mem_append_left _ hr)
  have hdistinct := (List.pairwise_append.mp (h.apart hfresh)).1
  rcases Archive.persist_database s.table batch with ⟨f, hfailed⟩ | ⟨after, hafter, hrows⟩
  · rw [hfailed] at hdone
    cases hdone
  · rw [hafter] at hdone
    cases hdone
    rw [hrows]
    refine Database.perm_foldl_addRow ?_ ?_ ?_
    · exact List.forall_mem_map.mpr fun r hr => Row.isStorable_of_isFinite (h.finite r (hmem r hr))
    · refine List.pairwise_map.mpr (hdistinct.imp_of_mem fun {a b} ha hb hne => ?_)
      rw [Row.id_ofRecord_of_lt (hids a ha), Row.id_ofRecord_of_lt (hids b hb)]
      exact fun heq => hne (Int.ofNat.inj heq)
    · refine List.forall_mem_map.mpr fun r hr row hrow => ?_
      rw [Row.id_ofRecord_of_lt (hids r hr)]
      exact h.free hwrites r (hmem r hr) row hrow

theorem persist (hwrites : s.writes = true) {outcome : Persisted} {d : Database}
    (hpersist : (Archive.database s.table).persist batch = (outcome, .database d)) :
    ({ s with table := d, fresh := rest } : Site).Sound := by
  have hmem : ∀ r, r ∈ batch ++ rest → r ∈ s.fresh := fun r => hfresh.mem_iff.mpr
  have hrest : ∀ r ∈ rest, r ∈ s.fresh := fun r hr => hmem r (List.mem_append_right _ hr)
  obtain ⟨-, hdistinct, hapart⟩ := List.pairwise_append.mp (h.apart hfresh)
  rcases Archive.persist_database s.table batch with ⟨f, hfailed⟩ | ⟨after, hafter, hrows⟩
  · rw [hfailed] at hpersist
    cases hpersist
    exact ⟨h.ordered, h.nonneg, h.passed, hdistinct, fun r hr => h.below r (hrest r hr),
      fun hwrites r hr => h.free hwrites r (hrest r hr), fun r hr => h.finite r (hrest r hr)⟩
  · rw [hafter] at hpersist
    cases hpersist
    have hnew := h.rows_of_done hfresh hids hwrites hafter
    -- every row is an old one or that of a record of the batch
    have hrow : ∀ {P : Row → Prop}, (∀ row ∈ s.table.rows, P row) →
        (∀ r ∈ batch, P (Row.ofRecord r)) → ∀ row ∈ d.rows, P row := by
      intro P hold hbatch row hmem
      rcases List.mem_append.mp (hnew.mem_iff.mp hmem) with hmem | hmem
      · exact hold row hmem
      · obtain ⟨r, hr, rfl⟩ := List.mem_map.mp hmem
        exact hbatch r hr
    refine ⟨?_, ?_, fun _ => ?_, hdistinct, fun r hr => h.below r (hrest r hr), fun _ r hr => ?_,
      fun r hr => h.finite r (hrest r hr)⟩
    · show d.rows.Pairwise _
      rw [hrows]
      exact h.ordered.addRows _
    · refine hrow h.nonneg fun r hr => ?_
      rw [Row.id_ofRecord_of_lt (hids r hr)]
      omega
    · refine hrow (h.passed hwrites) fun r hr => ?_
      rw [Row.id_ofRecord_of_lt (hids r hr)]
      exact Int.ofNat_lt.mpr (h.below r (hmem r (List.mem_append_left _ hr)))
    · refine hrow (h.free hwrites r (hrest r hr)) fun b hb => ?_
      rw [Row.id_ofRecord_of_lt (hids b hb)]
      exact fun heq => hapart b hb r hr (Int.ofNat.inj heq)

end Batch

theorem purge {cutoff : Instant} {n : Nat} {d : Database}
    (hpurge : (Archive.database s.table).purgeBefore cutoff = .ok (n, .database d)) :
    ({ s with table := d } : Site).Sound := by
  have hsub := Database.rows_purge hpurge
  exact ⟨h.ordered.sublist hsub, fun row hrow => h.nonneg row (hsub.subset hrow),
    fun hwrites row hrow => h.passed hwrites row (hsub.subset hrow), h.distinct, h.below,
    fun hwrites r hr row hrow => h.free hwrites r hr row (hsub.subset hrow), h.finite⟩

/-- **Whatever happens at a site, its ids stay apart.** -/
theorem move {t : Site} (hmove : Move s t) : t.Sound := by
  cases hmove with
  | restart p a limit now htells => exact h.restart p htells limit now
  | call c => exact h.call c
  | persist batch rest outcome d hwrites hfresh hids hpersist =>
    exact h.persist hfresh hids hwrites hpersist
  | purge cutoff n d hpurge => exact h.purge hpurge
  | lock held => exact ⟨h.ordered, h.nonneg, h.passed, h.distinct, h.below, h.free, h.finite⟩

theorem moves {t : Site} (hmoves : Moves s t) : t.Sound := by
  induction hmoves with
  | refl => exact h
  | tail _ hmove ih => exact ih.move hmove

end Moves

end Site.Sound

namespace Site

/-- **No record is lost because its id is taken.**  Over a table with its rows in order and no id
below zero, let runs come and go in any way.  A batch of records that the present run has inserted,
whatever their order and whichever of the others have been handed over, has ids that no row has, and
if the archive takes the batch, its records become new rows beside the others.  A run can write once
it has read the highest id.  A run that cannot read it leaves its store as it is, and the server
that goes on without it leaves the table as it was opened, whatever happens until the end. -/
theorem new_rows_after_restarts {d : Database} (hordered : d.Ordered)
    (hnonneg : ∀ row ∈ d.rows, 0 ≤ row.id) (p : Retention) {s : Site}
    (hmoves : Moves (.idle d p) s) :
    (∀ (batch rest : List Record) (e : Database), s.writes = true →
        s.fresh.Perm (batch ++ rest) → (∀ r ∈ batch, r.id < Row.idBound) →
        (Archive.database s.table).persist batch = (.done, .database e) →
        (∀ r ∈ batch, ∀ row ∈ s.table.rows, row.id ≠ r.id) ∧
          e.rows.Perm (s.table.rows ++ batch.map Row.ofRecord)) ∧
      (∀ (a : Archive) (limit : Nat) (now : Instant) (highest : Option Nat),
        a.maxId = .ok highest → (∀ id ∈ highest, id ≠ Store.lastId) →
        (∀ found, a.loadRecent limit = .ok found → ∀ r ∈ found.1, r.id ≠ Store.lastId) →
        (s.restarted p a limit now).writes = true) ∧
      (∀ (a : Archive) (limit : Nat) (now : Instant) (f : Fault), a.maxId = .error f →
        (∀ t : Store, t.restoreFrom a limit now = { answer := .error (.fault f), state := t }) ∧
          s.restarted p a limit now = ⟨s.table, .empty p, [], false⟩) ∧
      ∀ (settings : Settings) (storage : StorageSettings) (disk : Server.Disk) (f : Fault)
        (feed : Option DemoFeed) (now : Instant), settings.storage = some storage →
        (Archive.database (disk.opened storage)).maxId = .error f →
        let start := Server.start settings feed disk now
        start.disk.lookup storage.path = some (disk.opened storage) ∧
          ∀ r, start.running = some r → ∀ events : List Server.Event,
            (r.run events).opened = some ⟨storage.path, .database (disk.opened storage), none⟩ ∧
              ((r.run events).interrupt start.disk).disk.lookup storage.path =
                some (disk.opened storage) := by
  have hsound : s.Sound := (Sound.idle hordered hnonneg p).moves hmoves
  refine ⟨?_, ?_, ?_, ?_⟩
  · intro batch rest e hwrites hfresh hids hdone
    refine ⟨fun r hr row hrow => ?_, hsound.rows_of_done hfresh hids hwrites hdone⟩
    exact hsound.free hwrites r (hfresh.mem_iff.mpr (List.mem_append_left _ hr)) row hrow
  · intro a limit now highest hmax hhighest hloaded
    exact (Store.empty p).isOk_restoreFrom hmax hhighest hloaded now
  · intro a limit now f hf
    have hrestore := fun t : Store => t.restoreFrom_of_unreadable hf limit now
    refine ⟨hrestore, ?_⟩
    unfold restarted
    rw [hrestore]
    rfl
  · intro settings storage disk f feed now hstorage hf
    refine ⟨?_, fun r hr events => ?_⟩
    · rw [Server.disk_of_start hstorage hf]
      exact Server.Disk.lookup_saveOpened _ _ _
    · have hidle := (Server.Running.idle_of_start hstorage hf feed now hr).run events
      rw [hidle.interrupt]
      exact ⟨hidle.opened, Server.Disk.lookup_saveOpened _ _ _⟩

/-! ### A table with a row of another program -/

/-- A row that is a record, and one that is none. -/
def sharedRows : List Row :=
  let first := { Row.ofRecord ((Store.roundTrip 1.0).withId 3) with timestampMs := 200000 }
  [first, { first with id := 7, timestampMs := 50000, status := "LOST" }]

def sharedTable : Database := ⟨sharedRows, 10, false, false⟩

/-- An archive that tells the highest id of the table, and does not give its rows back. -/
def mute : Archive := .scripted ⟨some (some 7), none, [], #[]⟩

/-- The first run inserts two records. -/
def firstRun : Site :=
  (((idle sharedTable ⟨1, none⟩).restarted ⟨1, none⟩ mute 10 ⟨101, 0⟩).called
    (.insert (Store.roundTrip 2.0) ⟨102, 0⟩)).called (.insert (Store.roundTrip 3.0) ⟨103, 0⟩)

/-- The second record of the first run has become a row.  It has been purged since, as has the row
of the highest id. -/
def purgedRun : Site :=
  { firstRun with
    table := { sharedTable with rows := sharedRows.take 1 }
    fresh := [(Store.roundTrip 2.0).withId 8] }

/-- The second run has inserted a record. -/
def secondRun : Site :=
  (purgedRun.restarted ⟨1, none⟩ (.database purgedRun.table) 10 ⟨104, 0⟩).called
    (.insert (Store.roundTrip 4.0) ⟨105, 0⟩)

theorem moves_secondRun : Moves (.idle sharedTable ⟨1, none⟩) secondRun := by
  have hmute : mute.Tells sharedTable := fun _ h => by cases h; rfl
  have hfirst : Moves (.idle sharedTable ⟨1, none⟩) firstRun :=
    ((Relation.ReflTransGen.single (.restart _ _ _ _ hmute)).tail (.call _)).tail (.call _)
  have hpersist : Move firstRun
      { firstRun with
        table :=
          { sharedTable with
            rows := sharedRows ++ [Row.ofRecord ((Store.roundTrip 3.0).withId 9)] }
        fresh := [(Store.roundTrip 2.0).withId 8] } :=
    .persist [(Store.roundTrip 3.0).withId 9] _ .done _ (by decide +kernel) (by decide +kernel)
      (by decide +kernel) rfl
  exact (((hfirst.tail hpersist).tail (.purge ⟨150, 0⟩ 2 _ rfl)).tail
    (.restart _ _ _ _ (Archive.tells_database _))).tail (.call _)

/-- The second run inserts a record with an id that is free, though there was a higher one before.
Where another program holds the table, a server begins without the highest id. -/
theorem new_rows_after_restarts_shared :
    let r := (Store.roundTrip 4.0).withId 4
    let held := { sharedTable with locked := true }
    let settings : Settings := { storage := some { path := "archive" } }
    let start := Server.start settings none [("archive", held)] ⟨104, 0⟩
    secondRun.fresh = [r] ∧
      (∃ e, (Archive.database secondRun.table).persist [r] = (.done, .database e) ∧
        e.rows.map Row.id = [3, 4] ∧ e.rows.Perm (secondRun.table.rows ++ [Row.ofRecord r])) ∧
      (secondRun.restarted ⟨1, none⟩ mute 10 ⟨106, 0⟩).writes = true ∧
      secondRun.restarted ⟨1, none⟩ (.database held) 10 ⟨106, 0⟩ =
        ⟨secondRun.table, .empty ⟨1, none⟩, [], false⟩ ∧
      start.running.isSome = true ∧
      ∀ server, start.running = some server → ∀ events : List Server.Event,
        (server.run events).opened =
          some ⟨"archive", .database { held with timeoutMs := 2000 }, none⟩ := by
  intro r held settings start
  obtain ⟨hpersist, hwrites, hunread, hserver⟩ :=
    new_rows_after_restarts (by decide +kernel) (by decide +kernel) ⟨1, none⟩ moves_secondRun
  refine ⟨by decide +kernel, ⟨_, rfl, by decide +kernel, ?_⟩, ?_, ?_, by decide +kernel, ?_⟩
  · exact (hpersist [r] [] _ (by decide +kernel) (by decide +kernel) (by decide +kernel) rfl).2
  · exact hwrites mute 10 ⟨106, 0⟩ (some 7) rfl (by decide) (by intro found h; cases h)
  · exact (hunread (.database held) 10 ⟨106, 0⟩ _ rfl).2
  · intro server hrunning events
    exact ((hserver settings { path := "archive" } _ _ none ⟨104, 0⟩ rfl rfl).2 server hrunning
      events).1

end Site

end OrderTelemetry
