import Mathlib.Logic.Relation
import Mathlib.Tactic.SplitIfs
import OrderTelemetry.Store.Query

/-! # Runs of a store

A run is a list of calls, one after the other, on a store that starts empty.  `Store.after` is the
store after one call, `Store.pushed` are the records that the call appends, `Store.history` are
those of a whole run in their order.

Whatever a call does comes down to four edits: a record is accepted, the next id is raised, records
at the front are dropped, and a sorted sample is kept (`Store.Edit`).  `Store.after_edits` takes a
call apart into its edits, so a property that every edit keeps holds after every run
(`Store.run_induction`). -/

namespace OrderTelemetry

/-- A call on a store that may change it. -/
inductive Call where
  | insert (d : Draft) (now : Instant)
  | restore (records : List Record) (now : Instant)
  | resumeAfter (id : Nat)
  | evictExpired (now : Instant)
  | stats

namespace Store

/-! ### Calls -/

/-- The store after a call, whether the call succeeds or not. -/
def after (s : Store) : Call → Store
  | .insert d now => (s.insert d now).state
  | .restore records now => (s.restore records now).state
  | .resumeAfter id => (s.resumeAfter id).state
  | .evictExpired now => (s.evictExpired now).2
  | .stats => s.stats.state

/-- The records of a list that a store with a given next id accepts: those whose ids are not passed
yet, up to one whose id nothing can follow. -/
def accepted (next : Nat) : List Record → List Record
  | [] => []
  | r :: rest =>
    if r.id < next then accepted next rest
    else if r.id = lastId then []
    else r :: accepted (r.id + 1) rest

/-- The records that a call appends to the window, oldest first. -/
def pushed (s : Store) : Call → List Record
  | .insert d now =>
    match (s.insert d now).answer with
    | .ok r => [r]
    | .error _ => []
  | .restore records _ =>
    accepted s.nextId (records.mergeSort fun a b => decide (a.id ≤ b.id))
  | _ => []

/-- Whether a call fails because no id is left. -/
def exhausts (s : Store) : Call → Bool
  | .insert d now => ((s.insert d now).answer matches .error .idsExhausted)
  | .restore records now => ((s.restore records now).answer matches .error .idsExhausted)
  | .resumeAfter id => ((s.resumeAfter id).answer matches .error .idsExhausted)
  | _ => false

/-- The time at which a call brings the window within its bounds, if it does. -/
def sweepTime? (s : Store) : Call → Option Instant
  | .insert d now => if (s.insert d now).answer.isOk then some now else none
  | .restore records now => if (s.restore records now).answer.isOk then some now else none
  | .evictExpired now => if s.retention.maxAge.isSome then some now else none
  | _ => none

/-! ### Runs -/

/-- The store after some calls. -/
def run (s : Store) (calls : List Call) : Store := calls.foldl after s

/-- All records that some calls append, in the order in which they are appended. -/
def history (s : Store) : List Call → List Record
  | [] => []
  | c :: rest => s.pushed c ++ (s.after c).history rest

/-- The times at which some calls bring the window within its bounds. -/
def sweeps (s : Store) : List Call → List Instant
  | [] => []
  | c :: rest => (s.sweepTime? c).toList ++ (s.after c).sweeps rest

/-- Whether there is an id for everything that some calls need one for. -/
def lasting (s : Store) : List Call → Bool
  | [] => true
  | c :: rest => !s.exhausts c && (s.after c).lasting rest

@[simp] theorem run_nil (s : Store) : s.run [] = s := rfl

@[simp] theorem run_cons (s : Store) (c : Call) (rest : List Call) :
    s.run (c :: rest) = (s.after c).run rest := rfl

theorem run_append (s : Store) (first last : List Call) :
    s.run (first ++ last) = (s.run first).run last := List.foldl_append

theorem history_append (s : Store) (first last : List Call) :
    s.history (first ++ last) = s.history first ++ (s.run first).history last := by
  induction first generalizing s with
  | nil => rfl
  | cons c rest ih => simp [history, ih]

theorem lasting_append (s : Store) (first last : List Call) :
    s.lasting (first ++ last) = (s.lasting first && (s.run first).lasting last) := by
  induction first generalizing s with
  | nil => rfl
  | cons c rest ih => simp [lasting, ih, Bool.and_assoc]

/-! ### Edits -/

/-- Appends a record and passes its id. -/
def accept (s : Store) (r : Record) : Store := ({ s with nextId := r.id + 1 } : Store).push r

/-- The smallest changes that a store undergoes. -/
inductive Edit : Store → Store → Prop
  | accept (s : Store) (r : Record) : s.nextId ≤ r.id → Edit s (s.accept r)
  | raise (s : Store) (next : Nat) : s.nextId ≤ next → Edit s { s with nextId := next }
  | evict (s : Store) (n : Nat) : Edit s (s.evict n)
  | remember (s : Store) : Edit s { s with sample := some s.sortedSample }

/-- One edit after the other. -/
abbrev Edits : Store → Store → Prop := Relation.ReflTransGen Edit

@[simp] theorem toList_accept (s : Store) (r : Record) :
    (s.accept r).window.toList = s.window.toList ++ [r] := by
  simp [accept, push]

@[simp] theorem nextId_accept (s : Store) (r : Record) : (s.accept r).nextId = r.id + 1 := rfl

@[simp] theorem retention_accept (s : Store) (r : Record) :
    (s.accept r).retention = s.retention := rfl

@[simp] theorem toList_evict (s : Store) (n : Nat) :
    (s.evict n).window.toList = s.window.toList.drop n := by
  unfold evict
  rw [Array.toList_extract, List.extract_eq_take_drop]
  exact List.take_of_length_le (by simp)

theorem toList_gone (s : Store) (n : Nat) :
    (s.window.extract 0 n).toList = s.window.toList.take n := by
  simp [Array.toList_extract, List.extract_eq_take_drop]

@[simp] theorem byOrder_evict (s : Store) (n : Nat) :
    (s.evict n).byOrder = (s.window.toList.take n).foldl unindex s.byOrder := by
  rw [← toList_gone, Array.foldl_toList]
  rfl

@[simp] theorem totals_evict (s : Store) (n : Nat) :
    (s.evict n).totals = (s.window.toList.take n).foldl Totals.remove s.totals := by
  rw [← toList_gone, Array.foldl_toList]
  rfl

@[simp] theorem generation_evict (s : Store) (n : Nat) :
    (s.evict n).generation = s.generation + (s.window.toList.take n).length := by
  rw [← toList_gone, Array.length_toList]
  rfl

/-- Appending one record after the other. -/
def acceptAll (s : Store) (records : List Record) : Store := records.foldl accept s

@[simp] theorem acceptAll_nil (s : Store) : s.acceptAll [] = s := rfl

@[simp] theorem acceptAll_cons (s : Store) (r : Record) (rest : List Record) :
    s.acceptAll (r :: rest) = (s.accept r).acceptAll rest := rfl

@[simp] theorem toList_acceptAll (s : Store) (records : List Record) :
    (s.acceptAll records).window.toList = s.window.toList ++ records := by
  induction records generalizing s with
  | nil => simp
  | cons r rest ih => simp [ih]

theorem size_acceptAll (s : Store) (records : List Record) :
    (s.acceptAll records).window.size = s.window.size + records.length := by
  rw [← Array.length_toList, toList_acceptAll, List.length_append, Array.length_toList]

@[simp] theorem retention_acceptAll (s : Store) (records : List Record) :
    (s.acceptAll records).retention = s.retention := by
  induction records generalizing s with
  | nil => rfl
  | cons r rest ih => simp [ih]

@[simp] theorem totals_acceptAll (s : Store) (records : List Record) :
    (s.acceptAll records).totals = records.foldl Totals.add s.totals := by
  induction records generalizing s with
  | nil => rfl
  | cons r rest ih => exact ih (s.accept r)

@[simp] theorem generation_acceptAll (s : Store) (records : List Record) :
    (s.acceptAll records).generation = s.generation + records.length := by
  induction records generalizing s with
  | nil => rfl
  | cons r rest ih =>
    rw [acceptAll_cons, ih, List.length_cons]
    show s.generation + 1 + rest.length = _
    omega

theorem mem_of_mem_accepted {r : Record} {next : Nat} {records : List Record}
    (h : r ∈ accepted next records) : r ∈ records := by
  induction records generalizing next with
  | nil => simp [accepted] at h
  | cons first rest ih =>
    unfold accepted at h
    split_ifs at h with hlow hlast
    · exact List.mem_cons_of_mem _ (ih h)
    · simp at h
    · rcases List.mem_cons.mp h with rfl | h
      · exact List.mem_cons_self
      · exact List.mem_cons_of_mem _ (ih h)

theorem acceptAll_edits (s : Store) (records : List Record) :
    Edits s (s.acceptAll (accepted s.nextId records)) := by
  induction records generalizing s with
  | nil => exact .refl
  | cons r rest ih =>
    unfold accepted
    split_ifs with hlow hlast
    · exact ih s
    · exact .refl
    · exact .head (.accept s r (Nat.not_lt.mp hlow)) (ih (s.accept r))

/-! ### What the calls do -/

/-- An insertion either fails and changes nothing, or it accepts the draft under the next id. -/
theorem insert_cases (s : Store) (d : Draft) (now : Instant) :
    (∃ e, (s.insert d now).answer = .error e ∧ (s.insert d now).state = s) ∨
      ((s.insert d now).answer = .ok (d.withId s.nextId) ∧
        (s.insert d now).state = (s.accept (d.withId s.nextId)).enforce now) := by
  unfold insert
  cases d.latencies.fault? with
  | some f => exact Or.inl ⟨_, rfl, rfl⟩
  | none =>
    by_cases hlast : s.nextId = lastId
    · dsimp only
      rw [if_pos hlast]
      exact Or.inl ⟨_, rfl, rfl⟩
    · dsimp only
      rw [if_neg hlast]
      exact Or.inr ⟨rfl, rfl⟩

/-- An insertion of sound latencies succeeds as long as ids are left. -/
theorem insert_of_sound {s : Store} {d : Draft} (hd : d.latencies.fault? = none)
    (hid : s.nextId ≠ lastId) (now : Instant) :
    (s.insert d now).answer = .ok (d.withId s.nextId) ∧
      (s.insert d now).state = (s.accept (d.withId s.nextId)).enforce now := by
  unfold insert
  rw [hd]
  dsimp only
  rw [if_neg hid]
  exact ⟨rfl, rfl⟩

theorem insert_of_exhausted {s : Store} {d : Draft} (hd : d.latencies.fault? = none)
    (hid : s.nextId = lastId) (now : Instant) :
    (s.insert d now).answer = .error .idsExhausted ∧ (s.insert d now).state = s := by
  unfold insert
  rw [hd]
  dsimp only
  rw [if_pos hid]
  exact ⟨rfl, rfl⟩

/-- Readmission stops early or not, but it has accepted the same records. -/
theorem readmitAll_cases (s : Store) (records : List Record) :
    s.readmitAll records = .ok (s.acceptAll (accepted s.nextId records)) ∨
      s.readmitAll records = .error (s.acceptAll (accepted s.nextId records)) := by
  induction records generalizing s with
  | nil => exact Or.inl rfl
  | cons r rest ih =>
    unfold readmitAll readmit accepted
    split_ifs with hlow hlast
    · exact ih s
    · exact Or.inr rfl
    · exact ih (s.accept r)

theorem restore_cases (s : Store) (records : List Record) (now : Instant) :
    let t := s.acceptAll (s.pushed (.restore records now))
    ((s.restore records now).answer.isOk = true ∧ (s.restore records now).state = t.enforce now) ∨
      ((s.restore records now).answer = .error .idsExhausted ∧
        (s.restore records now).state = t) := by
  intro t
  unfold restore
  rcases s.readmitAll_cases (records.mergeSort fun a b => decide (a.id ≤ b.id)) with h | h
  · rw [h]; exact Or.inl ⟨rfl, rfl⟩
  · rw [h]; exact Or.inr ⟨rfl, rfl⟩

theorem resumeAfter_state (s : Store) (id : Nat) :
    ∃ next, s.nextId ≤ next ∧ (s.resumeAfter id).state = { s with nextId := next } := by
  unfold resumeAfter
  split_ifs with hlow hlast
  · exact ⟨s.nextId, Nat.le_refl _, rfl⟩
  · exact ⟨s.nextId, Nat.le_refl _, rfl⟩
  · exact ⟨id + 1, by omega, rfl⟩

/-- **What a call can do**: accept its records and bring the window within its bounds, run out of
ids half-way, or leave the window as it is. -/
theorem after_cases (s : Store) (c : Call) :
    (∃ now, s.sweepTime? c = some now ∧ s.after c = (s.acceptAll (s.pushed c)).enforce now) ∨
      s.sweepTime? c = none ∧
        ((s.exhausts c = true ∧ s.after c = s.acceptAll (s.pushed c)) ∨
          s.pushed c = [] ∧
            ((∃ next, s.nextId ≤ next ∧ s.after c = { s with nextId := next }) ∨
              s.after c = { s with sample := some s.sortedSample })) := by
  cases c with
  | insert d now =>
    rcases s.insert_cases d now with ⟨e, ha, hs⟩ | ⟨ha, hs⟩
    · refine Or.inr ⟨?_, Or.inr ⟨?_, Or.inl ⟨s.nextId, Nat.le_refl _, hs⟩⟩⟩
      · simp [sweepTime?, ha, Except.isOk, Except.toBool]
      · simp [pushed, ha]
    · refine Or.inl ⟨now, ?_, ?_⟩
      · simp [sweepTime?, ha, Except.isOk, Except.toBool]
      · simp only [after, pushed, hs, ha]; rfl
  | restore records now =>
    rcases s.restore_cases records now with ⟨ha, hs⟩ | ⟨ha, hs⟩
    · exact Or.inl ⟨now, by simp [sweepTime?, ha], hs⟩
    · refine Or.inr ⟨?_, Or.inl ⟨?_, hs⟩⟩
      · simp [sweepTime?, ha, Except.isOk, Except.toBool]
      · simp [exhausts, ha]
  | resumeAfter id => exact Or.inr ⟨rfl, Or.inr ⟨rfl, Or.inl (s.resumeAfter_state id)⟩⟩
  | evictExpired now =>
    by_cases hage : s.retention.maxAge.isSome = true
    · refine Or.inl ⟨now, by simp [sweepTime?, hage], ?_⟩
      simp only [after, evictExpired, Option.isNone_iff_eq_none, pushed, acceptAll_nil]
      rw [if_neg (by intro h; simp [h] at hage)]
    · refine Or.inr ⟨by simp [sweepTime?, hage], Or.inr ⟨rfl, Or.inl ⟨s.nextId, Nat.le_refl _, ?_⟩⟩⟩
      simp only [after, evictExpired]
      rw [if_pos (by simpa using hage)]
  | stats => exact Or.inr ⟨rfl, Or.inr ⟨rfl, Or.inr rfl⟩⟩

theorem after_of_sweepTime {s : Store} {c : Call} {now : Instant}
    (h : s.sweepTime? c = some now) : s.after c = (s.acceptAll (s.pushed c)).enforce now := by
  rcases s.after_cases c with ⟨t, ht, hs⟩ | ⟨hnone, -⟩
  · rw [ht, Option.some.injEq] at h
    rw [hs, h]
  · rw [hnone] at h; cases h

theorem pushed_edits (s : Store) (c : Call) : Edits s (s.acceptAll (s.pushed c)) := by
  cases c with
  | insert d now =>
    rcases s.insert_cases d now with ⟨e, ha, -⟩ | ⟨ha, -⟩
    · simp only [pushed, ha]; exact .refl
    · simp only [pushed, ha]; exact .single (.accept s _ (Nat.le_refl _))
  | restore records now => exact s.acceptAll_edits _
  | resumeAfter id => exact .refl
  | evictExpired now => exact .refl
  | stats => exact .refl

theorem after_edits (s : Store) (c : Call) : Edits s (s.after c) := by
  have hpushed := s.pushed_edits c
  rcases s.after_cases c with ⟨now, -, h⟩ | ⟨-, ⟨-, h⟩ | ⟨-, ⟨next, hnext, h⟩ | h⟩⟩
  · rw [h]; exact hpushed.tail (.evict _ _)
  · rw [h]; exact hpushed
  · rw [h]; exact .single (.raise s next hnext)
  · rw [h]; exact .single (.remember s)

/-- **Invariants**: what holds of the empty store and is kept by every edit holds after every
run. -/
theorem run_induction {p : Retention} {I : Store → Prop} (hempty : I (empty p))
    (hedit : ∀ s t, Edit s t → I s → I t) (calls : List Call) : I ((empty p).run calls) := by
  have hedits : ∀ s t, Edits s t → I s → I t := by
    intro s t h hs
    induction h with
    | refl => exact hs
    | tail _ hlast ih => exact hedit _ _ hlast ih
  have hrun : ∀ (rest : List Call) (s : Store), I s → I (s.run rest) := by
    intro rest
    induction rest with
    | nil => intro s hs; exact hs
    | cons c rest ih => intro s hs; exact ih _ (hedits _ _ (s.after_edits c) hs)
  exact hrun calls _ hempty

end Store

end OrderTelemetry
