import OrderTelemetry.Proofs.Store.Lookup

/-! # Ids

The store gives an id to every record that is inserted, readmits records under the ids they have,
and passes ids that are in use elsewhere.  In all of this the next id only rises, so no id is given
twice, not even one whose record has long left the window.

* `Store.Climbs`: records whose ids rise from a given one on, as those that a call appends.
* `Store.granted`, `Store.passed`: the ids that the insertions of a run answer, and those that it
  makes the store pass.
* `Store.ids_rise`: after every run the next insertion answers an id above all of them. -/

namespace OrderTelemetry.Store

/-! ### The next id -/

theorem Edit.nextId_le {s t : Store} (h : Edit s t) : s.nextId ≤ t.nextId := by
  cases h with
  | accept r hr => rw [nextId_accept]; omega
  | raise next hnext => exact hnext
  | evict n => exact Nat.le_refl _
  | remember => exact Nat.le_refl _

theorem nextId_le_after (s : Store) (c : Call) : s.nextId ≤ (s.after c).nextId := by
  have hle : ∀ t, Edits s t → s.nextId ≤ t.nextId := by
    intro t h
    induction h with
    | refl => exact Nat.le_refl _
    | tail _ hlast ih => exact Nat.le_trans ih hlast.nextId_le
  exact hle _ (s.after_edits c)

theorem nextId_le_run (s : Store) (calls : List Call) : s.nextId ≤ (s.run calls).nextId := by
  induction calls generalizing s with
  | nil => exact Nat.le_refl _
  | cons c rest ih => exact Nat.le_trans (s.nextId_le_after c) (ih _)

/-! ### The ids of a call -/

/-- Ids rise along the records, from `next` on. -/
structure Climbs (next : Nat) (records : List Record) : Prop where
  ordered : records.Pairwise fun a b => a.id < b.id
  start : ∀ r ∈ records, next ≤ r.id

theorem Climbs.nil (next : Nat) : Climbs next [] := ⟨.nil, by simp⟩

theorem Climbs.singleton {next : Nat} {r : Record} (h : next ≤ r.id) : Climbs next [r] :=
  ⟨List.pairwise_singleton _ _, by simpa using h⟩

theorem Climbs.cons {next : Nat} {r : Record} {rest : List Record} (hr : next ≤ r.id)
    (h : Climbs (r.id + 1) rest) : Climbs next (r :: rest) := by
  refine ⟨List.pairwise_cons.mpr ⟨h.start, h.ordered⟩, fun a ha => ?_⟩
  rcases List.mem_cons.mp ha with rfl | ha
  · exact hr
  · have := h.start a ha
    omega

/-- Whatever the order of the records, those that are accepted climb. -/
theorem accepted_climbs (next : Nat) (records : List Record) :
    Climbs next (accepted next records) := by
  induction records generalizing next with
  | nil => exact .nil next
  | cons r rest ih =>
    unfold accepted
    split_ifs with hlow hlast
    · exact ih next
    · exact .nil next
    · exact .cons (Nat.not_lt.mp hlow) (ih _)

theorem pushed_climbs (s : Store) (c : Call) : Climbs s.nextId (s.pushed c) := by
  cases c with
  | insert d now =>
    rcases s.insert_cases d now with ⟨e, ha, -⟩ | ⟨ha, -⟩
    · simp only [pushed, ha]; exact .nil _
    · simp only [pushed, ha]; exact .singleton (Nat.le_refl _)
  | restore records now => exact accepted_climbs _ _
  | resumeAfter id => exact .nil _
  | evictExpired now => exact .nil _
  | stats => exact .nil _

theorem Climbs.tail {next : Nat} {r : Record} {rest : List Record} (h : Climbs next (r :: rest)) :
    Climbs (r.id + 1) rest :=
  ⟨(List.pairwise_cons.mp h.ordered).2, (List.pairwise_cons.mp h.ordered).1⟩

/-- Records that climb are appended below the next id. -/
theorem Climbs.acceptAll {s : Store} {records : List Record} (h : Climbs s.nextId records) :
    s.nextId ≤ (s.acceptAll records).nextId ∧
      ∀ r ∈ records, r.id < (s.acceptAll records).nextId := by
  induction records generalizing s with
  | nil => exact ⟨Nat.le_refl _, by simp⟩
  | cons r rest ih =>
    have hr := h.start r List.mem_cons_self
    obtain ⟨hle, hlt⟩ := ih (s := s.accept r) h.tail
    rw [nextId_accept] at hle
    rw [acceptAll_cons]
    refine ⟨by omega, fun a ha => ?_⟩
    rcases List.mem_cons.mp ha with rfl | ha
    · omega
    · exact hlt a ha

/-- A call appends its records below the next id after it. -/
theorem pushed_lt_after (s : Store) (c : Call) : ∀ r ∈ s.pushed c, r.id < (s.after c).nextId := by
  have hlt := (s.pushed_climbs c).acceptAll.2
  rcases s.after_cases c with ⟨now, -, h⟩ | ⟨-, ⟨-, h⟩ | ⟨hpushed, -⟩⟩
  · rw [h]; exact hlt
  · rw [h]; exact hlt
  · rw [hpushed]; simp

/-! ### The ids of a run -/

/-- The id that a call answers, if it is an insertion that succeeds. -/
def grantedBy (s : Store) : Call → List Nat
  | .insert d now =>
    match (s.insert d now).answer with
    | .ok r => [r.id]
    | .error _ => []
  | _ => []

/-- The ids that the successful insertions of some calls answer, in their order. -/
def granted (s : Store) : List Call → List Nat
  | [] => []
  | c :: rest => s.grantedBy c ++ (s.after c).granted rest

/-- The id that a call makes the store pass, if it succeeds in that. -/
def passedBy (s : Store) : Call → List Nat
  | .resumeAfter id => if (s.resumeAfter id).answer.isOk then [id] else []
  | _ => []

/-- The ids that some calls make the store pass. -/
def passed (s : Store) : List Call → List Nat
  | [] => []
  | c :: rest => s.passedBy c ++ (s.after c).passed rest

/-- An insertion answers the id of the record that it appends. -/
theorem grantedBy_sublist (s : Store) (c : Call) :
    (s.grantedBy c).Sublist ((s.pushed c).map Record.id) := by
  cases c with
  | insert d now =>
    rcases s.insert_cases d now with ⟨e, ha, -⟩ | ⟨ha, -⟩ <;> simp [grantedBy, pushed, ha]
  | restore records now => exact List.nil_sublist _
  | resumeAfter id => exact List.nil_sublist _
  | evictExpired now => exact List.nil_sublist _
  | stats => exact List.nil_sublist _

theorem granted_sublist (s : Store) (calls : List Call) :
    (s.granted calls).Sublist ((s.history calls).map Record.id) := by
  induction calls generalizing s with
  | nil => exact List.nil_sublist _
  | cons c rest ih =>
    simp only [granted, history, List.map_append]
    exact (s.grantedBy_sublist c).append (ih _)

theorem lt_nextId_resumeAfter {s : Store} {id : Nat} (h : (s.resumeAfter id).answer.isOk = true) :
    id < (s.resumeAfter id).state.nextId := by
  unfold resumeAfter at h ⊢
  split_ifs at h ⊢ with hlow hlast
  · exact hlow
  · cases h
  · exact Nat.lt_succ_self id

theorem passedBy_lt_after (s : Store) (c : Call) :
    ∀ id ∈ s.passedBy c, id < (s.after c).nextId := by
  cases c with
  | resumeAfter id =>
    intro a ha
    simp only [passedBy, List.mem_ite_nil_right, List.mem_singleton] at ha
    rw [ha.2]
    exact lt_nextId_resumeAfter ha.1
  | insert d now => simp [passedBy]
  | restore records now => simp [passedBy]
  | evictExpired now => simp [passedBy]
  | stats => simp [passedBy]

theorem passed_lt_run (s : Store) (calls : List Call) :
    ∀ id ∈ s.passed calls, id < (s.run calls).nextId := by
  induction calls generalizing s with
  | nil => simp [passed]
  | cons c rest ih =>
    intro id hid
    rcases List.mem_append.mp hid with hid | hid
    · exact Nat.lt_of_lt_of_le (s.passedBy_lt_after c id hid) ((s.after c).nextId_le_run rest)
    · exact ih _ id hid

theorem history_lt_run (s : Store) (calls : List Call) :
    ∀ r ∈ s.history calls, r.id < (s.run calls).nextId := by
  induction calls generalizing s with
  | nil => simp [history]
  | cons c rest ih =>
    intro r hr
    rcases List.mem_append.mp hr with hr | hr
    · exact Nat.lt_of_lt_of_le (s.pushed_lt_after c r hr) ((s.after c).nextId_le_run rest)
    · exact ih _ r hr

/-- Ids rise along all records that are ever appended. -/
theorem history_climbs (s : Store) (calls : List Call) : Climbs s.nextId (s.history calls) := by
  induction calls generalizing s with
  | nil => exact .nil _
  | cons c rest ih =>
    have hpushed := s.pushed_climbs c
    have hlater : ∀ b ∈ (s.after c).history rest, (s.after c).nextId ≤ b.id := (ih _).start
    refine ⟨List.pairwise_append.mpr ⟨hpushed.ordered, (ih _).ordered, ?_⟩, ?_⟩
    · intro a ha b hb
      exact Nat.lt_of_lt_of_le (s.pushed_lt_after c a ha) (hlater b hb)
    · intro r hr
      rcases List.mem_append.mp hr with hr | hr
      · exact hpushed.start r hr
      · exact Nat.le_trans (s.nextId_le_after c) (hlater r hr)

/-- **Ids rise.**  After every run, whether its calls fail or not, the ids that insertions have
answered rise.  If the next call is an insertion and succeeds, it answers an id above those of all
records ever appended and above all ids that the store was made to pass.  Ids rise along the window
and stay below the next id. -/
theorem ids_rise (p : Retention) (calls : List Call) :
    let s := (empty p).run calls
    ((empty p).granted calls).Pairwise (· < ·) ∧
      (∀ d now r, (s.insert d now).answer = .ok r →
        (∀ a ∈ (empty p).history calls, a.id < r.id) ∧ ∀ id ∈ (empty p).passed calls, id < r.id) ∧
      s.window.toList.Pairwise (fun a b => a.id < b.id) ∧
      ∀ r ∈ s.window.toList, r.id < s.nextId := by
  intro s
  have hrising : s.Rising := rising_run p calls
  refine ⟨?_, fun d now r hr => ?_, hrising.ordered, hrising.below⟩
  · have hhistory := ((empty p).history_climbs calls).ordered
    exact (List.pairwise_map.mpr hhistory).sublist ((empty p).granted_sublist calls)
  · have hid : r.id = s.nextId := by
      rcases s.insert_cases d now with ⟨e, ha, -⟩ | ⟨ha, -⟩
      · rw [ha] at hr; cases hr
      · rw [ha] at hr; cases hr; rfl
    rw [hid]
    exact ⟨(empty p).history_lt_run calls, (empty p).passed_lt_run calls⟩

/-- A draft that is refused if its round trip takes less than no time. -/
def roundTrip (rtt : Float) : Draft :=
  { orderId := "A", broker := "b", symbol := "S", orderType := .market, timestamp := ⟨100, 0⟩,
    latencies := ⟨rtt, 2.0, 0.5, 1.0, 0.5⟩, status := .success, error := none }

/-- An insertion, one that is refused, an id to pass and two more insertions. -/
def skipping : List Call :=
  [.insert (roundTrip 1.0) ⟨101, 0⟩, .insert (roundTrip (-1.0)) ⟨102, 0⟩, .resumeAfter 20,
    .insert (roundTrip 2.0) ⟨103, 0⟩, .insert (roundTrip 3.0) ⟨104, 0⟩]

/-- A store of a single record goes on above the ids of the records that have left, and above the
one that it was made to pass. -/
theorem ids_rise_skipping :
    let s := (empty ⟨1, none⟩).run skipping
    let r := (roundTrip 4.0).withId 23
    (s.insert (roundTrip 4.0) ⟨105, 0⟩).answer = .ok r ∧
      (∀ a ∈ (empty ⟨1, none⟩).history skipping, a.id < r.id) ∧
      (∀ id ∈ (empty ⟨1, none⟩).passed skipping, id < r.id) ∧
      (empty ⟨1, none⟩).granted skipping = [1, 21, 22] ∧
      (empty ⟨1, none⟩).passed skipping = [20] ∧ s.window.toList.map Record.id = [22] := by
  intro s r
  have hanswer : (s.insert (roundTrip 4.0) ⟨105, 0⟩).answer = .ok r := by decide +kernel
  obtain ⟨hhistory, hpassed⟩ := (ids_rise ⟨1, none⟩ skipping).2.1 _ _ _ hanswer
  exact ⟨hanswer, hhistory, hpassed, by decide +kernel, by decide +kernel, by decide +kernel⟩

end OrderTelemetry.Store
