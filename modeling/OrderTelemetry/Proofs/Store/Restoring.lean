import Mathlib.Data.List.Nodup
import OrderTelemetry.Proofs.Store.Failure
import OrderTelemetry.Proofs.Store.Filled

/-! # Restoring records

Records are restored in the order of their ids, and one comparison with the next id decides about
each of them.  The next id moves with every record that is taken, so the comparison leaves out the
ids that the store had passed before as well as the later ones of several records with one id.

* `Store.find?_sorted`: sorting leaves the first record of an id the first.
* `Store.mem_accepted_iff`: which records of a sorted list are taken.
* `Store.restore_of_passed`: a list whose ids are all passed adds nothing.
* `Store.restore_takes_first`: what restoring any list does, in which order it may be given, and
  that it is done once. -/

namespace OrderTelemetry.Store

variable {s : Store} {records : List Record}

/-! ### Sorting -/

/-- Records in the order of their ids, those of one id in the order in which they were given. -/
def sorted (records : List Record) : List Record :=
  records.mergeSort fun a b => decide (a.id ≤ b.id)

theorem mem_sorted {r : Record} : r ∈ sorted records ↔ r ∈ records := List.mem_mergeSort

/-- Records of one id are in order as they are, so a stable sort keeps them that way. -/
theorem filter_sorted (records : List Record) (id : Nat) :
    (sorted records).filter (fun a => a.id = id) = records.filter fun a => a.id = id := by
  have hsame : (records.filter fun a => a.id = id).Pairwise
      fun a b => decide (a.id ≤ b.id) = true := by
    refine List.pairwise_of_forall_mem_list fun a ha b hb => ?_
    have ha := List.of_mem_filter ha
    have hb := List.of_mem_filter hb
    simp only [decide_eq_true_eq] at ha hb ⊢
    omega
  have hsub : (records.filter fun a => a.id = id).Sublist (sorted records) :=
    List.sublist_mergeSort idOrder_trans idOrder_total hsame List.filter_sublist
  have hkept := hsub.filter fun a => decide (a.id = id)
  rw [List.filter_filter] at hkept
  simp only [Bool.and_self] at hkept
  refine (hkept.eq_of_length ?_).symm
  exact ((List.mergeSort_perm records _).symm.filter _).length_eq

theorem find?_sorted (records : List Record) (id : Nat) :
    (sorted records).find? (fun a => a.id = id) = records.find? fun a => a.id = id := by
  rw [← List.head?_filter, ← List.head?_filter, filter_sorted]

/-- Without two records of one id there is one order only. -/
theorem sorted_eq_of_perm {others : List Record} (h : records.Perm others)
    (hdistinct : (records.map Record.id).Nodup) : sorted records = sorted others := by
  have hperm : (sorted records).Perm (sorted others) :=
    ((List.mergeSort_perm records _).trans h).trans (List.mergeSort_perm others _).symm
  refine hperm.eq_of_pairwise ?_ (pairwise_sorted records) (pairwise_sorted others)
  intro a b ha hb hab hba
  exact List.inj_on_of_nodup_map hdistinct (mem_sorted.mp ha) (h.mem_iff.mpr (mem_sorted.mp hb))
    (Nat.le_antisymm hab hba)

/-! ### Which records are taken -/

/-- Of a sorted list the first record of each id is taken that the store has not passed. -/
theorem mem_accepted_iff {next : Nat} (hordered : records.Pairwise fun a b => a.id ≤ b.id)
    (hids : ∀ r ∈ records, r.id ≠ lastId) (r : Record) :
    r ∈ accepted next records ↔ next ≤ r.id ∧ records.find? (fun a => a.id = r.id) = some r := by
  induction records generalizing next with
  | nil => simp [accepted]
  | cons first rest ih =>
    obtain ⟨hfirst, hordered⟩ := List.pairwise_cons.mp hordered
    rw [List.forall_mem_cons] at hids
    rw [List.find?_cons]
    unfold accepted
    by_cases hsame : first.id = r.id
    · simp only [hsame, decide_true]
      split_ifs with hlow hlast
      · rw [ih hordered hids.2]
        exact iff_of_false (by omega) (by omega)
      · exact absurd (hsame.trans hlast) hids.1
      · rw [List.mem_cons, ih hordered hids.2]
        constructor
        · rintro (rfl | ⟨hnext, -⟩)
          · exact ⟨by omega, rfl⟩
          · omega
        · rintro ⟨-, heq⟩
          exact .inl (Option.some.inj heq).symm
    · simp only [hsame, decide_false]
      have hne : r ≠ first := fun heq => hsame (congrArg Record.id heq.symm)
      split_ifs with hlow hlast
      · exact ih hordered hids.2
      · exact absurd hlast hids.1
      · rw [List.mem_cons, or_iff_right hne, ih hordered hids.2]
        -- what comes later has an id that is not below that of the first
        refine and_congr_left fun hfind => ?_
        have hle := hfirst r (List.mem_of_find?_eq_some hfind)
        omega

/-- Restoring a list whose ids are all passed only sweeps the window. -/
theorem restore_of_passed (h : ∀ r ∈ records, r.id < s.nextId) (now : Instant) :
    s.restore records now = { answer := .ok 0, state := s.enforce now } := by
  have hnone : ∀ list : List Record, (∀ r ∈ list, r.id < s.nextId) →
      s.readmitAll list = .ok s := by
    intro list hlist
    induction list with
    | nil => rfl
    | cons r rest ih =>
      rw [List.forall_mem_cons] at hlist
      unfold readmitAll readmit
      rw [if_pos hlist.1]
      exact ih hlist.2
  unfold restore
  rw [hnone _ fun r hr => h r (List.mem_mergeSort.mp hr)]
  simp

/-! ### What is left of the store -/

theorem foldl_push_nextId (s : Store) (records : List Record) (next : Nat) :
    records.foldl push { s with nextId := next } =
      { records.foldl push s with nextId := next } := by
  induction records generalizing s with
  | nil => rfl
  | cons r rest ih => exact ih (s.push r)

/-- Accepting records is pushing them, but for the next id. -/
theorem acceptAll_eq_push (s : Store) (records : List Record) :
    s.acceptAll records =
      { records.foldl push s with nextId := (s.acceptAll records).nextId } := by
  induction records generalizing s with
  | nil => rfl
  | cons r rest ih =>
    have hpush : rest.foldl push (s.accept r) =
        { rest.foldl push (s.push r) with nextId := r.id + 1 } :=
      foldl_push_nextId (s.push r) rest (r.id + 1)
    rw [acceptAll_cons, ih, hpush]
    rfl

/-- The id after the highest of those that the store has not passed, or the next one if there is no
such id. -/
def idPast (next : Nat) (records : List Record) : Nat :=
  ((records.map Record.id).filter (next ≤ ·)).max?.elim next (· + 1)

/-- The ids of the records that are taken are those that the store has not passed. -/
theorem exists_pushed (h : ∀ r ∈ records, r.id < lastId) (now : Instant) (id : Nat) :
    (∃ r ∈ s.pushed (.restore records now), r.id = id) ↔
      id ∈ (records.map Record.id).filter (s.nextId ≤ ·) := by
  have hids := @ids_accepted (sorted records) s.nextId (pairwise_sorted records)
    (fun r hr => Nat.le_of_lt (h r (mem_sorted.mp hr))) id
  refine hids.trans ?_
  simp only [mem_sorted, List.mem_filter, List.mem_map, decide_eq_true_eq]
  constructor
  · rintro ⟨hnext, -, hmem⟩
    exact ⟨hmem, hnext⟩
  · rintro ⟨⟨r, hr, rfl⟩, hnext⟩
    exact ⟨hnext, h r hr, r, hr, rfl⟩

theorem nextId_pushed (h : ∀ r ∈ records, r.id < lastId) (now : Instant) :
    (s.acceptAll (s.pushed (.restore records now))).nextId = idPast s.nextId records := by
  have hids := exists_pushed (s := s) h now
  have hordered := (s.pushed_climbs (.restore records now)).ordered
  rw [nextId_acceptAll, idPast]
  generalize s.pushed (.restore records now) = taken at hids hordered
  cases hlast : taken.getLast? with
  | none =>
    have hnone : (records.map Record.id).filter (s.nextId ≤ ·) = [] := by
      refine List.eq_nil_iff_forall_not_mem.mpr fun id hid => ?_
      obtain ⟨r, hr, -⟩ := (hids id).mpr hid
      rw [List.getLast?_eq_none_iff.mp hlast] at hr
      exact List.not_mem_nil hr
    rw [hnone]
    rfl
  | some last =>
    -- ids rise along the records that are taken, so the last of them has the highest
    have hmax : ((records.map Record.id).filter (s.nextId ≤ ·)).max? = some last.id := by
      refine List.max?_eq_some_iff.mpr ⟨?_, fun id hid => ?_⟩
      · exact (hids last.id).mp ⟨last, List.mem_of_getLast? hlast, rfl⟩
      · obtain ⟨r, hr, rfl⟩ := (hids id).mpr hid
        obtain ⟨before, rfl⟩ := List.getLast?_eq_some_iff.mp hlast
        rcases List.mem_append.mp hr with hr | hr
        · have hcross := (List.pairwise_append.mp hordered).2.2
          have hlt := hcross r hr last (List.mem_singleton_self last)
          omega
        · rw [List.mem_singleton.mp hr]
    rw [hmax]
    rfl

/-- Without the last id readmission does not stop early. -/
theorem readmitAll_eq (h : ∀ r ∈ records, r.id ≠ lastId) :
    s.readmitAll records = .ok (s.acceptAll (accepted s.nextId records)) := by
  rcases s.readmitAll_cases records with hall | hsome
  · exact hall
  · obtain ⟨t, ht⟩ := readmitAll_of_ne (s := s) h
    rw [hsome] at ht
    cases ht

theorem restore_of_lt (s : Store) (h : ∀ r ∈ records, r.id < lastId) (now : Instant) :
    (s.restore records now).answer = .ok (s.pushed (.restore records now)).length ∧
      (s.restore records now).state =
        (s.acceptAll (s.pushed (.restore records now))).enforce now := by
  have hall : s.readmitAll (sorted records) =
      .ok (s.acceptAll (s.pushed (.restore records now))) :=
    readmitAll_eq fun r hr => Nat.ne_of_lt (h r (mem_sorted.mp hr))
  unfold restore
  rw [show s.readmitAll (records.mergeSort _) = _ from hall]
  refine ⟨?_, rfl⟩
  dsimp only
  rw [generation_acceptAll, Nat.add_sub_cancel_left]

/-- **Restoring takes the first record of every id that the store has not passed**, and no other, in
the order of the ids and as it is.  The answer is their number.  They are pushed one after the
other, the next id becomes the one after the highest of them, and then the window is swept once.
Records without an id in common may be given in any order.  A list that has been restored adds
nothing if it is restored once more, at once or after any other calls. -/
theorem restore_takes_first (s : Store) {records : List Record}
    (h : ∀ r ∈ records, r.id < lastId) (now : Instant) :
    let step := s.restore records now
    let taken := s.pushed (.restore records now)
    (taken.Pairwise fun a b => a.id < b.id) ∧
      (∀ r, r ∈ taken ↔
        s.nextId ≤ r.id ∧ records.find? (fun a => a.id = r.id) = some r) ∧
      step.answer = .ok taken.length ∧
      step.state =
        ({ taken.foldl push s with nextId := idPast s.nextId records } : Store).enforce now ∧
      (∀ others : List Record, records.Perm others → (records.map Record.id).Nodup →
        s.restore others now = step) ∧
      ∀ (calls : List Call) (later : Instant),
        let t := step.state.run calls
        t.restore records later = { answer := .ok 0, state := t.enforce later } := by
  intro step taken
  obtain ⟨hanswer, hstate⟩ := s.restore_of_lt h now
  have hnextId : (s.acceptAll taken).nextId = idPast s.nextId records := nextId_pushed h now
  refine ⟨(s.pushed_climbs _).ordered, fun r => ?_, hanswer, ?_, fun others hperm hdistinct => ?_,
    fun calls later => ?_⟩
  · have hmem := @mem_accepted_iff (sorted records) s.nextId (pairwise_sorted records)
      (fun r hr => Nat.ne_of_lt (h r (mem_sorted.mp hr))) r
    exact hmem.trans (and_congr_right fun _ => by rw [find?_sorted])
  · rw [← hnextId, ← acceptAll_eq_push]
    exact hstate
  · have hsame : sorted others = sorted records := (sorted_eq_of_perm hperm hdistinct).symm
    show s.restore others now = s.restore records now
    unfold restore
    rw [show others.mergeSort _ = records.mergeSort _ from hsame]
  · -- every id of the list was passed before, or has been passed with a record of it
    refine restore_of_passed (fun r hr => ?_) later
    have hpassed : r.id < step.state.nextId := by
      have hstep : step.state.nextId = (s.acceptAll taken).nextId := by
        rw [show step.state = _ from hstate]
        rfl
      rw [hstep]
      by_cases hlow : r.id < s.nextId
      · exact Nat.lt_of_lt_of_le hlow (s.pushed_climbs _).acceptAll.1
      · have hid : r.id ∈ (records.map Record.id).filter (s.nextId ≤ ·) :=
          List.mem_filter.mpr ⟨List.mem_map_of_mem hr, decide_eq_true (Nat.not_lt.mp hlow)⟩
        obtain ⟨a, ha, heq⟩ := (exists_pushed h now r.id).mpr hid
        rw [← heq]
        exact (s.pushed_climbs _).acceptAll.2 a ha
    exact Nat.lt_of_lt_of_le hpassed (step.state.nextId_le_run calls)

/-- Records to restore, two of them with the id 7 and one with an id that is passed already. -/
def unsorted : List Record :=
  [(roundTrip 1.0).withId 7, (roundTrip 2.0).withId 1, (roundTrip 3.0).withId 7,
    (roundTrip 4.0).withId 3, (roundTrip 5.0).withId 5]

/-- A window of two takes the two last of three records, the first of those with the id 7 among
them. -/
theorem restore_takes_first_unsorted :
    let s := (empty ⟨2, none⟩).run [.resumeAfter 2]
    let step := s.restore unsorted ⟨100, 0⟩
    (∀ r ∈ unsorted, r.id < lastId) ∧ step.answer = .ok 3 ∧ step.state.nextId = 8 ∧
      step.state.window.toList = [(roundTrip 5.0).withId 5, (roundTrip 1.0).withId 7] ∧
      step.state.restore unsorted ⟨101, 0⟩ =
        { answer := .ok 0, state := step.state.enforce ⟨101, 0⟩ } := by
  intro s step
  have hids : ∀ r ∈ unsorted, r.id < lastId := by decide +kernel
  have hsorted : sorted unsorted =
      [(roundTrip 2.0).withId 1, (roundTrip 4.0).withId 3, (roundTrip 5.0).withId 5,
        (roundTrip 1.0).withId 7, (roundTrip 3.0).withId 7] := by
    simp [sorted, unsorted, List.mergeSort, List.MergeSort.Internal.splitInTwo, Draft.withId]
  have htaken : s.pushed (.restore unsorted ⟨100, 0⟩) =
      [(roundTrip 4.0).withId 3, (roundTrip 5.0).withId 5, (roundTrip 1.0).withId 7] := by
    show accepted 3 (sorted unsorted) = _
    rw [hsorted]
    decide +kernel
  obtain ⟨-, -, hanswer, hstate, -, hagain⟩ := restore_takes_first s hids ⟨100, 0⟩
  rw [htaken] at hanswer hstate
  refine ⟨hids, hanswer, ?_, ?_, hagain [] ⟨101, 0⟩⟩
  · show (s.restore unsorted ⟨100, 0⟩).state.nextId = 8
    rw [hstate]
    decide +kernel
  · show (s.restore unsorted ⟨100, 0⟩).state.window.toList = _
    rw [hstate]
    decide +kernel

end OrderTelemetry.Store
