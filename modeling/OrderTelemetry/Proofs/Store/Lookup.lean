import Mathlib.Data.List.Perm.Subperm
import OrderTelemetry.Proofs.Store.Run
import Std.Data.TreeMap.Lemmas

/-! # Looking records up

The store finds a record by a binary search on its id, and the records of an order through an index
that is kept up to date beside the window.  Both are shortcuts for a scan of the window.

* `Store.Rising`: ids rise along the window and stay below the next one, so the search finds what a
  scan finds (`Rising.get?_eq_some_iff`).
* `Store.Indexed`: the index has the ids of the retained records of every order, oldest first, and
  no entry for an order without any.
* `Store.lookups_scan`: after every run all lookups agree with a scan. -/

namespace OrderTelemetry.Store

/-! ### Ids -/

/-- Ids rise along the window and stay below the next id. -/
structure Rising (s : Store) : Prop where
  ordered : s.window.toList.Pairwise fun a b => a.id < b.id
  below : ∀ r ∈ s.window.toList, r.id < s.nextId

theorem Rising.empty (p : Retention) : (empty p).Rising :=
  ⟨by simp [Store.empty], by simp [Store.empty]⟩

theorem Rising.edit {s t : Store} (h : Edit s t) (hs : s.Rising) : t.Rising := by
  obtain ⟨hordered, hbelow⟩ := hs
  cases h with
  | accept r hr =>
    refine ⟨?_, ?_⟩
    · rw [toList_accept, List.pairwise_append]
      refine ⟨hordered, List.pairwise_singleton _ _, fun a ha b hb => ?_⟩
      rw [List.mem_singleton.mp hb]
      exact Nat.lt_of_lt_of_le (hbelow a ha) hr
    · intro a ha
      rw [toList_accept] at ha
      rw [nextId_accept]
      rcases List.mem_append.mp ha with ha | ha
      · have := hbelow a ha
        omega
      · rw [List.mem_singleton.mp ha]; omega
  | raise next hnext => exact ⟨hordered, fun a ha => Nat.lt_of_lt_of_le (hbelow a ha) hnext⟩
  | evict n =>
    refine ⟨?_, fun a ha => hbelow a ?_⟩
    · rw [toList_evict]; exact hordered.drop
    · rw [toList_evict] at ha; exact List.mem_of_mem_drop ha
  | remember => exact ⟨hordered, hbelow⟩

/-- Ids rise after every run, even if calls fail half-way. -/
theorem rising_run (p : Retention) (calls : List Call) : ((empty p).run calls).Rising :=
  run_induction (Rising.empty p) (fun _ _ h => Rising.edit h) calls

/-! ### The search by id -/

theorem search_eq_some {window : Array Record} {id low high : Nat} {r : Record}
    (h : search window id low high = some r) : r ∈ window.toList ∧ r.id = id := by
  fun_induction search window id low high with
  | case1 low high hlt middle hnone => cases h
  | case2 low high hlt middle a ha hid =>
    cases h
    exact ⟨Array.mem_toList_iff.mpr (Array.mem_of_getElem? ha), hid⟩
  | case3 low high hlt middle a ha hid hless ih => exact ih h
  | case4 low high hlt middle a ha hid hless ih => exact ih h
  | case5 low high hlt => cases h

/-- Ids are in the order of the positions. -/
theorem id_lt_iff {window : Array Record}
    (hordered : window.toList.Pairwise fun a b => a.id < b.id) {j k : Nat} {a b : Record}
    (ha : window[j]? = some a) (hb : window[k]? = some b) : a.id < b.id ↔ j < k := by
  have hlt : ∀ {j k : Nat} {a b : Record}, window[j]? = some a → window[k]? = some b →
      j < k → a.id < b.id := by
    intro j k a b ha hb hjk
    rw [← Array.getElem?_toList] at ha hb
    obtain ⟨hj, rfl⟩ := List.getElem?_eq_some_iff.mp ha
    obtain ⟨hk, rfl⟩ := List.getElem?_eq_some_iff.mp hb
    exact List.pairwise_iff_getElem.mp hordered j k hj hk hjk
  refine ⟨fun h => ?_, hlt ha hb⟩
  rcases Nat.lt_trichotomy j k with hjk | rfl | hkj
  · exact hjk
  · rw [ha] at hb
    cases hb
    omega
  · have := hlt hb ha hkj
    omega

/-- A search between two positions finds the record at a position between them. -/
theorem search_getElem {window : Array Record}
    (hordered : window.toList.Pairwise fun a b => a.id < b.id) {low high i : Nat} {r : Record}
    (hr : window[i]? = some r) (hlow : low ≤ i) (hhigh : i < high) (hsize : high ≤ window.size) :
    search window r.id low high = some r := by
  fun_induction search window r.id low high with
  | case1 low high hlt middle hnone =>
    rw [Array.getElem?_eq_none_iff] at hnone
    omega
  | case2 low high hlt middle a ha hid =>
    have hleft := id_lt_iff hordered ha hr
    have hright := id_lt_iff hordered hr ha
    rw [← ha, ← hr, show middle = i by omega]
  | case3 low high hlt middle a ha hid hless ih =>
    have hmiddle := (id_lt_iff hordered ha hr).mp hless
    exact ih (by omega) hhigh hsize
  | case4 low high hlt middle a ha hid hless ih =>
    have hmiddle := (id_lt_iff hordered hr ha).mp (by omega)
    exact ih hlow hmiddle (by omega)
  | case5 low high hlt => omega

/-- The search finds the retained record with an id. -/
theorem Rising.get?_eq_some_iff {s : Store} (hs : s.Rising) {id : Nat} {r : Record} :
    s.get? id = some r ↔ r ∈ s.window.toList ∧ r.id = id := by
  refine ⟨search_eq_some, ?_⟩
  rintro ⟨hr, rfl⟩
  obtain ⟨i, hi⟩ := Array.mem_iff_getElem?.mp (Array.mem_toList_iff.mp hr)
  have hlt : i < s.window.size := (Array.getElem?_eq_some_iff.mp hi).1
  exact search_getElem hs.ordered hi (Nat.zero_le i) hlt (Nat.le_refl _)

/-- The search by id, as a scan. -/
theorem Rising.filter_id {s : Store} (hs : s.Rising) (id : Nat) :
    (s.window.toList.filter fun r => r.id == id) = (s.get? id).toList := by
  have hle : (s.window.toList.filter fun r => r.id == id).Pairwise fun _ _ => False := by
    refine (hs.ordered.filter _).imp_of_mem ?_
    intro a b ha hb hab
    simp only [List.mem_filter, beq_iff_eq] at ha hb
    omega
  have hmem : ∀ r, r ∈ (s.window.toList.filter fun r => r.id == id) ↔ s.get? id = some r := by
    intro r
    rw [hs.get?_eq_some_iff, List.mem_filter, beq_iff_eq]
  cases hfound : (s.window.toList.filter fun r => r.id == id) with
  | nil =>
    cases hget : s.get? id with
    | none => rfl
    | some r => have := (hmem r).mpr hget; rw [hfound] at this; cases this
  | cons r rest =>
    have hget := (hmem r).mp (by rw [hfound]; exact List.mem_cons_self)
    rw [hfound] at hle
    cases rest with
    | nil => rw [hget]; rfl
    | cons a rest => exact (List.rel_of_pairwise_cons hle List.mem_cons_self).elim

/-! ### The index of orders -/

/-- The ids of the records of an order, in the order of the records. -/
def idsOf (records : List Record) (orderId : String) : List Nat :=
  (records.filter fun r => r.orderId == orderId).map Record.id

/-- The index `byOrder` is that of some records: for every order that one of them belongs to it has
the ids, and for no other order an entry. -/
def Indexes (byOrder : Std.TreeMap String (Array Nat)) (records : List Record) : Prop :=
  ∀ orderId : String, byOrder[orderId]? =
    if idsOf records orderId = [] then none else some (idsOf records orderId).toArray

theorem idsOf_append_singleton (records : List Record) (r : Record) (orderId : String) :
    idsOf (records ++ [r]) orderId =
      if r.orderId = orderId then idsOf records orderId ++ [r.id] else idsOf records orderId := by
  unfold idsOf
  split_ifs with horder <;> simp [horder]

theorem idsOf_cons (r : Record) (rest : List Record) (orderId : String) :
    idsOf (r :: rest) orderId =
      if r.orderId = orderId then r.id :: idsOf rest orderId else idsOf rest orderId := by
  unfold idsOf
  split_ifs with horder <;> simp [horder]

theorem mem_idsOf {records : List Record} {orderId : String} {id : Nat} :
    id ∈ idsOf records orderId ↔ ∃ r ∈ records, r.orderId = orderId ∧ r.id = id := by
  simp [idsOf, and_assoc]

section Indexes
variable {byOrder : Std.TreeMap String (Array Nat)} {records rest : List Record} {r : Record}

theorem Indexes.getD (h : Indexes byOrder records) (orderId : String) :
    byOrder[orderId]?.getD #[] = (idsOf records orderId).toArray := by
  rw [h]
  split_ifs with hnil
  · rw [hnil]; rfl
  · rfl

theorem Indexes.push (h : Indexes byOrder records) :
    Indexes (byOrder.insert r.orderId ((byOrder[r.orderId]?.getD #[]).push r.id))
      (records ++ [r]) := by
  intro orderId
  rw [Std.TreeMap.getElem?_insert, idsOf_append_singleton, h.getD]
  simp only [Std.LawfulEqCmp.compare_eq_iff_eq]
  by_cases horder : r.orderId = orderId
  · subst horder
    simp
  · rw [if_neg horder, if_neg horder]
    exact h orderId

/-- The oldest record leaves the index. -/
theorem Indexes.unindex (h : Indexes byOrder (r :: rest)) (hnewer : ∀ a ∈ rest, r.id < a.id) :
    Indexes (unindex byOrder r) rest := by
  have hentry : byOrder[r.orderId]? = some (r.id :: idsOf rest r.orderId).toArray := by
    rw [h, idsOf_cons, if_pos rfl, if_neg (List.cons_ne_nil _ _)]
  have hleft : (r.id :: idsOf rest r.orderId).toArray.filter (· != r.id) =
      (idsOf rest r.orderId).toArray := by
    rw [List.filter_toArray, List.filter_cons_of_neg (by simp), List.filter_eq_self.mpr]
    intro id hid
    obtain ⟨a, ha, -, rfl⟩ := mem_idsOf.mp hid
    have := hnewer a ha
    simp only [bne_iff_ne]
    omega
  intro orderId
  have hold := h orderId
  rw [idsOf_cons] at hold
  unfold Store.unindex
  rw [hentry]
  dsimp only
  rw [hleft]
  by_cases hnil : idsOf rest r.orderId = []
  · rw [if_pos (by simp [hnil]), Std.TreeMap.getElem?_erase]
    simp only [Std.LawfulEqCmp.compare_eq_iff_eq]
    by_cases horder : r.orderId = orderId
    · subst horder
      rw [if_pos rfl, if_pos hnil]
    · rw [if_neg horder] at hold ⊢
      exact hold
  · rw [if_neg (by simpa using hnil), Std.TreeMap.getElem?_insert]
    simp only [Std.LawfulEqCmp.compare_eq_iff_eq]
    by_cases horder : r.orderId = orderId
    · subst horder
      rw [if_pos rfl, if_neg hnil]
    · rw [if_neg horder] at hold ⊢
      exact hold

/-- The oldest records leave the index one after the other. -/
theorem Indexes.drop (h : Indexes byOrder records)
    (hordered : records.Pairwise fun a b => a.id < b.id) (n : Nat) :
    Indexes ((records.take n).foldl Store.unindex byOrder) (records.drop n) := by
  induction n generalizing byOrder records with
  | zero => exact h
  | succ n ih =>
    cases records with
    | nil => exact h
    | cons r rest =>
      obtain ⟨hnewer, hrest⟩ := List.pairwise_cons.mp hordered
      exact ih (h.unindex hnewer) hrest

end Indexes

/-- Ids rise and the index is that of the window. -/
structure Indexed (s : Store) : Prop extends s.Rising where
  index : Indexes s.byOrder s.window.toList

theorem Indexed.edit {s t : Store} (h : Edit s t) (hs : s.Indexed) : t.Indexed := by
  refine ⟨hs.toRising.edit h, ?_⟩
  cases h with
  | accept r hr =>
    rw [toList_accept]
    exact hs.index.push
  | raise next hnext => exact hs.index
  | evict n =>
    rw [toList_evict, byOrder_evict]
    exact hs.index.drop hs.ordered n
  | remember => exact hs.index

theorem indexed_run (p : Retention) (calls : List Call) : ((empty p).run calls).Indexed := by
  refine run_induction ⟨Rising.empty p, fun orderId => ?_⟩
    (fun _ _ h => Indexed.edit h) calls
  simp [empty, idsOf]

/-! ### Lookups as scans -/

section Indexed
variable {s : Store} (hs : s.Indexed)
include hs

theorem Indexed.ofOrder (orderId : String) :
    s.ofOrder orderId = s.window.toList.filter fun r => r.orderId == orderId := by
  unfold Store.ofOrder
  rw [hs.index.getD, idsOf, List.filterMap_map]
  have hfound : ∀ r ∈ s.window.toList.filter (fun r => r.orderId == orderId),
      (s.get? ∘ Record.id) r = some r := fun r hr =>
    hs.get?_eq_some_iff.mpr ⟨List.mem_of_mem_filter hr, rfl⟩
  rw [List.filterMap_congr hfound, List.filterMap_some]

theorem Indexed.mem_byOrder (orderId : String) :
    orderId ∈ s.byOrder ↔ ∃ r ∈ s.window.toList, r.orderId = orderId := by
  rw [Std.TreeMap.mem_iff_isSome_getElem?, hs.index]
  have hmem : idsOf s.window.toList orderId ≠ [] ↔ ∃ r ∈ s.window.toList, r.orderId = orderId := by
    simp [idsOf, List.filter_eq_nil_iff]
  rw [← hmem]
  split_ifs with hnil <;> simp [hnil]

theorem Indexed.ne_empty {orderId : String} {ids : Array Nat}
    (hids : s.byOrder[orderId]? = some ids) : ids ≠ #[] := by
  rw [hs.index] at hids
  split_ifs at hids with hnil
  cases hids
  simpa using hnil

/-- There are no more orders in the index than records in the window. -/
theorem Indexed.size_byOrder_le : s.byOrder.size ≤ s.window.size := by
  have hsub : s.byOrder.keys ⊆ s.window.toList.map fun r => r.orderId := by
    intro orderId hkey
    obtain ⟨r, hr, rfl⟩ := (hs.mem_byOrder orderId).mp (Std.TreeMap.mem_keys.mp hkey)
    exact List.mem_map.mpr ⟨r, hr, rfl⟩
  have hle := (List.subperm_of_subset Std.TreeMap.nodup_keys hsub).length_le
  simpa using hle

end Indexed

/-- **Lookups are scans.**  After every run, whether its calls fail or not, the search by id finds
the one retained record with the id, the lookup by order the retained records of the order, oldest
first, and the index has an entry with ids in it for exactly the orders of the window, so no more of
them than there are records. -/
theorem lookups_scan (p : Retention) (calls : List Call) :
    let s := (empty p).run calls
    (∀ id, (s.window.toList.filter fun r => r.id == id) = (s.get? id).toList) ∧
      (∀ orderId, s.ofOrder orderId = s.window.toList.filter fun r => r.orderId == orderId) ∧
      (∀ orderId, orderId ∈ s.byOrder ↔ ∃ r ∈ s.window.toList, r.orderId = orderId) ∧
      (∀ (orderId : String) (ids : Array Nat), s.byOrder[orderId]? = some ids → ids ≠ #[]) ∧
      s.byOrder.size ≤ s.window.size := by
  have hs := indexed_run p calls
  exact ⟨hs.filter_id, hs.ofOrder, hs.mem_byOrder, fun _ _ => hs.ne_empty, hs.size_byOrder_le⟩

end OrderTelemetry.Store
