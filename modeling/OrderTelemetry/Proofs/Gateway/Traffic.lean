import OrderTelemetry.Proofs.Calendar.Millis
import OrderTelemetry.Proofs.Gateway.Admission
import OrderTelemetry.Proofs.Store.Lookup
import OrderTelemetry.Proofs.Store.Statistics

/-! # A gateway in use

While the service runs, the gateway takes submissions, its store is swept, and someone reads the
statistics, in any order.  Whatever happens, the store accounts for its window, and each of the
records in it has passed the gateway: its latencies are finite and its time is cut down to whole
milliseconds (`Gateway.Sound`). -/

namespace OrderTelemetry

/-- A record that has passed the gateway. -/
structure Record.Passed (r : Record) : Prop where
  latencies : ∀ x ∈ r.latencies.values, x.isFinite = true ∧ ¬ x < 0.0
  first : -0x8000000000000000 ≤ r.timestamp.millis
  last : r.timestamp.millis ≤ 0xFFFFFFFFFFFFFFFF
  whole : r.timestamp.truncated = r.timestamp

theorem Submission.Admissible.passed {x : Submission} {now : Instant} (h : x.Admissible)
    (htime : (x.timestamp.getD now).OnCalendar) (id : Nat) :
    ((x.normalForm now).withId id).Passed := by
  obtain ⟨hfirst, hlast⟩ := htime.millis_bounds
  rw [← Instant.millis_truncated] at hfirst hlast
  exact ⟨h.latencies, hfirst, hlast, Instant.truncated_truncated _⟩

namespace Gateway

/-- What may happen while the service runs. -/
inductive Event where
  | submit (x : Submission) (now : Instant)
  | sweep (now : Instant)
  /-- Someone reads the statistics. -/
  | stats

/-- The time of a submission, or else the one at which it comes in, is on the calendar. -/
def Event.OnCalendar : Event → Prop
  | submit x now => (x.timestamp.getD now).OnCalendar
  | _ => True

/-- The gateway after an event. -/
def next (g : Gateway) : Event → Gateway
  | .submit x now => (g.submit x now).state
  | .sweep now => { g with store := (g.store.evictExpired now).2 }
  | .stats => { g with store := g.store.stats.state }

/-- The gateway after some events. -/
def run (g : Gateway) (events : List Event) : Gateway := events.foldl next g

/-- What is true of a gateway in use. -/
structure Sound (g : Gateway) : Prop where
  accounted : g.store.Accounted
  rising : g.store.Rising
  ids : g.store.nextId ≤ Store.lastId
  passed : ∀ r ∈ g.store.window.toList, r.Passed

variable {g : Gateway}

theorem Sound.empty {p : Retention} (h : g.store = .empty p) : g.Sound := by
  refine ⟨?_, ?_, ?_, ?_⟩
  · rw [h]; exact Store.accounted_run p []
  · rw [h]; exact Store.Rising.empty p
  · rw [h]; exact (by decide : 1 ≤ Store.lastId)
  · rw [h]; simp [Store.empty]

/-- Records that leave the front of the window leave the rest as it is. -/
theorem Sound.evict (h : g.Sound) (n : Nat) :
    ({ g with store := g.store.evict n } : Gateway).Sound :=
  ⟨h.accounted.edit (.evict _ n), h.rising.edit (.evict _ n), h.ids, fun r hr => by
    rw [Store.toList_evict] at hr
    exact h.passed r (List.mem_of_mem_drop hr)⟩

theorem Sound.storing (h : g.Sound) {r : Record} (hr : r.Passed) (hid : r.id = g.store.nextId)
    (hlast : g.store.nextId ≠ Store.lastId) (now : Instant) : (g.storing r now).Sound := by
  have haccept : Store.Edit g.store (g.store.accept r) := .accept _ r (Nat.le_of_eq hid.symm)
  have hids := h.ids
  have haccepted : ({ g with store := g.store.accept r } : Gateway).Sound := by
    refine ⟨h.accounted.edit haccept, h.rising.edit haccept, ?_, fun a ha => ?_⟩
    · rw [Store.nextId_accept]
      omega
    · rw [Store.toList_accept] at ha
      rcases List.mem_append.mp ha with ha | ha
      · exact h.passed a ha
      · rwa [List.mem_singleton.mp ha]
  obtain ⟨haccounted, hrising, hids, hpassed⟩ :=
    haccepted.evict ((g.store.accept r).surplus now)
  exact ⟨haccounted, hrising, hids, hpassed⟩

/-- **Whatever happens to a gateway in use, it stays sound.** -/
theorem Sound.next (h : g.Sound) {e : Event} (he : e.OnCalendar) : (g.next e).Sound := by
  cases e with
  | submit x now =>
    rcases g.submit_cases x now with ⟨e, -, hstate⟩ | ⟨hx, hid, -, hstate⟩
    · rw [Gateway.next, hstate]
      exact h
    · rw [Gateway.next, hstate]
      exact h.storing (hx.passed he _) rfl hid now
  | sweep now =>
    simp only [Gateway.next, Store.evictExpired]
    split_ifs with hage
    · exact h
    · exact h.evict _
  | stats =>
    exact ⟨h.accounted.edit (.remember _), h.rising.edit (.remember _), h.ids, h.passed⟩

theorem Sound.run (h : g.Sound) {events : List Event} (hevents : ∀ e ∈ events, e.OnCalendar) :
    (g.run events).Sound := by
  induction events generalizing g with
  | nil => exact h
  | cons e rest ih =>
    rw [List.forall_mem_cons] at hevents
    exact ih (h.next hevents.1) hevents.2

/-- Ids have sixty-four bits, and so has the number of records. -/
theorem Sound.length_le (h : g.Sound) : g.store.window.toList.length ≤ Store.lastId := by
  have hnodup : (g.store.window.toList.map Record.id).Nodup :=
    (List.pairwise_map.mpr h.rising.ordered).imp Nat.ne_of_lt
  have hsub : g.store.window.toList.map Record.id ⊆ List.range g.store.nextId := by
    intro id hid
    obtain ⟨r, hr, rfl⟩ := List.mem_map.mp hid
    exact List.mem_range.mpr (h.rising.below r hr)
  have hlength := (hnodup.subperm hsub).length_le
  rw [List.length_map, List.length_range] at hlength
  exact Nat.le_trans hlength h.ids

end Gateway

end OrderTelemetry
