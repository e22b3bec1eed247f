import OrderTelemetry.Proofs.Calendar.Earlier

/-! # Whole milliseconds

Instants are stored by the number of their milliseconds.  Outside leap seconds this number gives an
instant back but for what is finer than a millisecond, so one that has been cut down before comes
back as it was. -/

namespace OrderTelemetry.Instant

variable {t : Instant}

/-- The number of milliseconds gives the instant of the whole millisecond back. -/
theorem Regular.ofMillis?_millis (ht : t.Regular) :
    ofMillis? t.millis = some ⟨t.seconds, t.nanos / 1000000 * 1000000⟩ := by
  obtain ⟨hfirst, hlast, hnanos⟩ := ht
  have hseconds : t.millis / 1000 = t.seconds := by
    unfold millis
    omega
  have hmillis : (t.millis % 1000).toNat = t.nanos / 1000000 := by
    unfold millis
    omega
  have hin : inCalendar t.seconds = true := by simp [inCalendar, hfirst, hlast]
  unfold ofMillis?
  rw [hseconds, hmillis, if_pos hin]

theorem Regular.truncated_eq (ht : t.Regular) :
    t.truncated = ⟨t.seconds, t.nanos / 1000000 * 1000000⟩ := by
  unfold truncated
  rw [ht.ofMillis?_millis]
  rfl

theorem Regular.truncated (ht : t.Regular) : t.truncated.Regular := by
  obtain ⟨hfirst, hlast, hnanos⟩ := ht
  rw [Regular.truncated_eq ⟨hfirst, hlast, hnanos⟩]
  exact ⟨hfirst, hlast, by dsimp only; omega⟩

theorem Regular.truncated_truncated (ht : t.Regular) : t.truncated.truncated = t.truncated := by
  rw [ht.truncated.truncated_eq, ht.truncated_eq]
  simp

/-- An instant that has been cut down is given back by its milliseconds. -/
theorem Regular.ofMillis?_truncated (ht : t.Regular) :
    ofMillis? t.truncated.millis = some t.truncated := by
  rw [ht.truncated.ofMillis?_millis, ← ht.truncated.truncated_eq, ht.truncated_truncated]

/-! ### Any instant -/

theorem millis_ofMillis? {ms : Int} {u : Instant} (h : ofMillis? ms = some u) : u.millis = ms := by
  unfold ofMillis? at h
  by_cases hin : inCalendar (ms / 1000) = true
  · rw [if_pos hin] at h
    cases h
    unfold millis
    dsimp only
    omega
  · rw [if_neg hin] at h
    cases h

/-- The milliseconds of the calendar fit into sixty-four bits. -/
theorem millis_bounds (h : (ofMillis? t.millis).isSome) :
    -0x8000000000000000 ≤ t.millis ∧ t.millis ≤ 0xFFFFFFFFFFFFFFFF := by
  have hin : inCalendar (t.millis / 1000) = true := by
    refine Decidable.byContradiction fun hout => ?_
    unfold ofMillis? at h
    rw [if_neg hout] at h
    cases h
  simp only [inCalendar, Bool.and_eq_true, decide_eq_true_eq] at hin
  unfold firstSecond lastSecond at hin
  omega

/-- Cutting down an instant leaves the number of its milliseconds. -/
theorem millis_truncated (t : Instant) : t.truncated.millis = t.millis := by
  unfold truncated
  cases hms : ofMillis? t.millis with
  | none => rfl
  | some u => exact millis_ofMillis? hms

/-- An instant is cut down once, also if the calendar does not have its milliseconds. -/
theorem truncated_truncated (t : Instant) : t.truncated.truncated = t.truncated := by
  have hmillis := t.millis_truncated
  rw [truncated, hmillis]
  unfold truncated
  cases ofMillis? t.millis with
  | none => rfl
  | some u => rfl

/-- An instant of the calendar, in a leap second or not. -/
structure OnCalendar (t : Instant) : Prop where
  first : firstSecond ≤ t.seconds
  last : t.seconds ≤ lastSecond
  nanos : t.nanos < 2000000000

instance (t : Instant) : Decidable t.OnCalendar :=
  decidable_of_iff (firstSecond ≤ t.seconds ∧ t.seconds ≤ lastSecond ∧ t.nanos < 2000000000)
    ⟨fun h => ⟨h.1, h.2.1, h.2.2⟩, fun h => ⟨h.first, h.last, h.nanos⟩⟩

/-- The milliseconds of an instant fit into sixty-four bits, also those of the last leap second. -/
theorem OnCalendar.millis_bounds (h : t.OnCalendar) :
    -0x8000000000000000 ≤ t.millis ∧ t.millis ≤ 0xFFFFFFFFFFFFFFFF := by
  obtain ⟨hfirst, hlast, hnanos⟩ := h
  unfold firstSecond at hfirst
  unfold lastSecond at hlast
  unfold millis
  omega

end OrderTelemetry.Instant
