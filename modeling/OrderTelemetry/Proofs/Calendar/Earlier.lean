import OrderTelemetry.Calendar.Instant

/-! # Exact steps back in time

`Instant.minus?` has no answer if a step back leaves the calendar.  `Instant.earlier` always has
one, which may lie before the first second.  From an instant outside leap seconds the two agree
wherever the first has an answer, and where it has none no instant of the calendar comes before the
exact one (`minus?_cases`). -/

namespace OrderTelemetry.Instant

/-- The nanoseconds since 1970. -/
def total (t : Instant) : Int := t.seconds * 1000000000 + t.nanos

/-- The instant a length of time earlier, in the calendar or not. -/
def earlier (t : Instant) (d : Duration) : Instant :=
  ⟨(t.total - d.nanos) / 1000000000, ((t.total - d.nanos) % 1000000000).toNat⟩

/-- An instant of the calendar that does not lie in a leap second. -/
structure Regular (t : Instant) : Prop where
  first : firstSecond ≤ t.seconds
  last : t.seconds ≤ lastSecond
  nanos : t.nanos < 1000000000

instance (t : Instant) : Decidable t.Regular :=
  decidable_of_iff (firstSecond ≤ t.seconds ∧ t.seconds ≤ lastSecond ∧ t.nanos < 1000000000)
    ⟨fun h => ⟨h.1, h.2.1, h.2.2⟩, fun h => ⟨h.first, h.last, h.nanos⟩⟩

theorem before_iff {a b : Instant} :
    a.before b = true ↔ a.seconds < b.seconds ∨ a.seconds = b.seconds ∧ a.nanos < b.nanos := by
  simp [before]

/-- What comes before an instant also comes before all later ones. -/
theorem before_of_before_of_not_before {a b c : Instant} (hab : a.before b = true)
    (hcb : ¬ c.before b = true) : a.before c = true := by
  rw [before_iff] at hab hcb ⊢
  omega

theorem total_le_of_not_before {t u : Instant} (ht : t.Regular) (hu : u.Regular)
    (h : ¬ u.before t = true) : t.total ≤ u.total := by
  have hnt := ht.nanos
  have hnu := hu.nanos
  rw [before_iff] at h
  unfold total
  omega

/-- The same step from a later instant does not end earlier. -/
theorem not_earlier_before_earlier {t u : Instant} (h : t.total ≤ u.total) (d : Duration) :
    ¬ (u.earlier d).before (t.earlier d) = true := by
  rw [before_iff]
  simp only [earlier]
  omega

theorem longest_nanos : Duration.longest.nanos = 9223372036854775807000000 := rfl

/-- A step back has the exact answer, unless that lies before the calendar. -/
theorem minus?_cases {t : Instant} (ht : t.Regular) (d : Duration) :
    t.minus? d = some (t.earlier d) ∨
      (t.minus? d = none ∧ (t.earlier d).seconds < firstSecond) := by
  obtain ⟨hfirst, hlast, hnanos⟩ := ht
  have hleap : ¬ (t.isLeap = true ∧ d.nanos < 1000000000) := by
    simp only [isLeap, decide_eq_true_eq]
    omega
  have hend : (t.earlier d).seconds ≤ lastSecond := by
    simp only [earlier, total]
    omega
  unfold minus?
  by_cases hlong : Duration.longest.nanos < d.nanos
  · rw [if_pos hlong]
    refine Or.inr ⟨rfl, ?_⟩
    rw [longest_nanos] at hlong
    simp only [earlier, total, firstSecond, lastSecond] at hlast ⊢
    omega
  · rw [if_neg hlong, if_neg hleap]
    by_cases hin : inCalendar (t.earlier d).seconds = true
    · exact Or.inl (if_pos hin)
    · refine Or.inr ⟨if_neg hin, ?_⟩
      simp only [inCalendar, Bool.and_eq_true, decide_eq_true_eq, not_and] at hin
      exact Int.not_le.mp fun hge => hin hge hend

end OrderTelemetry.Instant
