import OrderTelemetry.Calendar.Date

/-! # The day of a date

The date of a day is found in three steps, which take away whole cycles of four hundred years, then
whole years, then whole months.  The day of a date adds up again what they have taken away, so it is
the day that the date was made from (`Date.toDays_ofDays`), and different days have different dates
(`Date.ofDays_injective`).

Only the second step needs an argument: how many years have passed is not the quotient by the length
of a year, as leap days lie in between (`Date.Placed.yearOfCycle`). -/

namespace OrderTelemetry.Date

/-! ### The year of a cycle -/

/-- A day of a cycle of four hundred years, counted by the centuries, the groups of four years and
the years that have passed.  A fourth year ends with a leap day, but for that of a century that is
not the last one. -/
structure Placed (day centuries groups years rest : Nat) : Prop where
  day_eq : day = 36524 * centuries + 1461 * groups + 365 * years + rest
  centuries_lt : centuries < 4
  groups_lt : groups < 25
  years_lt : years < 4
  rest_lt : rest < 365 ∨ rest = 365 ∧ years = 3 ∧ (groups < 24 ∨ centuries = 3)

variable {day centuries groups years rest : Nat}

theorem exists_placed (h : day < 146097) :
    ∃ centuries groups years rest, Placed day centuries groups years rest := by
  -- the last day of all would begin one more century, group or year
  obtain ⟨c, hc⟩ : ∃ c, c = min (day / 36524) 3 := ⟨_, rfl⟩
  obtain ⟨g, hg⟩ : ∃ g, g = min ((day - 36524 * c) / 1461) 24 := ⟨_, rfl⟩
  obtain ⟨y, hy⟩ : ∃ y, y = min ((day - 36524 * c - 1461 * g) / 365) 3 := ⟨_, rfl⟩
  exact ⟨c, g, y, day - 36524 * c - 1461 * g - 365 * y, by omega, by omega, by omega, by omega,
    by omega⟩

theorem Placed.daysBeforeYear (h : Placed day centuries groups years rest) :
    daysBeforeYear (100 * centuries + 4 * groups + years) =
      36524 * centuries + 1461 * groups + 365 * years := by
  obtain ⟨-, hcenturies, hgroups, hyears, -⟩ := h
  unfold Date.daysBeforeYear
  omega

/-- The year in which a day of a cycle falls. -/
theorem Placed.yearOfCycle (h : Placed day centuries groups years rest) :
    yearOfCycle day = 100 * centuries + 4 * groups + years := by
  obtain ⟨hday, hcenturies, hgroups, hyears, hrest⟩ := h
  have hend : day < 36524 * centuries + 36524 ∨ day = 146096 ∧ centuries = 3 := by omega
  have hlong : day / 36524 = centuries + day / 146096 := by omega
  -- one leap day has passed for each group, and one more on the leap day itself
  have hshort : day / 1460 =
      25 * centuries + groups + (24 * centuries + groups + 365 * years + rest) / 1460 := by omega
  have hleap : (24 * centuries + groups + 365 * years + rest) / 1460 ≤ rest ∧
      rest - (24 * centuries + groups + 365 * years + rest) / 1460 < 365 := by omega
  unfold Date.yearOfCycle
  rw [hlong, hshort]
  generalize (24 * centuries + groups + 365 * years + rest) / 1460 = extra at *
  generalize day / 146096 = last at *
  have hwithout : day - (25 * centuries + groups + extra) + (centuries + last) - last =
      365 * (100 * centuries + 4 * groups + years) + (rest - extra) := by omega
  rw [hwithout]
  omega

/-- A day of a cycle falls in a year of it, at most 365 days after the first day of that year. -/
theorem yearOfCycle_bounds (h : day < 146097) :
    yearOfCycle day < 400 ∧ daysBeforeYear (yearOfCycle day) ≤ day ∧
      day - daysBeforeYear (yearOfCycle day) < 366 := by
  obtain ⟨centuries, groups, years, rest, hplaced⟩ := exists_placed h
  rw [hplaced.yearOfCycle, hplaced.daysBeforeYear]
  obtain ⟨hday, hcenturies, hgroups, hyears, hrest⟩ := hplaced
  omega

/-! ### The month of a year -/

theorem monthOfYear_bounds (h : day < 366) :
    monthOfYear day < 12 ∧ daysBeforeMonth (monthOfYear day) ≤ day ∧
      day - daysBeforeMonth (monthOfYear day) < 31 := by
  unfold monthOfYear daysBeforeMonth
  omega

/-! ### Dates -/

/-- The parts from which the date of a day is made: the cycle, and counted from March the year of
the cycle, the month of the year and the day of the month. -/
theorem exists_parts (days : Int) :
    ∃ (cycle : Int) (year month day : Nat), year < 400 ∧ month < 12 ∧ day < 31 ∧
      ofDays days = ⟨cycle * 400 + year + (if month < 10 then 0 else 1),
        if month < 10 then month + 3 else month - 9, day + 1⟩ ∧
      days = cycle * cycleDays + daysBeforeYear year + daysBeforeMonth month + day - epochOffset := by
  have hcycle : (days + epochOffset) / cycleDays * cycleDays +
      ((days + epochOffset) % cycleDays).toNat = days + epochOffset := by
    unfold epochOffset cycleDays
    omega
  have hlt : ((days + epochOffset) % cycleDays).toNat < 146097 := by
    unfold cycleDays
    omega
  obtain ⟨hyear, hbefore, hrest⟩ := yearOfCycle_bounds hlt
  obtain ⟨hmonth, hbefore', hrest'⟩ := monthOfYear_bounds hrest
  refine ⟨_, _, _, _, hyear, hmonth, hrest', rfl, ?_⟩
  omega

/-- **The day of the date of a day is that day.** -/
@[simp] theorem toDays_ofDays (days : Int) : (ofDays days).toDays = days := by
  obtain ⟨cycle, year, month, day, hyear, hmonth, hday, hdate, hdays⟩ := exists_parts days
  have hquotient : (cycle * 400 + year) / 400 = cycle := by omega
  have hremainder : ((cycle * 400 + year) % 400).toNat = year := by omega
  rw [hdate, hdays]
  unfold toDays
  by_cases hspring : month < 10
  · simp only [if_pos hspring]
    rw [if_neg (by omega), if_neg (by omega), Int.add_zero, hquotient, hremainder]
    simp
  · simp only [if_neg hspring]
    rw [if_pos (by omega), if_pos (by omega), Int.add_sub_cancel, hquotient, hremainder,
      show month - 9 + 9 = month by omega]
    simp

example : ofDays 11016 = ⟨2000, 2, 29⟩ ∧ toDays ⟨2000, 2, 29⟩ = 11016 := by decide +kernel

/-- **Different days have different dates.** -/
theorem ofDays_injective {a b : Int} (h : ofDays a = ofDays b) : a = b := by
  rw [← toDays_ofDays a, h, toDays_ofDays]

/-- Months and days have two digits. -/
theorem ofDays_bounds (days : Int) : (ofDays days).month ≤ 12 ∧ (ofDays days).day ≤ 31 := by
  obtain ⟨cycle, year, month, day, -, hmonth, hday, hdate, -⟩ := exists_parts days
  rw [hdate]
  refine ⟨?_, hday⟩
  show (if month < 10 then month + 3 else month - 9) ≤ 12
  split <;> omega

end OrderTelemetry.Date
