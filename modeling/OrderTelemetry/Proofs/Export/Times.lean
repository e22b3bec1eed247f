import Mathlib.Tactic.SplitIfs
import OrderTelemetry.Proofs.Calendar.Days
import OrderTelemetry.Proofs.Calendar.Earlier
import OrderTelemetry.Proofs.Decimal.Digits
import OrderTelemetry.Settings.Basic

/-! # Times in an export

The usual pattern writes a time as day, month and year, and the hour on a clock with twelve hours
with minute, second and half of the day.  All of these but the year have two digits.  The year has
as many as it needs and perhaps a sign, but what stands before and after it always has the same
length, so the text falls into its parts again.  The parts tell the day (`Date.ofDays_injective`)
and the second of the day (`LocalTime.secondOfDay_eq`), and both tell the second in the zone.

* `LocalTime.ofDigits_twoPlaces`, `LocalTime.yearText_injective`: numbers can be told from their
  texts.
* `LocalTime.toList_standard`: the text after the usual pattern.
* `LocalTime.standard_eq_iff`: two times have the same text if and only if they fall in the same
  second of the zone.
* `ExportSettings.timestamp_eq_iff`: what this means for an export. -/

namespace OrderTelemetry

/-- The pattern of settings that have none. -/
def ExportSettings.standardPattern : String := ({} : ExportSettings).timestampFormat

/-! ### Numbers -/

namespace Decimal

theorem digitValue_ofNat {n : Nat} (h : n < 10) : digitValue (Char.ofNat ('0'.toNat + n)) = n := by
  revert n
  decide

/-- Zeros in front do not count. -/
theorem ofDigits_zeros (count : Nat) (cs : List Char) :
    ofDigits (List.replicate count '0' ++ cs) = ofDigits cs := by
  induction count with
  | zero => rfl
  | succ count ih => exact ih

theorem ofDigits_zeroPadded (width n : Nat) : ofDigits (Text.zeroPadded width n).toList = n := by
  unfold Text.zeroPadded
  rw [String.toList_append, String.toList_ofList, ofDigits_zeros, Nat.toList_repr, ofDigits_toDigits]

/-- A number with zeros in front has no sign. -/
theorem splitSign_zeroPadded (width n : Nat) :
    splitSign (Text.zeroPadded width n).toList = (false, (Text.zeroPadded width n).toList) := by
  unfold Text.zeroPadded
  rw [String.toList_append, String.toList_ofList, Nat.toList_repr]
  cases width - n.repr.length with
  | zero => exact splitSign_toDigits n
  | succ count => rfl

end Decimal

namespace LocalTime

open Decimal

theorem toList_twoPlaces (n : Nat) :
    (twoPlaces .zero n).toList =
      [Char.ofNat ('0'.toNat + n / 10), Char.ofNat ('0'.toNat + n % 10)] := by
  unfold twoPlaces
  dsimp only
  split
  · rename_i h; cases h
  · rename_i h; cases h
  · rw [String.toList_ofList]

@[simp] theorem length_twoPlaces (n : Nat) : (twoPlaces .zero n).toList.length = 2 := by
  rw [toList_twoPlaces]
  rfl

/-- A number below a hundred can be told from its two places. -/
theorem ofDigits_twoPlaces {n : Nat} (h : n < 100) : ofDigits (twoPlaces .zero n).toList = n := by
  rw [toList_twoPlaces]
  unfold ofDigits
  rw [List.foldl_cons, List.foldl_cons, List.foldl_nil, digitValue_ofNat (by omega),
    digitValue_ofNat (by omega)]
  omega

theorem twoPlaces_injective {m n : Nat} (hm : m < 100) (hn : n < 100)
    (h : (twoPlaces .zero m).toList = (twoPlaces .zero n).toList) : m = n := by
  rw [← ofDigits_twoPlaces hm, h, ofDigits_twoPlaces hn]

/-- The sign in front of a year and its digits. -/
theorem toList_yearText (year : Int) :
    (yearText .zero year).toList =
      (if year < 0 then ['-'] else if year ≤ 9999 then [] else ['+']) ++
        (Text.zeroPadded 4 year.natAbs).toList := by
  unfold yearText padded
  by_cases hnegative : year < 0
  · rw [if_neg (by omega), if_pos hnegative, if_pos hnegative, String.toList_append]
    rfl
  · by_cases hfour : year ≤ 9999
    · rw [if_pos (by omega), if_neg hnegative, if_neg hnegative, if_pos hfour, String.toList_append]
      rfl
    · rw [if_neg (by omega), if_neg hnegative, if_neg hnegative, if_neg hfour, String.toList_append]
      rfl

theorem splitSign_yearText (year : Int) :
    splitSign (yearText .zero year).toList =
      (decide (year < 0), (Text.zeroPadded 4 year.natAbs).toList) := by
  rw [toList_yearText]
  by_cases hnegative : year < 0
  · rw [if_pos hnegative, decide_eq_true hnegative]
    rfl
  · rw [if_neg hnegative, decide_eq_false hnegative]
    by_cases hfour : year ≤ 9999
    · rw [if_pos hfour, List.nil_append, splitSign_zeroPadded]
    · rw [if_neg hfour]
      rfl

/-- A year can be told from its text. -/
theorem yearText_injective {a b : Int}
    (h : (yearText .zero a).toList = (yearText .zero b).toList) : a = b := by
  have hsplit := congrArg splitSign h
  rw [splitSign_yearText, splitSign_yearText, Prod.mk.injEq, decide_eq_decide] at hsplit
  have hsize := congrArg ofDigits hsplit.2
  rw [ofDigits_zeroPadded, ofDigits_zeroPadded] at hsize
  omega

/-! ### The usual pattern -/

/-- The text of the time of day. -/
def clock (t : LocalTime) : List Char :=
  (twoPlaces .zero t.hour12).toList ++ ':' :: ((twoPlaces .zero t.minute).toList ++
    ':' :: ((twoPlaces .zero t.second).toList ++ ' ' :: [if t.isAfternoon then 'P' else 'A', 'M']))

theorem length_clock (t : LocalTime) : t.clock.length = 11 := by
  simp [clock]

/-- A time after the usual pattern. -/
theorem toList_standard (t : LocalTime) :
    (t.format ExportSettings.standardPattern).toList =
      (twoPlaces .zero t.date.day).toList ++ '-' :: ((twoPlaces .zero t.date.month).toList ++
        '-' :: ((yearText .zero t.date.year).toList ++ ' ' :: t.clock)) := by
  have hitems : Pattern.parse? ExportSettings.standardPattern =
      some [.numeric .day .zero, .literal '-', .numeric .month .zero, .literal '-',
        .numeric .year .zero, .literal ' ', .numeric .hour12 .zero, .literal ':',
        .numeric .minute .zero, .literal ':', .numeric .second .zero, .literal ' ',
        .upperHalf] := by decide +kernel
  have htext : t.format ExportSettings.standardPattern =
      String.join [twoPlaces .zero t.date.day, "-", twoPlaces .zero t.date.month, "-",
        yearText .zero t.date.year, " ", twoPlaces .zero t.hour12, ":", twoPlaces .zero t.minute,
        ":", twoPlaces .zero t.second, " ", if t.isAfternoon then "PM" else "AM"] := by
    unfold format
    rw [hitems]
    rfl
  rw [htext]
  unfold clock
  cases t.isAfternoon <;> simp [String.join]

/-! ### What the parts tell -/

variable {t u : LocalTime}

theorem secondOfDay_lt (t : LocalTime) : t.secondOfDay < 86400 := by
  unfold secondOfDay
  omega

/-- The second in the zone is that of the day and the seconds of the days before. -/
theorem timestamp_add_offset (t : LocalTime) :
    t.timestamp + t.offset = t.days * 86400 + t.secondOfDay := by
  unfold days secondOfDay
  omega

/-- The hour on a clock with twelve hours and the half of the day tell the hour. -/
theorem hour_eq (hhour : t.hour12 = u.hour12) (hhalf : t.isAfternoon = u.isAfternoon) :
    t.hour = u.hour := by
  have ht := t.secondOfDay_lt
  have hu := u.secondOfDay_lt
  have htwelve {a : LocalTime} : a.hour12 % 12 = a.hour % 12 := by
    unfold hour12
    split_ifs with hnoon
    · exact hnoon.symm
    · exact Nat.mod_mod _ 12
  have hmod : t.hour % 12 = u.hour % 12 := by rw [← htwelve, hhour, htwelve]
  simp only [isAfternoon, decide_eq_decide] at hhalf
  unfold hour at hmod hhalf ⊢
  omega

theorem second_of_regular (h : t.nanos < 1000000000) : t.second = t.secondOfDay % 60 := by
  unfold second
  omega

/-- The time on the clock tells the second of the day. -/
theorem secondOfDay_eq (ht : t.nanos < 1000000000) (hu : u.nanos < 1000000000)
    (hhour : t.hour = u.hour) (hminute : t.minute = u.minute) (hsecond : t.second = u.second) :
    t.secondOfDay = u.secondOfDay := by
  rw [second_of_regular ht, second_of_regular hu] at hsecond
  unfold hour at hhour
  unfold minute at hminute
  omega

theorem clock_injective (ht : t.nanos < 1000000000) (hu : u.nanos < 1000000000)
    (h : t.clock = u.clock) : t.secondOfDay = u.secondOfDay := by
  have hsixty {a : LocalTime} (ha : a.nanos < 1000000000) :
      a.hour12 < 100 ∧ a.minute < 100 ∧ a.second < 100 := by
    rw [second_of_regular ha]
    unfold hour12 minute
    split_ifs <;> omega
  obtain ⟨hthour, htminute, htsecond⟩ := hsixty ht
  obtain ⟨huhour, huminute, husecond⟩ := hsixty hu
  obtain ⟨hhour, h⟩ := List.append_inj h (by simp)
  obtain ⟨hminute, h⟩ := List.append_inj (List.cons.inj h).2 (by simp)
  obtain ⟨hsecond, h⟩ := List.append_inj (List.cons.inj h).2 (by simp)
  have hhalf : t.isAfternoon = u.isAfternoon := by
    cases hta : t.isAfternoon <;> cases hua : u.isAfternoon <;> simp [hta, hua] at h ⊢
  exact secondOfDay_eq ht hu (hour_eq (twoPlaces_injective hthour huhour hhour) hhalf)
    (twoPlaces_injective htminute huminute hminute) (twoPlaces_injective htsecond husecond hsecond)

/-- **The usual pattern tells the second in the zone, and nothing finer.** -/
theorem standard_eq_iff (ht : t.nanos < 1000000000) (hu : u.nanos < 1000000000) :
    t.format ExportSettings.standardPattern = u.format ExportSettings.standardPattern ↔
      t.timestamp + t.offset = u.timestamp + u.offset := by
  have hbounds (days : Int) : (Date.ofDays days).month < 100 ∧ (Date.ofDays days).day < 100 := by
    have := Date.ofDays_bounds days
    omega
  rw [← String.toList_inj, toList_standard, toList_standard]
  constructor
  · intro h
    obtain ⟨hday, h⟩ := List.append_inj h (by simp)
    obtain ⟨hmonth, h⟩ := List.append_inj (List.cons.inj h).2 (by simp)
    -- the year has no fixed length, but the clock after it has
    obtain ⟨hyear, h⟩ := List.append_inj' (List.cons.inj h).2 (by simp [length_clock])
    have hdate : t.date = u.date := by
      have hday := twoPlaces_injective (hbounds t.days).2 (hbounds u.days).2 hday
      have hmonth := twoPlaces_injective (hbounds t.days).1 (hbounds u.days).1 hmonth
      have hyear := yearText_injective hyear
      revert hday hmonth hyear
      unfold date
      cases Date.ofDays t.days
      cases Date.ofDays u.days
      rintro ⟨⟩ ⟨⟩ ⟨⟩
      rfl
    rw [timestamp_add_offset, timestamp_add_offset, Date.ofDays_injective hdate,
      clock_injective ht hu (List.cons.inj h).2]
  · intro h
    have hday : t.days = u.days := by
      unfold days
      rw [h]
    have hsecond : t.secondOfDay = u.secondOfDay := by
      unfold secondOfDay
      rw [h]
    have hclock : t.clock = u.clock := by
      unfold clock hour12 isAfternoon hour minute
      rw [second_of_regular ht, second_of_regular hu, hsecond]
    unfold date
    rw [hday, hclock]

end LocalTime

/-! ### Exports -/

/-- **An export loses the fraction of the second and nothing else.**  With the usual pattern and any
offset that can be set, two instants of the calendar have the same text if and only if they fall in
the same second. -/
theorem ExportSettings.timestamp_eq_iff {settings : ExportSettings}
    (hpattern : settings.timestampFormat = standardPattern) {f : ExportFormat}
    (hformat : settings.format = .ok f) {t u : Instant} (ht : t.Regular) (hu : u.Regular) :
    f.timestamp t = f.timestamp u ↔ t.seconds = u.seconds := by
  have hf : f.pattern = standardPattern := by
    unfold format at hformat
    split at hformat
    · cases hformat
    · split at hformat
      · cases hformat
        exact hpattern
      · cases hformat
  have hiff := LocalTime.standard_eq_iff (t := .ofInstant t f.offset) (u := .ofInstant u f.offset)
    ht.nanos hu.nanos
  unfold ExportFormat.timestamp
  rw [hf, hiff]
  exact Int.add_left_inj f.offset

/-- At the first second of the calendar, in a zone where it is the day before.  The fraction of the
second does not count, the next second does. -/
theorem ExportSettings.timestamp_eq_iff_border :
    let settings : ExportSettings := { utcOffsetMinutes := -1439 }
    let first : Instant := ⟨Instant.firstSecond, 0⟩
    let later : Instant := ⟨Instant.firstSecond, 999999999⟩
    let next : Instant := ⟨Instant.firstSecond + 1, 0⟩
    settings.timestampFormat = standardPattern ∧
      ∃ f, settings.format = .ok f ∧ first.Regular ∧ later.Regular ∧ next.Regular ∧
        f.timestamp later = "31-12--262144 12:01:00 AM" ∧ f.timestamp later = f.timestamp first ∧
        f.timestamp later ≠ f.timestamp next := by
  intro settings first later next
  have hformat : ∃ f, settings.format = .ok f ∧ f.offset = -86340 ∧ f.pattern = standardPattern := by
    unfold format
    rw [if_neg (by decide), if_pos (by decide +kernel)]
    exact ⟨_, rfl, rfl, rfl⟩
  obtain ⟨f, hformat, hoffset, hpattern⟩ := hformat
  have husual : settings.timestampFormat = standardPattern := rfl
  have hfirst : first.Regular := by decide
  have hlater : later.Regular := by decide
  have hnext : next.Regular := by decide
  refine ⟨husual, f, hformat, hfirst, hlater, hnext, ?_, ?_, ?_⟩
  · unfold ExportFormat.timestamp
    rw [hoffset, hpattern]
    decide +kernel
  · exact (timestamp_eq_iff husual hformat hlater hfirst).mpr rfl
  · exact fun h => absurd ((timestamp_eq_iff husual hformat hlater hnext).mp h) (by decide)

end OrderTelemetry
