import OrderTelemetry.Proofs.Json.Entries
import OrderTelemetry.Proofs.Text.Blank
import OrderTelemetry.Settings.Environment

/-! # How a variable spells a text

The text of a variable is taken for a truth value or a number if it can be read as one, and a
setting that is a text is then written anew.  What comes of the text (`Environment.respelled`) is
another one if it is not spelled in the way in which truth values and numbers are written: `TRUE`,
`007`, `+5` and `1.50` become `true`, `7`, `5` and `1.5`.

* `Environment.respelled_eq_iff`: which texts stay as they are.
* `Environment.standard_of_mem`: a character that no number has keeps a text as it is, so the path
  of a file in a directory stays. -/

namespace OrderTelemetry

/-! ### Texts that are read as values -/

namespace Decimal

/-- Whether a character can stand in the text of a truth value or a number: a letter, a digit, a
point or a sign. -/
def isNumeral (c : Char) : Bool := c.isAlphanum || c = '.' || c = '+' || c = '-'

variable {c : Char} {s : List Char}

theorem isNumeral_of_isDigit (h : isDigit c = true) : isNumeral c = true := by
  rw [isDigit_eq] at h
  simp [isNumeral, Char.isAlphanum, h]

/-- A character whose small form is a letter or a digit is one itself. -/
theorem isNumeral_of_toLower (h : c.toLower.isAlphanum = true) : isNumeral c = true := by
  by_cases hupper : c.isUpper = true
  · have halphanum : (c.isUpper || c.isLower || c.isDigit) = true := by simp [hupper]
    have hc : c.isAlphanum = true := halphanum
    simp [isNumeral, hc]
  · have hsame : c.toLower = c := dif_neg fun hrange => hupper (decide_eq_true hrange)
    rw [hsame] at h
    simp [isNumeral, h]

/-- A word of letters is one in whatever case it is written. -/
theorem isNumeral_of_word {w : String} (h : String.ofList (s.map Char.toLower) = w)
    (hw : w.toList.all Char.isAlphanum = true) : ∀ c ∈ s, isNumeral c = true := by
  intro c hc
  subst h
  rw [String.toList_ofList] at hw
  exact isNumeral_of_toLower (List.all_eq_true.mp hw _ (List.mem_map_of_mem hc))

theorem isNumeral_of_natural? {n : Nat} (h : natural? s = some n) :
    ∀ c ∈ s, isNumeral c = true := by
  intro c hc
  unfold natural? at h
  split_ifs at h with hdigits
  simp only [Bool.or_eq_true, Bool.not_eq_true', not_or, Bool.not_eq_false] at hdigits
  exact isNumeral_of_isDigit (List.all_eq_true.mp hdigits.2 c hc)

/-- A sign may stand in front. -/
theorem isNumeral_of_splitSign (h : ∀ c ∈ (splitSign s).2, isNumeral c = true) :
    ∀ c ∈ s, isNumeral c = true := by
  unfold splitSign at h
  split at h
  · exact List.forall_mem_cons.mpr ⟨by decide, h⟩
  · exact List.forall_mem_cons.mpr ⟨by decide, h⟩
  · exact h

theorem isNumeral_of_exponent? {e : Int} (h : exponent? s = some e) :
    ∀ c ∈ s, isNumeral c = true := by
  cases s with
  | nil => exact fun _ hc => nomatch hc
  | cons letter rest =>
    unfold exponent? at h
    dsimp only at h
    by_cases hletter : letter = 'e' ∨ letter = 'E'
    · rw [if_pos hletter] at h
      obtain ⟨k, hread, -⟩ := Option.map_eq_some_iff.mp h
      obtain ⟨n, hdigits, -⟩ := Option.bind_eq_some_iff.mp hread
      have hfirst : isNumeral letter = true := by rcases hletter with rfl | rfl <;> decide
      exact List.forall_mem_cons.mpr
        ⟨hfirst, isNumeral_of_splitSign (isNumeral_of_natural? hdigits)⟩
    · rw [if_neg hletter] at h
      cases h

/-- Digits may stand in front. -/
theorem isNumeral_of_dropWhile (h : ∀ c ∈ s.dropWhile isDigit, isNumeral c = true) :
    ∀ c ∈ s, isNumeral c = true := by
  intro c hc
  rw [← List.takeWhile_append_dropWhile (p := isDigit) (l := s)] at hc
  rcases List.mem_append.mp hc with hdigit | hrest
  · exact isNumeral_of_isDigit (List.mem_takeWhile_imp hdigit)
  · exact h c hrest

theorem isNumeral_of_unsignedReal? {x : Float} (h : unsignedReal? s = some x) :
    ∀ c ∈ s, isNumeral c = true := by
  unfold unsignedReal? at h
  dsimp only at h
  split_ifs at h with hinf hnan hnone
  · rcases hinf with hinf | hinf
    · exact isNumeral_of_word hinf (by decide)
    · exact isNumeral_of_word hinf (by decide)
  · exact isNumeral_of_word hnan (by decide)
  · obtain ⟨e, hexponent, -⟩ := Option.map_eq_some_iff.mp h
    refine isNumeral_of_dropWhile ?_
    split at hexponent
    · rename_i fraction heq
      rw [heq]
      exact List.forall_mem_cons.mpr
        ⟨by decide, isNumeral_of_dropWhile (isNumeral_of_exponent? hexponent)⟩
    · exact isNumeral_of_exponent? hexponent

/-- The text of a whole number has no other characters. -/
theorem isNumeral_of_int64? {s : String} {n : Int} (h : int64? s = some n) :
    ∀ c ∈ s.toList, isNumeral c = true := by
  unfold int64? wholeBetween at h
  refine isNumeral_of_splitSign ?_
  split at h
  all_goals
    rename_i rest _ heq
    rw [heq]
  · rw [if_neg (by decide)] at h
    obtain ⟨k, hdigits, -⟩ := Option.bind_eq_some_iff.mp h
    exact isNumeral_of_natural? hdigits
  · obtain ⟨k, hdigits, -⟩ := Option.bind_eq_some_iff.mp h
    exact isNumeral_of_natural? hdigits

/-- The text of a real number has no other characters. -/
theorem isNumeral_of_real? {s : String} {x : Float} (h : real? s = some x) :
    ∀ c ∈ s.toList, isNumeral c = true := by
  unfold real? at h
  obtain ⟨y, hunsigned, -⟩ := Option.map_eq_some_iff.mp h
  exact isNumeral_of_splitSign (isNumeral_of_unsignedReal? hunsigned)

end Decimal

namespace Environment

open Decimal

/-- A word for a truth value has no other characters. -/
theorem isNumeral_of_lower {s : String} {b : Bool} (h : Text.lower s = toString b) :
    ∀ c ∈ s.toList, isNumeral c = true := by
  intro c hc
  have hmem : Text.lowerChar c ∈ (toString b).toList := by
    rw [← h, Text.lower, String.toList_ofList]
    exact List.mem_map_of_mem hc
  have hletters : ((toString b).toList.all fun d => d.isAlphanum && d != 'k') = true := by
    cases b <;> decide
  have hletter := List.all_eq_true.mp hletters _ hmem
  rw [Bool.and_eq_true, bne_iff_ne] at hletter
  obtain ⟨halphanum, hkelvin⟩ := hletter
  unfold Text.lowerChar at halphanum hkelvin
  split_ifs at halphanum hkelvin
  · exact absurd rfl hkelvin
  · exact isNumeral_of_toLower halphanum

/-! ### The text that comes of a text -/

/-- What a setting that is a text becomes if a variable gives it. -/
def respelled (s : String) : String :=
  if Text.lower s = "true" then "true"
  else if Text.lower s = "false" then "false"
  else match int64? s, real? s with
    | some n, _ => toString n
    | none, some x => plain x
    | none, none => s

theorem text?_settingOf (s : String) : (settingOf s).text? = some (respelled s) := by
  unfold settingOf respelled
  dsimp only
  split_ifs
  · rfl
  · rfl
  · cases int64? s with
    | some n => rfl
    | none => cases real? s <;> rfl

/-- A text is spelled in the way in which the truth value or the number is written that it stands
for, if it stands for one. -/
structure Standard (s : String) : Prop where
  truth : ∀ b : Bool, Text.lower s = toString b → s = toString b
  whole : ∀ n, int64? s = some n → s = toString n
  real : ∀ x, int64? s = none → real? s = some x → s = plain x

/-- The words for the truth values stand for nothing else. -/
theorem standard_truth (b : Bool) : Standard (toString b) where
  truth other h := by
    cases b <;> cases other
    case false.false | true.true => rfl
    all_goals exact absurd h (by decide)
  whole n h := by
    have hnone : int64? (toString b) = none := by cases b <;> decide +kernel
    rw [hnone] at h
    cases h
  real x _ h := by
    have hnone : (real? (toString b)).isNone = true := by cases b <;> decide +kernel
    rw [h] at hnone
    cases hnone

/-- **A text stays as it is if and only if it is spelled in the standard way.** -/
theorem respelled_eq_iff (s : String) : respelled s = s ↔ Standard s := by
  unfold respelled
  split_ifs with htrue hfalse
  · exact ⟨fun h => h ▸ standard_truth true, fun h => (h.truth true htrue).symm⟩
  · exact ⟨fun h => h ▸ standard_truth false, fun h => (h.truth false hfalse).symm⟩
  · have hword : ∀ b : Bool, Text.lower s = toString b → s = toString b := by
      rintro (_ | _) hb
      · exact absurd hb hfalse
      · exact absurd hb htrue
    cases hint : int64? s with
    | some n =>
      refine ⟨fun h => ⟨hword, fun k hk => ?_, fun _ hnone => ?_⟩, fun h => (h.whole n hint).symm⟩
      · rw [hint] at hk
        cases hk
        exact h.symm
      · rw [hint] at hnone
        cases hnone
    | none => cases hreal : real? s with
      | some x =>
        refine ⟨fun h => ⟨hword, fun k hk => ?_, fun y _ hy => ?_⟩,
          fun h => (h.real x hint hreal).symm⟩
        · rw [hint] at hk
          cases hk
        · rw [hreal] at hy
          cases hy
          exact h.symm
      | none =>
        refine ⟨fun _ => ⟨hword, fun k hk => ?_, fun y _ hy => ?_⟩, fun _ => rfl⟩
        · rw [hint] at hk
          cases hk
        · rw [hreal] at hy
          cases hy

example : respelled "TRUE" = "true" ∧ respelled "+80" = "80" ∧ respelled "80 " = "80 " := by
  decide +kernel

/-- A text with a character that no truth value or number has stays as it is. -/
theorem standard_of_mem {s : String} {c : Char} (hc : c ∈ s.toList) (h : isNumeral c = false) :
    Standard s where
  truth b hb := absurd (isNumeral_of_lower hb c hc) (by simp [h])
  whole n hn := absurd (isNumeral_of_int64? hn c hc) (by simp [h])
  real x _ hx := absurd (isNumeral_of_real? hx c hc) (by simp [h])

/-! ### Blank texts -/

theorem isBlank_of_isDigit {c : Char} (h : isDigit c = true) : Text.isBlank c = false := by
  simp only [isDigit, Bool.and_eq_true, decide_eq_true_eq, Char.le_def,
    UInt32.le_iff_toNat_le] at h
  change 48 ≤ c.toNat ∧ c.toNat ≤ 57 at h
  simp only [Text.isBlank, Text.blankRanges, List.any_cons, List.any_nil, Bool.or_eq_false_iff,
    Bool.and_eq_false_iff, decide_eq_false_iff_not, and_true]
  omega

/-- The text of a number begins with a sign or a digit. -/
theorem blank_of_beginsNumber {s : String} (h : Json.BeginsNumber s.toList) :
    Text.blank s = false := by
  obtain ⟨c, t, heq, hc⟩ := h
  refine Text.blank_eq_false_iff.mpr ⟨c, heq ▸ List.mem_cons_self, ?_⟩
  rw [Json.beginsNumber, Bool.or_eq_true, decide_eq_true_eq] at hc
  rcases hc with rfl | hdigit
  · decide
  · exact isBlank_of_isDigit hdigit

theorem blank_append {t : String} (s : String) (h : Text.blank t = false) :
    Text.blank (s ++ t) = false := by
  obtain ⟨c, hc, hcharacter⟩ := Text.blank_eq_false_iff.mp h
  refine Text.blank_eq_false_iff.mpr ⟨c, ?_, hcharacter⟩
  rw [String.toList_append]
  exact List.mem_append_right _ hc

theorem blank_plain (x : Float) : Text.blank (plain x) = false := by
  unfold plain
  split
  · decide +kernel
  · exact blank_append _ (by decide +kernel)
  · split_ifs
    · exact blank_append _ (by decide +kernel)
    · exact blank_append _ (blank_of_beginsNumber (Json.beginsNumber_positional _))

/-- What comes of a text that is not blank is not blank. -/
theorem blank_respelled {s : String} (h : Text.blank s = false) :
    Text.blank (respelled s) = false := by
  unfold respelled
  split_ifs
  · decide +kernel
  · decide +kernel
  · cases int64? s with
    | some n => exact blank_of_beginsNumber (Json.beginsNumber_negative n)
    | none => cases real? s with
      | some x => exact blank_plain x
      | none => exact h

end Environment

end OrderTelemetry
