import Mathlib.Data.List.TakeWhile
import Mathlib.Tactic.SplitIfs
import OrderTelemetry.Text.Blank

/-! # Trimming

What is left of a text has no blank character at its ends, so trimming once is enough (`trim_trim`).
Two texts have the same left if and only if they are the same but for blank characters around them
(`trim_eq_trim_iff`). -/

namespace OrderTelemetry.Text

theorem trimStart_of_head? {s : List Char} (h : ∀ c ∈ s.head?, isBlank c = false) :
    trimStart s = s := by
  cases s with
  | nil => rfl
  | cons c s => exact List.dropWhile_cons_of_neg (by simp [h c rfl])

theorem head?_trimStart (s : List Char) : ∀ c ∈ (trimStart s).head?, isBlank c = false := by
  intro c hc
  have hhead := List.head?_dropWhile_not isBlank s
  unfold trimStart at hc
  rw [Option.mem_def.mp hc] at hhead
  exact hhead

theorem trimEnd_prefix (s : List Char) : trimEnd s <+: s := by
  have hsuffix := List.reverse_prefix.mpr (List.dropWhile_suffix (l := s.reverse) isBlank)
  rwa [List.reverse_reverse] at hsuffix

theorem trimEnd_trimEnd (s : List Char) : trimEnd (trimEnd s) = trimEnd s := by
  unfold trimEnd
  rw [List.reverse_reverse]
  exact congrArg List.reverse (trimStart_of_head? (head?_trimStart s.reverse))

/-- What begins with no blank character still does when the end is cut. -/
theorem head?_trimEnd {s : List Char} (h : ∀ c ∈ s.head?, isBlank c = false) :
    ∀ c ∈ (trimEnd s).head?, isBlank c = false := by
  intro c hc
  obtain ⟨rest, hrest⟩ := trimEnd_prefix s
  refine h c ?_
  rw [← hrest, List.head?_append, Option.mem_def.mp hc]
  rfl

@[simp] theorem trim_trim (s : String) : trim (trim s) = trim s := by
  unfold trim
  rw [String.toList_ofList, trimStart_of_head? (head?_trimEnd (head?_trimStart _)),
    trimEnd_trimEnd]

/-! ### What trimming does not see -/

/-- A text is made of some characters and blank ones around them. -/
def Surrounds (s : String) (core : List Char) : Prop :=
  ∃ before after : List Char, (∀ c ∈ before, isBlank c = true) ∧ (∀ c ∈ after, isBlank c = true) ∧
    s.toList = before ++ core ++ after

/-- Two texts are the same but for blank characters around them. -/
def SameInside (s t : String) : Prop := ∃ core, Surrounds s core ∧ Surrounds t core

theorem trimStart_eq_nil {s : List Char} (h : ∀ c ∈ s, isBlank c = true) : trimStart s = [] :=
  List.dropWhile_eq_nil_iff.mpr h

theorem trimEnd_append_blank (s : List Char) {after : List Char}
    (h : ∀ c ∈ after, isBlank c = true) : trimEnd (s ++ after) = trimEnd s := by
  unfold trimEnd
  rw [List.reverse_append, List.dropWhile_append_of_pos fun c hc => h c (List.mem_reverse.mp hc)]

/-- Blank characters around a text go, and the rest is trimmed as it would be alone. -/
theorem Surrounds.trim_eq {s : String} {core : List Char} (h : Surrounds s core) :
    trim s = String.ofList (trimEnd (trimStart core)) := by
  obtain ⟨before, after, hbefore, hafter, hs⟩ := h
  have hstart : trimStart s.toList = trimStart (core ++ after) := by
    rw [hs, List.append_assoc]
    exact List.dropWhile_append_of_pos hbefore
  have hend : trimEnd (trimStart (core ++ after)) = trimEnd (trimStart core) := by
    unfold trimStart
    rw [List.dropWhile_append]
    -- if nothing is left of the core, the blanks after it go from the front
    split_ifs with hnil
    · rw [List.isEmpty_iff.mp hnil]
      exact congrArg trimEnd (trimStart_eq_nil hafter)
    · exact trimEnd_append_blank _ hafter
  unfold trim
  rw [hstart, hend]

/-- A text is made of what trimming leaves and blank characters around it. -/
theorem surrounds_trim (s : String) : Surrounds s (trim s).toList := by
  refine ⟨s.toList.takeWhile isBlank, ((trimStart s.toList).reverse.takeWhile isBlank).reverse,
    fun c hc => List.mem_takeWhile_imp hc,
    fun c hc => List.mem_takeWhile_imp (List.mem_reverse.mp hc), ?_⟩
  have hend (t : List Char) : trimEnd t ++ (t.reverse.takeWhile isBlank).reverse = t := by
    unfold trimEnd
    rw [← List.reverse_append, List.takeWhile_append_dropWhile, List.reverse_reverse]
  unfold trim
  rw [String.toList_ofList, List.append_assoc, hend]
  exact List.takeWhile_append_dropWhile.symm

/-- A text is not blank if and only if one of its characters is not. -/
theorem blank_eq_false_iff {s : String} :
    blank s = false ↔ ∃ c ∈ s.toList, isBlank c = false := by
  constructor
  · intro h
    by_contra hnone
    have hall : ∀ c ∈ s.toList, isBlank c = true := fun c hc =>
      (Bool.eq_false_or_eq_true (isBlank c)).resolve_right fun hfalse => hnone ⟨c, hc, hfalse⟩
    have htrim : trim s = "" := by
      unfold trim
      rw [trimStart_eq_nil hall]
      rfl
    rw [blank, htrim] at h
    cases h
  · rintro ⟨c, hc, hcharacter⟩
    obtain ⟨before, after, hbefore, hafter, hs⟩ := surrounds_trim s
    by_contra hblank
    have hnothing : (trim s).toList = [] := by simpa [blank] using hblank
    rw [hnothing, List.append_nil] at hs
    rw [hs] at hc
    have hall := (List.mem_append.mp hc).elim (hbefore c) (hafter c)
    rw [hcharacter] at hall
    cases hall

/-- **Trimming leaves the same of two texts if and only if they differ in blank characters around
them only.** -/
theorem trim_eq_trim_iff {s t : String} : trim s = trim t ↔ SameInside s t := by
  constructor
  · intro h
    have ht := surrounds_trim t
    rw [← h] at ht
    exact ⟨_, surrounds_trim s, ht⟩
  · rintro ⟨core, hs, ht⟩
    rw [hs.trim_eq, ht.trim_eq]

-- a blank character need not be a space, and one without width is not blank
example : trim " \u2003mkt\u3000\n" = trim "mkt" ∧ trim "\u200bmkt" ≠ trim "mkt" := by
  decide +kernel

end OrderTelemetry.Text
