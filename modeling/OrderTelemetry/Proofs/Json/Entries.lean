import OrderTelemetry.Json.Codec
import OrderTelemetry.Proofs.Json.Lexical

/-! # Entries of lists and objects

The text of a value begins with a character that is no blank and closes nothing (`Begins`), so a
reader that stands in front of an entry finds it, with a comma before it unless it is the first one
(`joined`, `nextEntry_entry`), and a reader behind the last entry finds the closing character
(`nextEntry_closing`). -/

namespace OrderTelemetry.Json

/-! ### How a text begins -/

/-- A character that a value can begin with. -/
def opens (c : Char) : Bool := !isSpace c && c != ']' && c != '}'

/-- The text begins like that of a value. -/
def Begins (s : List Char) : Prop := ∃ c t, s = c :: t ∧ opens c = true

theorem Begins.append {s : List Char} (h : Begins s) (t : List Char) : Begins (s ++ t) := by
  obtain ⟨c, u, rfl, hc⟩ := h
  exact ⟨c, u ++ t, rfl, hc⟩

theorem Begins.ne_nil {s : List Char} (h : Begins s) : s ≠ [] := by
  obtain ⟨c, t, rfl, -⟩ := h
  exact List.cons_ne_nil c t

theorem opens_of_beginsNumber {c : Char} (h : beginsNumber c = true) : opens c = true := by
  have hspace := isSpace_of_beginsNumber h
  have hbracket : c ≠ ']' := by rintro rfl; exact absurd h (by decide)
  have hbrace : c ≠ '}' := by rintro rfl; exact absurd h (by decide)
  simp [opens, hspace, hbracket, hbrace]

theorem skipSpace_cons {c : Char} (h : isSpace c = false) (s : List Char) :
    skipSpace (c :: s) = c :: s :=
  List.dropWhile_cons_of_neg (by simp [h])

/-! ### Numbers begin with a minus sign or a digit -/

/-- The text begins like that of a number. -/
def BeginsNumber (s : List Char) : Prop := ∃ c t, s = c :: t ∧ beginsNumber c = true

theorem BeginsNumber.begins {s : List Char} (h : BeginsNumber s) : Begins s := by
  obtain ⟨c, t, rfl, hc⟩ := h
  exact ⟨c, t, rfl, opens_of_beginsNumber hc⟩

theorem BeginsNumber.head?_ne {s : List Char} (h : BeginsNumber s) : s.head? ≠ some 'n' := by
  obtain ⟨c, t, rfl, hc⟩ := h
  rintro heq
  cases heq
  exact absurd hc (by decide)

theorem BeginsNumber.append {s : String} (h : BeginsNumber s.toList) (t : String) :
    BeginsNumber (s ++ t).toList := by
  obtain ⟨c, u, heq, hc⟩ := h
  exact ⟨c, u ++ t.toList, by rw [String.toList_append, heq]; rfl, hc⟩

theorem BeginsNumber.splitText {s : String} (h : BeginsNumber s.toList) {n : Nat} (hn : 0 < n) :
    BeginsNumber (Decimal.splitText n s).1.toList := by
  obtain ⟨c, u, heq, hc⟩ := h
  obtain ⟨n, rfl⟩ := Nat.exists_eq_add_one.mpr hn
  exact ⟨c, u.take n, by simp [Decimal.splitText, heq], hc⟩

theorem beginsNumber_repr (n : Nat) : BeginsNumber n.repr.toList := by
  obtain ⟨c, cs, heq, hdigit⟩ := exists_toDigits_eq_cons n
  exact ⟨c, cs, by rw [Nat.toList_repr, heq], by simp [beginsNumber, hdigit]⟩

theorem beginsNumber_positional (d : Decimal.Digits) : BeginsNumber d.positional.toList := by
  have hdigits := beginsNumber_repr d.digits
  unfold Decimal.Digits.positional
  dsimp only
  split_ifs with hwhole hpoint
  · exact hdigits.append _
  · exact ((hdigits.splitText (by omega)).append ".").append _
  · exact (BeginsNumber.append ⟨'0', ['.'], rfl, rfl⟩ _).append _

theorem beginsNumber_scientific (d : Decimal.Digits) : BeginsNumber d.scientific.toList := by
  have hfirst := (beginsNumber_repr d.digits).splitText Nat.one_pos
  unfold Decimal.Digits.scientific
  dsimp only
  refine BeginsNumber.append (BeginsNumber.append ?_ _) _
  split_ifs
  · exact hfirst
  · exact (hfirst.append ".").append _

theorem beginsNumber_json {x : Float} {s : String} (h : Decimal.json x = some s) :
    BeginsNumber s.toList := by
  unfold Decimal.json at h
  split at h
  · cases h
  · cases h
  · rename_i negative m q heq
    have hsign : ∀ t : String, BeginsNumber t.toList →
        BeginsNumber (Decimal.sign negative ++ t).toList := by
      intro t ht
      cases negative with
      | false => simpa [Decimal.sign] using ht
      | true => exact ⟨'-', t.toList, by simp [Decimal.sign], rfl⟩
    have hbody := beginsNumber_positional (Decimal.shortest m q)
    split_ifs at h with hzero <;> cases h <;> apply hsign
    · exact ⟨'0', ['.', '0'], rfl, rfl⟩
    · split_ifs
      · exact hbody.append _
      · exact hbody
      · exact beginsNumber_scientific _

theorem beginsNumber_negative (n : Int) : BeginsNumber (Number.negative n).render.toList := by
  cases n with
  | ofNat k => exact beginsNumber_repr k
  | negSucc k =>
    refine ⟨'-', (k + 1).repr.toList, ?_, rfl⟩
    simp [Number.render, Int.toString_eq_repr, Int.repr_eq_if]

theorem begins_number (x : Number) : Begins x.render.toList := by
  cases x with
  | natural n => exact (beginsNumber_repr n).begins
  | negative n => exact (beginsNumber_negative n).begins
  | real x =>
    show Begins ((Decimal.json x).getD "null").toList
    cases hx : Decimal.json x with
    | none => exact ⟨'n', ['u', 'l', 'l'], rfl, rfl⟩
    | some s => exact (beginsNumber_json hx).begins

/-- The text of every value begins like one. -/
theorem begins_render (x : Json) : Begins x.render.toList := by
  cases x with
  | null => exact ⟨'n', ['u', 'l', 'l'], by simp [render], rfl⟩
  | bool b =>
    cases b with
    | false => exact ⟨'f', ['a', 'l', 's', 'e'], by simp [render], rfl⟩
    | true => exact ⟨'t', ['r', 'u', 'e'], by simp [render], rfl⟩
  | number n => simpa [render] using begins_number n
  | text s => exact ⟨'"', _, by simp [render, toList_quoted]; rfl, rfl⟩
  | list items => exact ⟨'[', _, by simp [render]; rfl, rfl⟩
  | object members => exact ⟨'\x7b', _, by simp [render]; rfl, rfl⟩

/-! ### Entries with commas between them -/

/-- An entry, after a comma unless it is the first. -/
def entry (first : Bool) (t : List Char) : List Char := if first then t else ',' :: t

theorem entry_append (first : Bool) (t u : List Char) :
    entry first t ++ u = entry first (t ++ u) := by
  cases first <;> rfl

/-- The entries of a bracket, from the first one or from a later one on. -/
def joined : Bool → List (List Char) → List Char
  | _, [] => []
  | first, t :: ts => entry first t ++ joined false ts

theorem joined_eq_intercalate (ts : List (List Char)) : joined true ts = [','].intercalate ts := by
  induction ts with
  | nil => rfl
  | cons t ts ih =>
    cases ts with
    | nil => simp [joined, entry]
    | cons u ts =>
      rw [List.intercalate_cons_cons, ← ih]
      simp [joined, entry]

theorem toList_intercalate (ts : List String) :
    (",".intercalate ts).toList = joined true (ts.map String.toList) := by
  rw [joined_eq_intercalate, String.toList_intercalate]
  rfl

variable {closing : Char}

theorem ends_joined (hclosing : closing = ']' ∨ closing = '}') (ts : List (List Char))
    (rest : List Char) : Ends (joined false ts ++ closing :: rest) := by
  cases ts with
  | nil => rcases hclosing with rfl | rfl <;> simp [joined]
  | cons t ts => exact ends_comma _

theorem length_le_joined (ts : List (List Char)) (h : ∀ t ∈ ts, Begins t) (first : Bool) :
    ts.length ≤ (joined first ts).length := by
  induction ts generalizing first with
  | nil => exact Nat.zero_le _
  | cons t ts ih =>
    have ht := List.length_pos_iff.mpr (h t List.mem_cons_self).ne_nil
    have hts := ih (fun t ht => h t (List.mem_cons_of_mem _ ht)) false
    have hentry : t.length ≤ (entry first t).length := by cases first <;> simp [entry]
    simp only [joined, List.length_append, List.length_cons]
    omega

/-- A reader in front of an entry finds it. -/
theorem nextEntry_entry (hclosing : closing = ']' ∨ closing = '}') {t : List Char} (h : Begins t)
    (first : Bool) : nextEntry closing first (entry first t) = .ok (some t) := by
  obtain ⟨c, u, rfl, hc⟩ := h
  simp only [opens, Bool.and_eq_true, Bool.not_eq_true', bne_iff_ne, ne_eq] at hc
  obtain ⟨⟨hspace, hbracket⟩, hbrace⟩ := hc
  have hne : c ≠ closing := by rcases hclosing with rfl | rfl <;> assumption
  have hskip := skipSpace_cons hspace u
  cases first with
  | true =>
    unfold nextEntry entry
    rw [if_pos rfl, hskip]
    simp [hne]
  | false =>
    have hcomma : ',' ≠ closing := by rcases hclosing with rfl | rfl <;> decide
    unfold nextEntry entry
    rw [if_neg (by decide), skipSpace_cons (by decide)]
    simp [hne, hcomma, hskip]

/-- A reader behind the last entry finds the end. -/
theorem nextEntry_closing (hclosing : closing = ']' ∨ closing = '}') (first : Bool)
    (rest : List Char) : nextEntry closing first (closing :: rest) = .ok none := by
  have hspace : isSpace closing = false := by rcases hclosing with rfl | rfl <;> decide
  unfold nextEntry
  rw [skipSpace_cons hspace]
  exact if_pos rfl

theorem expect_cons {c : Char} (h : isSpace c = false) (s : List Char) :
    expect c (c :: s) = .ok s := by
  unfold expect
  rw [skipSpace_cons h]
  exact if_pos rfl

end OrderTelemetry.Json
