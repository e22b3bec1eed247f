import OrderTelemetry.Proofs.Export.Chunks

/-! # Reading an export

Whatever the fields are, a reader of comma-separated values gets them back: a field with a comma, a
quote or the end of a line in it stands between quotes, and within quotes only a quote that is not
doubled ends the field.

* `Csv.readField_encoded`: a written field is read up to the separator behind it.
* `Csv.readRows_write`: rows of at least one field are read back.
* `Export.readRows_text`: so is an export, as the names of the columns and one row per record. -/

namespace OrderTelemetry

namespace Csv

/-! ### Fields -/

/-- What stands behind a field: a comma before the next one, or the end of the row. -/
def Separated (rest : List Char) : Prop := ∃ c tail, rest = c :: tail ∧ (c = ',' ∨ c = '\n')

theorem Separated.comma (tail : List Char) : Separated (',' :: tail) := ⟨_, _, rfl, Or.inl rfl⟩

theorem Separated.lineFeed (tail : List Char) : Separated ('\n' :: tail) := ⟨_, _, rfl, Or.inr rfl⟩

/-- The first quote that is not doubled ends a field between quotes. -/
theorem readQuoted_doubled (s : List Char) {rest : List Char} (hrest : Separated rest) :
    readQuoted (doubled s ++ '"' :: rest) = some (s, rest) := by
  induction s with
  | nil =>
    obtain ⟨c, tail, rfl, rfl | rfl⟩ := hrest <;> rfl
  | cons c s ih =>
    by_cases hc : c = '"'
    · have hcons : doubled (c :: s) = '"' :: '"' :: doubled s := by simp [doubled, hc]
      rw [hcons, List.cons_append, List.cons_append, readQuoted, ih, hc]
      rfl
    · have hcons : doubled (c :: s) = c :: doubled s := by simp [doubled, hc]
      rw [hcons, List.cons_append, readQuoted.eq_4 _ _ (fun _ h _ => hc h) hc, ih]
      rfl

/-- A written field is read up to the separator behind it. -/
theorem readField_encoded (s : List Char) {rest : List Char} (hrest : Separated rest) :
    readField (encoded s ++ rest) = some (s, rest) := by
  unfold encoded
  split_ifs with hspecial
  · show readQuoted (doubled s ++ ['"'] ++ rest) = _
    rw [List.append_assoc]
    exact readQuoted_doubled s hrest
  · have hplain : ∀ c ∈ s, (!isSpecial c) = true := by simpa using hspecial
    obtain ⟨c, tail, rfl, hc⟩ := hrest
    have hend : (!isSpecial c) = false := by rcases hc with rfl | rfl <;> rfl
    rw [readField.eq_2, List.takeWhile_append_of_pos hplain, List.dropWhile_append_of_pos hplain,
      List.takeWhile_cons_of_neg (by simp [hend]), List.dropWhile_cons_of_neg (by simp [hend]),
      List.append_nil]
    -- A field without special characters does not begin with a quote, and neither does a separator.
    intro quoted hquoted
    cases s with
    | nil =>
      cases hquoted
      rcases hc with hc | hc <;> cases hc
    | cons d s =>
      cases hquoted
      have := hplain '"' List.mem_cons_self
      cases this

/-! ### Rows -/

/-- The written characters of a row. -/
def rowChars (fields : List (List Char)) : List Char :=
  [','].intercalate (fields.map encoded) ++ ['\n']

theorem toList_row (fields : List String) :
    (row fields).toList = rowChars (fields.map String.toList) := by
  unfold row rowChars
  simp [field, Function.comp_def]

theorem rowChars_singleton (f : List Char) : rowChars [f] = encoded f ++ ['\n'] := by
  simp [rowChars]

theorem rowChars_cons (f g : List Char) (more : List (List Char)) :
    rowChars (f :: g :: more) = encoded f ++ ',' :: rowChars (g :: more) := by
  simp [rowChars]

theorem length_le_rowChars (fields : List (List Char)) :
    fields.length ≤ (rowChars fields).length := by
  induction fields with
  | nil => exact Nat.zero_le _
  | cons f rest ih =>
    cases rest with
    | nil => simp [rowChars_singleton]
    | cons g more =>
      rw [rowChars_cons]
      simp only [List.length_cons, List.length_append] at ih ⊢
      omega

theorem readFrom_comma (n : Nat) (read : List (List Char)) (f tail : List Char) :
    readFrom (n + 1) read (encoded f ++ ',' :: tail) = readFrom n (read ++ [f]) tail := by
  rw [readFrom.eq_3, readField_encoded f (.comma tail)]
  · rfl
  · intro _ h
    simp at h

theorem readFrom_lineFeed (n : Nat) (read : List (List Char)) (f tail : List Char) :
    readFrom (n + 1) read (encoded f ++ '\n' :: tail) =
      (readFrom n [] tail).map fun rows => (read ++ [f]) :: rows := by
  rw [readFrom.eq_3, readField_encoded f (.lineFeed tail)]
  · rw [Option.map_eq_bind]
    rfl
  · intro _ h
    simp at h

/-- A written row is read up to its end. -/
theorem readFrom_rowChars (n : Nat) (read : List (List Char)) {fields : List (List Char)}
    (hfields : fields ≠ []) (rest : List Char) :
    readFrom (n + fields.length) read (rowChars fields ++ rest) =
      (readFrom n [] rest).map fun rows => (read ++ fields) :: rows := by
  induction fields generalizing read with
  | nil => exact absurd rfl hfields
  | cons f later ih =>
    cases later with
    | nil =>
      rw [rowChars_singleton, List.append_assoc]
      exact readFrom_lineFeed n read f rest
    | cons g more =>
      have hmore := ih (read ++ [f]) (List.cons_ne_nil g more)
      rw [List.append_assoc] at hmore
      rw [rowChars_cons, List.append_assoc]
      exact (readFrom_comma _ read f _).trans hmore

theorem readFrom_flatMap {n : Nat} {rows : List (List (List Char))}
    (hrows : ∀ fields ∈ rows, fields ≠ []) (hn : (rows.flatMap rowChars).length < n) :
    readFrom n [] (rows.flatMap rowChars) = some rows := by
  induction rows generalizing n with
  | nil =>
    cases n with
    | zero => cases hn
    | succ n => rfl
  | cons fields rest ih =>
    rw [List.flatMap_cons] at hn ⊢
    rw [List.length_append] at hn
    have hlength := length_le_rowChars fields
    have hrest := ih (n := n - fields.length) (fun g hg => hrows g (List.mem_cons_of_mem _ hg))
      (by omega)
    have hread := readFrom_rowChars (n - fields.length) [] (hrows fields List.mem_cons_self)
      (rest.flatMap rowChars)
    rw [Nat.sub_add_cancel (by omega), hrest] at hread
    exact hread

/-- **Rows are read back**, whatever characters their fields have. -/
theorem readRows_write {rows : List (List String)} (hrows : ∀ fields ∈ rows, fields ≠ []) :
    readRows (String.join (rows.map row)).toList = some (rows.map (List.map String.toList)) := by
  have hchars : (String.join (rows.map row)).toList =
      (rows.map (List.map String.toList)).flatMap rowChars := by
    rw [String.toList_join, List.flatMap_map, List.flatMap_map]
    simp only [toList_row]
  unfold readRows
  rw [hchars]
  refine readFrom_flatMap ?_ (Nat.lt_succ_self _)
  intro fields hfields
  obtain ⟨strings, hstrings, rfl⟩ := List.mem_map.mp hfields
  simpa using hrows strings hstrings

example : row ["a", "b \"c\"", "d,e"] = "a,\"b \"\"c\"\"\",\"d,e\"\n" ∧
    readRows "a,\"b \"\"c\"\"\",\"d,e\"\n".toList =
      some [["a".toList, "b \"c\"".toList, "d,e".toList]] := by decide +kernel

end Csv

namespace Export

/-- **An export is read back** as one row with the names of the columns and then, oldest first, one
row for every record.  Every row has thirteen fields, and those of a record are character for
character the texts that were written, whatever characters are in them. -/
theorem readRows_text (records : Array Record) (format : ExportFormat) :
    let rows := columns :: records.toList.map (rowFields format)
    Csv.readRows (ofRecords records format).text.toList =
        some (rows.map (List.map String.toList)) ∧
      ∀ fields ∈ rows, fields.length = 13 := by
  intro rows
  have hlength : ∀ fields ∈ rows, fields.length = 13 := by
    intro fields hfields
    rcases List.mem_cons.mp hfields with rfl | hfields
    · rfl
    · obtain ⟨r, -, rfl⟩ := List.mem_map.mp hfields
      rfl
  refine ⟨?_, hlength⟩
  rw [text_ofRecords]
  refine Csv.readRows_write fun fields hfields hnil => ?_
  have := hlength fields hfields
  rw [hnil] at this
  cases this

end Export

end OrderTelemetry
