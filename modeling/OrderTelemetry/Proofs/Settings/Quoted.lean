import Mathlib.Data.List.TakeWhile
import Mathlib.Tactic.SplitIfs
import OrderTelemetry.Proofs.Text.Hex
import OrderTelemetry.Settings.Toml.Document

/-! # Texts in TOML read back

Every text has a form between quotes, in which quotes, backslashes and control characters are
escaped, and the reader of documents gets the text back from it (`text_quoted`).  So a document can
give a key any text (`parse?_assigning`). -/

namespace OrderTelemetry.Toml

/-- A character between quotes. -/
def escaped (c : Char) : List Char :=
  if c = '"' ∨ c = '\\' then ['\\', c]
  else if isControl c then
    ['\\', 'u', '0', '0', Text.hexDigit (c.toNat / 16), Text.hexDigit (c.toNat % 16)]
  else [c]

/-- A text between quotes. -/
def quoted (s : String) : List Char := '"' :: (s.toList.flatMap escaped ++ ['"'])

theorem toNat_lt_of_isControl {c : Char} (h : isControl c = true) : c.toNat < 0x80 := by
  simp only [isControl, Bool.or_eq_true, Bool.and_eq_true, decide_eq_true_eq] at h
  omega

/-- A control character is read back from its code. -/
theorem escape_control {c : Char} (h : isControl c = true) (rest : List Char) :
    escape ('u' :: '0' :: '0' :: Text.hexDigit (c.toNat / 16) :: Text.hexDigit (c.toNat % 16) ::
      rest) = some (c, rest) := by
  have hcode := toNat_lt_of_isControl h
  have hhigh := Text.hexValue_hexDigit (n := c.toNat / 16) (by omega)
  have hlow := Text.hexValue_hexDigit (n := c.toNat % 16) (by omega)
  have hsum : 16 * (16 * (16 * (16 * 0 + 0) + 0) + c.toNat / 16) + c.toNat % 16 = c.toNat := by
    omega
  have hzero : Text.hexValue '0' = some 0 := rfl
  have hfour : hexNumber 4 0 ('0' :: '0' :: Text.hexDigit (c.toNat / 16) ::
      Text.hexDigit (c.toNat % 16) :: rest) = some (c.toNat, rest) := by
    simp only [hexNumber, hzero, hhigh, hlow, Option.bind_eq_bind, Option.bind_some, hsum]
  have hchar : ofCode c.toNat = some c := by
    have hvalid : c.toNat.isValidChar := c.valid
    unfold ofCode
    rw [if_pos hvalid, Char.ofNat_toNat]
  show (hexNumber 4 0 _ >>= _) = _
  rw [hfour]
  show (ofCode c.toNat >>= _) = _
  rw [hchar]
  rfl

/-- A character is read back from between quotes in one step. -/
theorem basic_escaped (n : Nat) (read : List Char) (c : Char) (rest : List Char) :
    basic (n + 1) read (escaped c ++ rest) = basic n (c :: read) rest := by
  unfold escaped
  split_ifs with hmark hcontrol
  · rcases hmark with rfl | rfl <;> rfl
  · exact congrArg (fun found => found >>= fun p => basic n (p.1 :: read) p.2)
      (escape_control hcontrol rest)
  · rw [not_or] at hmark
    rw [List.cons_append, List.nil_append, basic, if_neg hcontrol]
    · exact hmark.1
    · exact hmark.2

theorem basic_flatMap_escaped {n : Nat} {cs : List Char} (h : cs.length < n)
    (read rest : List Char) :
    basic n read (cs.flatMap escaped ++ '"' :: rest) =
      some (String.ofList (read.reverse ++ cs), rest) := by
  induction cs generalizing n read with
  | nil =>
    obtain ⟨n, rfl⟩ := Nat.exists_eq_add_one.mpr h
    rw [List.append_nil]
    rfl
  | cons c cs ih =>
    obtain ⟨n, rfl⟩ := Nat.exists_eq_add_one.mpr (Nat.zero_lt_of_lt h)
    have hlength : cs.length < n := by simpa using h
    rw [List.flatMap_cons, List.append_assoc, basic_escaped, ih hlength]
    simp

theorem escaped_ne_nil (c : Char) : escaped c ≠ [] := by
  unfold escaped
  split_ifs <;> simp

theorem length_le_flatMap_escaped (cs : List Char) : cs.length ≤ (cs.flatMap escaped).length := by
  induction cs with
  | nil => exact Nat.le_refl _
  | cons c cs ih =>
    have hc := List.length_pos_iff.mpr (escaped_ne_nil c)
    simp only [List.flatMap_cons, List.length_append, List.length_cons]
    omega

/-- **A text reads back** from between quotes. -/
theorem lineText_quoted (s : String) : lineText (quoted s) = some (s, []) := by
  have hlength := length_le_flatMap_escaped s.toList
  show basic _ [] (s.toList.flatMap escaped ++ ['"']) = _
  rw [basic_flatMap_escaped (by rw [List.length_append]; omega)]
  simp

/-- A quote is not the first character of an escaped one. -/
theorem head?_escaped (c : Char) : (escaped c).head? ≠ some '"' := by
  unfold escaped
  split_ifs with hmark
  · simp
  · simp
  · rw [not_or] at hmark
    simpa using hmark.1

theorem text_quoted (s : String) : text (quoted s) = some (s, []) := by
  rw [← lineText_quoted s]
  unfold quoted
  cases hs : s.toList with
  | nil => rfl
  | cons c cs =>
    -- the second character is no quote, so these are not the three that begin several lines
    obtain ⟨d, ds, hd⟩ := List.exists_cons_of_ne_nil (escaped_ne_nil c)
    have hquote := head?_escaped c
    rw [hd] at hquote
    rw [List.flatMap_cons, hd, List.cons_append, List.cons_append]
    unfold text
    split
    · rename_i heq
      have hsecond : d = '"' := (List.cons.inj (List.cons.inj heq).2).1
      exact absurd (congrArg some hsecond) hquote
    · rename_i a _ _ _ _ heq
      have hfirst : '"' = a := (List.cons.inj heq).1
      rw [if_neg fun h => absurd (hfirst.trans h.1) (by decide)]
    · rfl

theorem value_quoted (n : Nat) (s : String) : value (n + 1) (quoted s) = some (.text s, []) := by
  have hvalue : value (n + 1) (quoted s) = (text (quoted s)).map fun p => (.text p.1, p.2) := rfl
  rw [hvalue, text_quoted]
  rfl

/-! ### A document with one text -/

/-- A part of a key that needs no quotes. -/
structure IsBareKey (w : String) : Prop where
  ne_nil : w.toList ≠ []
  bare : w.toList.all isBare = true

instance (w : String) : Decidable (IsBareKey w) :=
  decidable_of_iff (w.toList ≠ [] ∧ w.toList.all isBare = true)
    ⟨fun h => ⟨h.1, h.2⟩, fun h => ⟨h.ne_nil, h.bare⟩⟩

/-- A document that gives a key of a section a text. -/
def assigning (category key s : String) : String :=
  String.ofList (category.toList ++ '.' :: (key.toList ++ ' ' :: '=' :: ' ' :: quoted s))

theorem ne_of_isBare {c d : Char} (h : isBare c = true) (hd : isBare d = false) : c ≠ d := by
  rintro rfl
  rw [h] at hd
  cases hd

theorem skipBlanks_bare {c : Char} (h : isBare c = true) (s : List Char) :
    skipBlanks (c :: s) = c :: s := by
  have hspace := ne_of_isBare h (d := ' ') (by decide)
  have htab := ne_of_isBare h (d := '\t') (by decide)
  exact List.dropWhile_cons_of_neg (by simp [isBlank, hspace, htab])

/-- A line that begins with a key is neither blank nor a comment. -/
theorem skipLines_bare {c : Char} (h : isBare c = true) (n : Nat) (s : List Char) :
    skipLines (n + 1) (c :: s) = c :: s := by
  have hcomment : skipComment (c :: s) = c :: s := by
    unfold skipComment
    split
    · rename_i heq
      exact absurd (List.cons.inj heq).1 (ne_of_isBare h (by decide))
    · rfl
  have hnewline : newline? (c :: s) = none := by
    unfold newline?
    split
    · rename_i heq
      exact absurd (List.cons.inj heq).1 (ne_of_isBare h (by decide))
    · rename_i heq
      exact absurd (List.cons.inj heq).1 (ne_of_isBare h (by decide))
    · rfl
  simp only [skipLines, skipBlanks_bare h, hcomment, hnewline]

/-- A line that begins with a key gives it a value. -/
theorem statement_bare {c : Char} (h : isBare c = true) (r : Reading) (s : List Char) :
    statement r (c :: s) = assignment r (c :: s) := by
  have hbracket : c ≠ '[' := ne_of_isBare h (by decide)
  unfold statement
  split
  · rename_i heq
    exact absurd (List.cons.inj heq).1 hbracket
  · rename_i heq
    exact absurd (List.cons.inj heq).1 hbracket
  · rfl

namespace IsBareKey

variable {w : String} (h : IsBareKey w)
include h

theorem exists_cons : ∃ c cs, w.toList = c :: cs ∧ isBare c = true := by
  obtain ⟨c, cs, heq⟩ := List.exists_cons_of_ne_nil h.ne_nil
  exact ⟨c, cs, heq, List.all_eq_true.mp h.bare c (heq ▸ List.mem_cons_self)⟩

theorem keyPart {d : Char} (hd : isBare d = false) (rest : List Char) :
    keyPart (w.toList ++ d :: rest) = some (w, d :: rest) := by
  obtain ⟨c, cs, heq, hc⟩ := h.exists_cons
  have hbare := List.all_eq_true.mp h.bare
  have htake : (w.toList ++ d :: rest).takeWhile isBare = w.toList := by
    rw [List.takeWhile_append_of_pos hbare, List.takeWhile_cons_of_neg (by simp [hd]),
      List.append_nil]
  have hdrop : (w.toList ++ d :: rest).dropWhile isBare = d :: rest := by
    rw [List.dropWhile_append_of_pos hbare, List.dropWhile_cons_of_neg (by simp [hd])]
  have hquote : ¬ (c = '"' ∨ c = apostrophe) :=
    not_or.mpr ⟨ne_of_isBare hc (by decide), ne_of_isBare hc (by decide)⟩
  have hnonempty : w.toList.isEmpty = false := by rw [heq]; rfl
  rw [heq, List.cons_append] at htake hdrop ⊢
  unfold Toml.keyPart
  dsimp only
  rw [if_neg hquote, htake, hdrop, ← heq, hnonempty]
  simp

end IsBareKey

section Document
variable {category name : String} (hcategory : IsBareKey category) (hname : IsBareKey name)
include hcategory hname

theorem key_assigning (n : Nat) (rest : List Char) :
    key (n + 2) (category.toList ++ '.' :: (name.toList ++ ' ' :: '=' :: rest)) =
      some (([category], name), ' ' :: '=' :: rest) := by
  obtain ⟨c, cs, heq, hc⟩ := hname.exists_cons
  have hskip : skipBlanks (name.toList ++ ' ' :: '=' :: rest) =
      name.toList ++ ' ' :: '=' :: rest := by
    rw [heq, List.cons_append, skipBlanks_bare hc]
  have hlast : key (n + 1) (name.toList ++ ' ' :: '=' :: rest) =
      some (([], name), ' ' :: '=' :: rest) := by
    rw [key, hname.keyPart (by decide)]
    rfl
  have hpoint (s : List Char) : skipBlanks ('.' :: s) = '.' :: s := rfl
  rw [key, hcategory.keyPart (by decide)]
  simp only [Option.bind_eq_bind, Option.bind_some, hpoint, hskip, hlast]
  rfl

theorem assignment_assigning (s : String) :
    assignment ⟨[], []⟩ (assigning category name s).toList =
      some (⟨[(category, .table .dotted [(name, .value (.text s))])], []⟩, []) := by
  obtain ⟨n, hlength⟩ : ∃ n, (assigning category name s).toList.length = n + 1 := by
    obtain ⟨c, cs, heq, -⟩ := hcategory.exists_cons
    exact ⟨_, by rw [assigning, String.toList_ofList, heq]; rfl⟩
  have hkey := key_assigning hcategory hname n (' ' :: quoted s)
  have hskip (c : Char) (hc : isBlank c = false) (t : List Char) :
      skipBlanks (' ' :: c :: t) = c :: t :=
    (List.dropWhile_cons_of_pos (by decide)).trans (List.dropWhile_cons_of_neg (by simp [hc]))
  unfold assignment
  rw [hlength, assigning, String.toList_ofList, hkey]
  simp only [Option.bind_eq_bind, Option.bind_some, hskip '=' (by decide)]
  show (value (n + 1 + 1) (skipBlanks (' ' :: quoted s))).bind _ = _
  rw [quoted, hskip '"' (by decide), ← quoted, value_quoted]
  rfl

/-- **A document can give a key any text.** -/
theorem parse?_assigning (s : String) :
    parse? (assigning category name s) = some [(category, .table [(name, .text s)])] := by
  have hassignment := assignment_assigning hcategory hname s
  obtain ⟨c, cs, heq, hc⟩ : ∃ c cs, (assigning category name s).toList = c :: cs ∧
      isBare c = true := by
    obtain ⟨c, cs, heq, hc⟩ := hcategory.exists_cons
    exact ⟨c, _, by rw [assigning, String.toList_ofList, heq]; rfl, hc⟩
  rw [heq] at hassignment
  have hmark : withoutMark (c :: cs) = c :: cs := if_neg (ne_of_isBare hc (by decide))
  unfold parse?
  rw [heq, hmark]
  show (lines (cs.length + 1 + 1) _ _).map _ = _
  rw [lines, List.length_cons, skipLines_bare hc]
  dsimp only
  rw [statement_bare hc, hassignment]
  rfl

end Document

end OrderTelemetry.Toml
