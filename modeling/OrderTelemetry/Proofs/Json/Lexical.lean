import Mathlib.Data.List.TakeWhile
import Mathlib.Tactic.SplitIfs
import OrderTelemetry.Json.Codec
import OrderTelemetry.Proofs.Decimal.Digits
import OrderTelemetry.Proofs.Text.Hex

/-! # Parts that read back

The parts of a JSON text that have no inner structure are read back as they were written, whatever
stands behind them.  For a string its closing quote is the end.  A number ends where a character
comes that no number goes on with (`Ends`), so a comma or a closing bracket may follow at once.

* `readText_quoted`: a string with all its escapes.
* `readNumeric_natural`, `readNumeric_negative`: whole numbers of sixty-four bits.
* `readNumeric_append`: a number that reads back on its own does so in front of anything that ends
  it.  This is all that is needed of a real number, whose digits have laws of their own. -/

namespace OrderTelemetry.Json

/-! ### Steps one after the other -/

section Steps
variable {ε α β : Type} {r : Except ε α} {f : α → Except ε β}

theorem ok_bind (a : α) : (Except.ok a >>= f) = f a := rfl

theorem error_bind (e : ε) : (Except.error e >>= f) = .error e := rfl

theorem bind_eq_ok {b : β} : r >>= f = .ok b ↔ ∃ a, r = .ok a ∧ f a = .ok b := by
  cases r with
  | error e => simp [error_bind]
  | ok a => simp [ok_bind]

end Steps

/-! ### Strings -/

/-- A control character is read back from its code. -/
theorem codePoint_control {c : Char} (h : c.toNat < 0x20) (rest : List Char) :
    codePoint ('0' :: '0' :: (Text.hexDigit (c.toNat / 16)).toLower ::
      (Text.hexDigit (c.toNat % 16)).toLower :: rest) = .ok (c, rest) := by
  have hzero : Text.hexValue '0' = some 0 := rfl
  have hhigh := Text.hexValue_toLower_hexDigit (n := c.toNat / 16) (by omega)
  have hlow := Text.hexValue_toLower_hexDigit (n := c.toNat % 16) (by omega)
  have hcode : ((0 * 16 + 0) * 16 + c.toNat / 16) * 16 + c.toNat % 16 = c.toNat := by omega
  have hfour : hexFour ('0' :: '0' :: (Text.hexDigit (c.toNat / 16)).toLower ::
      (Text.hexDigit (c.toNat % 16)).toLower :: rest) = .ok (c.toNat, rest) := by
    simp only [hexFour, hzero, hhigh, hlow, hcode]
  unfold codePoint
  rw [hfour]
  show (if _ then _ else _) = _
  rw [if_neg (by omega), if_neg (by omega), Char.ofNat_toNat]

/-- A character is read back from its escape in one step. -/
theorem characters_escaped (n : Nat) (read : List Char) (c : Char) (rest : List Char) :
    characters codePoint (n + 1) read (escaped c ++ rest) =
      characters codePoint n (c :: read) rest := by
  unfold escaped
  split_ifs with hquote hbackslash hback hfeed hline hreturn htab hcontrol
  · subst hquote; rfl
  · subst hbackslash; rfl
  · subst hback; rfl
  · subst hfeed; rfl
  · subst hline; rfl
  · subst hreturn; rfl
  · subst htab; rfl
  · exact congrArg (fun found => found >>= fun p => characters codePoint n (p.1 :: read) p.2)
      (codePoint_control hcontrol rest)
  · -- a character that stands for itself: the reader has to pass by the quote and the backslash
    rw [List.cons_append, List.nil_append, characters.eq_def]
    split
    · contradiction
    · rename_i heq
      cases heq
      split
      · contradiction
      · rename_i heq
        cases heq
        exact absurd rfl hquote
      · rename_i heq
        cases heq
        exact absurd rfl hbackslash
      · rename_i heq
        cases heq
        rw [if_neg hcontrol]

/-- The characters of a string are read back up to the closing quote. -/
theorem characters_flatMap_escaped {n : Nat} {cs : List Char} (h : cs.length < n)
    (read rest : List Char) :
    characters codePoint n read (cs.flatMap escaped ++ '"' :: rest) =
      .ok (String.ofList (read.reverse ++ cs), rest) := by
  induction cs generalizing n read with
  | nil =>
    obtain ⟨n, rfl⟩ := Nat.exists_eq_succ_of_ne_zero (Nat.ne_of_gt h)
    rw [List.append_nil]
    rfl
  | cons c cs ih =>
    obtain ⟨n, rfl⟩ := Nat.exists_eq_succ_of_ne_zero (Nat.ne_of_gt (Nat.zero_lt_of_lt h))
    have hlength : cs.length < n := by simpa using h
    rw [List.flatMap_cons, List.append_assoc, characters_escaped, ih hlength]
    simp

theorem length_escaped_pos (c : Char) : 0 < (escaped c).length := by
  unfold escaped
  split_ifs <;> simp

theorem length_le_flatMap_escaped (cs : List Char) :
    cs.length ≤ (cs.flatMap escaped).length := by
  induction cs with
  | nil => exact Nat.le_refl _
  | cons c cs ih =>
    have hc := length_escaped_pos c
    simp only [List.flatMap_cons, List.length_append, List.length_cons]
    omega

theorem toList_quoted (s : String) :
    (quoted s).toList = '"' :: (s.toList.flatMap escaped ++ ['"']) := by
  simp [quoted]

theorem stringBody_escaped (s : String) (rest : List Char) :
    stringBody (s.toList.flatMap escaped ++ '"' :: rest) = .ok (s, rest) := by
  have hlength := length_le_flatMap_escaped s.toList
  unfold stringBody
  rw [characters_flatMap_escaped (by simp only [List.length_append]; omega)]
  simp

theorem readName_quoted (s : String) (rest : List Char) :
    readName ((quoted s).toList ++ rest) = .ok (s, rest) := by
  rw [toList_quoted, List.cons_append, List.append_assoc]
  exact stringBody_escaped s rest

/-- **A string reads back** from its text between quotes. -/
theorem readText_quoted (s : String) (rest : List Char) :
    readText ((quoted s).toList ++ rest) = .ok (s, rest) := by
  rw [toList_quoted, List.cons_append, List.append_assoc]
  exact stringBody_escaped s rest

/-! ### Where a number ends -/

/-- Whether a number may go on with a character. -/
def continuesNumber (c : Char) : Bool := Decimal.isDigit c || c = '.' || c = 'e' || c = 'E'

/-- Whatever number stands before the characters, it does not go on with them. -/
def Ends (rest : List Char) : Prop := ∀ c ∈ rest.head?, continuesNumber c = false

@[simp] theorem ends_nil : Ends [] := by simp [Ends]

theorem ends_cons {c : Char} (h : continuesNumber c = false) (rest : List Char) :
    Ends (c :: rest) := by
  simpa [Ends] using h

@[simp] theorem ends_comma (rest : List Char) : Ends (',' :: rest) := ends_cons (by decide) rest

@[simp] theorem ends_bracket (rest : List Char) : Ends (']' :: rest) := ends_cons (by decide) rest

@[simp] theorem ends_brace (rest : List Char) : Ends ('}' :: rest) := ends_cons (by decide) rest

theorem Ends.not_digit {c : Char} {rest : List Char} (h : Ends (c :: rest)) :
    Decimal.isDigit c = false := by
  have hc : continuesNumber c = false := h c rfl
  simp only [continuesNumber, Bool.or_eq_false_iff] at hc
  exact hc.1.1.1

theorem Ends.not_sign {c : Char} {rest : List Char} (h : Ends (c :: rest)) :
    c ≠ '.' ∧ c ≠ 'e' ∧ c ≠ 'E' := by
  have hc : continuesNumber c = false := h c rfl
  simp only [continuesNumber, Bool.or_eq_false_iff, decide_eq_false_iff_not] at hc
  exact ⟨hc.1.1.2, hc.1.2, hc.2⟩

/-- A real number, as one of the two kinds that a number without its sign can be. -/
def asReal (r : Except Problem (Float × List Char)) : Except Problem ((Nat ⊕ Float) × List Char) :=
  r.map fun (x, t) => (Sum.inr x, t)

/-- What a number without its sign is once the digits before its point have been read: they stand
for `n`, except for those that did not fit. -/
def afterDigits (n : Nat) (unread : List Char) (tail : List Char) :
    Except Problem ((Nat ⊕ Float) × List Char) :=
  match tail with
  | '.' :: t => asReal (fraction n unread.length t)
  | c :: _ =>
    if c = 'e' ∨ c = 'E' ∨ !unread.isEmpty then asReal (scaledExponent n unread.length tail)
    else .ok (.inl n, tail)
  | [] =>
    if unread.isEmpty then .ok (.inl n, []) else asReal (scaledExponent n unread.length [])

theorem afterDigits_cons {n : Nat} {unread : List Char} {c : Char} (h : c ≠ '.')
    (tail : List Char) :
    afterDigits n unread (c :: tail) =
      if c = 'e' ∨ c = 'E' ∨ !unread.isEmpty then
        asReal (scaledExponent n unread.length (c :: tail))
      else .ok (.inl n, c :: tail) := by
  unfold afterDigits
  split
  · rename_i heq
    cases heq
    exact absurd rfl h
  · rename_i heq
    cases heq
    rfl
  · contradiction

theorem asReal_append {r r' : Except Problem (Float × List Char)} {left rest : List Char}
    {x : Nat ⊕ Float} (hr : ∀ y, r = .ok (y, left) → r' = .ok (y, left ++ rest))
    (h : asReal r = .ok (x, left)) : asReal r' = .ok (x, left ++ rest) := by
  cases r with
  | error p => cases h
  | ok found =>
    cases h
    rw [hr found.1 rfl]
    rfl

section Ends
variable {rest : List Char} (hrest : Ends rest)
include hrest

theorem Ends.takeWhile_isDigit (s : List Char) :
    (s ++ rest).takeWhile Decimal.isDigit = s.takeWhile Decimal.isDigit := by
  induction s with
  | nil =>
    cases rest with
    | nil => rfl
    | cons c more => simp [hrest.not_digit]
  | cons c s ih => by_cases hc : Decimal.isDigit c = true <;> simp [hc, ih]

theorem Ends.dropWhile_isDigit (s : List Char) :
    (s ++ rest).dropWhile Decimal.isDigit = s.dropWhile Decimal.isDigit ++ rest := by
  induction s with
  | nil =>
    cases rest with
    | nil => rfl
    | cons c more => simp [hrest.not_digit]
  | cons c s ih => by_cases hc : Decimal.isDigit c = true <;> simp [hc, ih]

/-! ### Numbers in front of something -/

theorem exponent_append {s left : List Char} {e : Int} (h : exponent s = .ok (e, left)) :
    exponent (s ++ rest) = .ok (e, left ++ rest) := by
  have hsign : Decimal.splitSign (s ++ rest) =
      ((Decimal.splitSign s).1, (Decimal.splitSign s).2 ++ rest) := by
    cases s with
    | nil => cases h
    | cons c more =>
      rw [List.cons_append]
      unfold Decimal.splitSign
      split <;> simp_all
  unfold exponent at h ⊢
  rw [hsign]
  dsimp only at h ⊢
  rw [hrest.takeWhile_isDigit, hrest.dropWhile_isDigit]
  by_cases hdigits : ((Decimal.splitSign s).2.takeWhile Decimal.isDigit).isEmpty = true
  · rw [if_pos hdigits] at h
    cases h
  · rw [if_neg hdigits] at h ⊢
    cases h
    rfl

theorem scaledExponent_append {n : Nat} {e : Int} {s left : List Char} {x : Float}
    (h : scaledExponent n e s = .ok (x, left)) :
    scaledExponent n e (s ++ rest) = .ok (x, left ++ rest) := by
  cases s with
  | nil =>
    obtain ⟨y, hscaled, hy⟩ := bind_eq_ok.mp h
    cases hy
    cases rest with
    | nil => exact h
    | cons c more =>
      obtain ⟨-, hsmall, hcapital⟩ := hrest.not_sign
      have hletter : ¬ (c = 'e' ∨ c = 'E') := by simp [hsmall, hcapital]
      simp only [List.nil_append, scaledExponent, if_neg hletter, hscaled, ok_bind]
  | cons c s =>
    by_cases hletter : c = 'e' ∨ c = 'E'
    · simp only [List.cons_append, scaledExponent, if_pos hletter] at h ⊢
      obtain ⟨⟨more, t⟩, hexponent, h⟩ := bind_eq_ok.mp h
      obtain ⟨y, hscaled, hy⟩ := bind_eq_ok.mp h
      cases hy
      rw [exponent_append hrest hexponent, ok_bind, hscaled]
      rfl
    · simp only [List.cons_append, scaledExponent, if_neg hletter] at h ⊢
      obtain ⟨y, hscaled, hy⟩ := bind_eq_ok.mp h
      cases hy
      rw [hscaled]
      rfl

theorem fraction_append {n : Nat} {e : Int} {s left : List Char} {x : Float}
    (h : fraction n e s = .ok (x, left)) : fraction n e (s ++ rest) = .ok (x, left ++ rest) := by
  unfold fraction at h ⊢
  dsimp only at h ⊢
  rw [hrest.takeWhile_isDigit, hrest.dropWhile_isDigit]
  by_cases hdigits : (s.takeWhile Decimal.isDigit).isEmpty = true
  · rw [if_pos hdigits] at h
    cases h
  · rw [if_neg hdigits] at h ⊢
    exact scaledExponent_append hrest h

theorem afterDigits_append {n : Nat} {unread tail left : List Char} {x : Nat ⊕ Float}
    (h : afterDigits n unread tail = .ok (x, left)) :
    afterDigits n unread (tail ++ rest) = .ok (x, left ++ rest) := by
  unfold afterDigits at h
  split at h
  · exact asReal_append (fun _ => fraction_append hrest) h
  · rename_i c t hpoint
    rw [List.cons_append, afterDigits_cons hpoint]
    split_ifs at h ⊢ with hreal
    · exact asReal_append (fun _ => scaledExponent_append hrest) h
    · cases h; rfl
  · -- nothing but digits so far, so it is up to `rest` whether the number goes on
    cases rest with
    | nil =>
      rw [List.append_nil, List.append_nil]
      exact h
    | cons c more =>
      obtain ⟨hpoint, hsmall, hcapital⟩ := hrest.not_sign
      rw [List.nil_append, afterDigits_cons hpoint]
      split_ifs at h with hunread
      · cases h
        rw [if_neg (by simp [hsmall, hcapital, hunread])]
        rfl
      · rw [if_pos (by simp [hunread])]
        exact asReal_append (fun _ => scaledExponent_append hrest) h

theorem unsignedNumber_append {s left : List Char} {x : Nat ⊕ Float}
    (h : unsignedNumber s = .ok (x, left)) :
    unsignedNumber (s ++ rest) = .ok (x, left ++ rest) := by
  unfold unsignedNumber at h ⊢
  dsimp only at h ⊢
  rw [hrest.takeWhile_isDigit, hrest.dropWhile_isDigit]
  split at h
  · cases h
  · cases h
  · exact afterDigits_append hrest h

theorem readNumber_append {s left : List Char} {x : Number} (h : readNumber s = .ok (x, left)) :
    readNumber (s ++ rest) = .ok (x, left ++ rest) := by
  unfold readNumber at h
  split at h
  · obtain ⟨⟨y, t⟩, hunsigned, h⟩ := bind_eq_ok.mp h
    have happend := unsignedNumber_append hrest hunsigned
    rw [List.cons_append]
    show (unsignedNumber _ >>= _) = _
    rw [happend, ok_bind]
    cases y with
    | inl n =>
      dsimp only at h ⊢
      split_ifs at h ⊢ <;> (cases h; rfl)
    | inr y => cases h; rfl
  · rename_i hminus
    obtain ⟨⟨y, t⟩, hunsigned, h⟩ := bind_eq_ok.mp h
    have happend := unsignedNumber_append hrest hunsigned
    cases s with
    | nil => cases hunsigned
    | cons c more =>
      rw [List.cons_append] at happend ⊢
      unfold readNumber
      split
      · rename_i heq
        cases heq
        exact absurd rfl (hminus more)
      · rw [happend, ok_bind]
        cases y with
        | inl n => cases h; rfl
        | inr y => cases h; rfl

end Ends

/-- **A number reads back in front of anything that ends it**, if it does so on its own. -/
theorem readNumeric_append {s rest left : List Char} {x : Number} (hrest : Ends rest)
    (h : readNumeric s = .ok (x, left)) : readNumeric (s ++ rest) = .ok (x, left ++ rest) := by
  unfold readNumeric at h
  split at h
  · rename_i c t hskip
    split_ifs at h with hc
    have hskip' : skipSpace (s ++ rest) = c :: t ++ rest := by
      rw [skipSpace] at hskip ⊢
      rw [List.dropWhile_append, hskip]
      rfl
    unfold readNumeric
    rw [hskip', List.cons_append]
    dsimp only
    rw [if_pos hc]
    exact readNumber_append hrest h
  · cases h

/-! ### Whole numbers -/

theorem le_foldl_digits (n : Nat) (cs : List Char) :
    n ≤ cs.foldl (fun n c => 10 * n + Decimal.digitValue c) n := by
  induction cs generalizing n with
  | nil => exact Nat.le_refl n
  | cons c cs ih => exact Nat.le_trans (by omega) (ih (10 * n + Decimal.digitValue c))

/-- Digits that stand for a number of sixty-four bits are all kept. -/
theorem absorb_eq {n : Nat} {cs : List Char}
    (h : cs.foldl (fun n c => 10 * n + Decimal.digitValue c) n < 0x10000000000000000) :
    absorb n cs = (cs.foldl (fun n c => 10 * n + Decimal.digitValue c) n, []) := by
  induction cs generalizing n with
  | nil => rfl
  | cons c cs ih =>
    have hnext := Nat.lt_of_le_of_lt (le_foldl_digits (10 * n + Decimal.digitValue c) cs) h
    rw [absorb, if_pos hnext, ih h]
    rfl

theorem absorb_toDigits {n : Nat} (h : n < 0x10000000000000000) :
    absorb 0 (Nat.toDigits 10 n) = (n, []) := by
  have hvalue := Decimal.ofDigits_toDigits n
  unfold Decimal.ofDigits at hvalue
  rw [absorb_eq (by rw [hvalue]; exact h), hvalue]

theorem unsignedNumber_toDigits {n : Nat} (h : n < 0x10000000000000000) :
    unsignedNumber (Nat.toDigits 10 n) = .ok (.inl n, []) := by
  have hdigit : ∀ c ∈ Nat.toDigits 10 n, Decimal.isDigit c = true :=
    fun _ => Decimal.isDigit_of_mem_toDigits
  have htake : (Nat.toDigits 10 n).takeWhile Decimal.isDigit = Nat.toDigits 10 n :=
    List.takeWhile_eq_self_iff.mpr hdigit
  have hdrop : (Nat.toDigits 10 n).dropWhile Decimal.isDigit = [] :=
    List.dropWhile_eq_nil_iff.mpr hdigit
  unfold unsignedNumber
  dsimp only
  rw [htake, hdrop]
  split
  · rename_i heq
    exact absurd heq Nat.toDigits_ne_nil
  · -- a zero with digits behind it, which no number begins with
    rename_i d more heq
    rcases Nat.eq_zero_or_pos n with rfl | hpos
    · cases heq
    · exact absurd (congrArg List.head? heq) (Decimal.head?_toDigits_ne_zero hpos)
  · rw [absorb_toDigits h]
    rfl

/-- The first character of a whole number is a digit. -/
theorem exists_toDigits_eq_cons (n : Nat) :
    ∃ c cs, Nat.toDigits 10 n = c :: cs ∧ Decimal.isDigit c = true := by
  obtain ⟨c, cs, heq⟩ := List.exists_cons_of_ne_nil (Nat.toDigits_ne_nil (b := 10) (n := n))
  exact ⟨c, cs, heq, Decimal.isDigit_of_mem_toDigits (heq ▸ List.mem_cons_self)⟩

/-- The first character of a number is a minus sign or a digit. -/
def beginsNumber (c : Char) : Bool := c = '-' || Decimal.isDigit c

theorem isSpace_of_beginsNumber {c : Char} (h : beginsNumber c = true) : isSpace c = false := by
  by_contra hspace
  simp only [isSpace, Bool.not_eq_false, Bool.or_eq_true, decide_eq_true_eq] at hspace
  rcases hspace with ((rfl | rfl) | rfl) | rfl <;> exact absurd h (by decide)

theorem readNumeric_cons {c : Char} (h : beginsNumber c = true) (s : List Char) :
    readNumeric (c :: s) = readNumber (c :: s) := by
  have hskip : skipSpace (c :: s) = c :: s := by
    rw [skipSpace, List.dropWhile_cons_of_neg (by simp [isSpace_of_beginsNumber h])]
  unfold readNumeric
  rw [hskip]
  exact if_pos h

theorem readNumeric_toDigits {n : Nat} (h : n < 0x10000000000000000) :
    readNumeric (Nat.toDigits 10 n) = .ok (.natural n, []) := by
  obtain ⟨c, cs, heq, hdigit⟩ := exists_toDigits_eq_cons n
  have hread := unsignedNumber_toDigits h
  rw [heq] at hread ⊢
  rw [readNumeric_cons (by simp [beginsNumber, hdigit])]
  unfold readNumber
  split
  · rename_i hminus
    cases hminus
    exact absurd hdigit (by decide)
  · rw [hread]
    rfl

/-- **A whole number of sixty-four bits reads back** from its digits. -/
theorem readNumeric_natural {n : Nat} (h : n < 0x10000000000000000) {rest : List Char}
    (hrest : Ends rest) :
    readNumeric ((Number.natural n).render.toList ++ rest) = .ok (.natural n, rest) := by
  rw [Number.render, Nat.toList_repr]
  exact readNumeric_append hrest (readNumeric_toDigits h)

/-- **A whole number below zero reads back** if it has sixty-four bits with its sign. -/
theorem readNumeric_negative {n : Int} (hneg : n < 0) (h : -0x8000000000000000 ≤ n)
    {rest : List Char} (hrest : Ends rest) :
    readNumeric ((Number.negative n).render.toList ++ rest) = .ok (.negative n, rest) := by
  obtain ⟨k, rfl⟩ : ∃ k : Nat, n = Int.negSucc k := Int.eq_negSucc_of_lt_zero hneg
  have hdigits :
      (Number.negative (Int.negSucc k)).render.toList = '-' :: Nat.toDigits 10 (k + 1) := by
    simp [Number.render, Int.toString_eq_repr, Int.repr_eq_if]
  have hread := unsignedNumber_toDigits (n := k + 1) (by omega)
  rw [hdigits]
  suffices halone : readNumeric ('-' :: Nat.toDigits 10 (k + 1)) =
      .ok (.negative (Int.negSucc k), []) from readNumeric_append hrest halone
  rw [readNumeric_cons rfl]
  show (unsignedNumber _ >>= _) = _
  rw [hread, ok_bind]
  dsimp only
  rw [if_neg (by omega)]
  rfl

end OrderTelemetry.Json
