import Mathlib.Data.List.TakeWhile
import Mathlib.Tactic.SplitIfs
import OrderTelemetry.Http.Form
import OrderTelemetry.Proofs.Text.Hex
import OrderTelemetry.Proofs.Text.Utf8

/-! # Queries read back

Every list of pairs comes back from its query (`decode_encode`).  A name or a value is written with
characters that end neither it nor the query (`isInner`), so the separators are found again, and its
octets come back one escape after the other (`octets_encodeChar`). -/

namespace OrderTelemetry.Http.Form

/-! ### Characters of names and values -/

/-- The characters that names and values are written with. -/
def isInner (c : Char) : Bool := isPlain c || c = '+' || c = '%'

theorem isInner_hexDigit {n : Nat} (h : n < 16) : isInner (Text.hexDigit n) = true := by
  have hall : ∀ n < 16, isInner (Text.hexDigit n) = true := by decide
  exact hall n h

theorem isInner_ne {c d : Char} (h : isInner c = true) (hd : isInner d = false) : c ≠ d := by
  rintro rfl
  rw [hd] at h
  cases h

/-- The octets of a character are numbers of eight bits. -/
theorem encodeChar_lt {c : Char} {octet : Nat} (h : octet ∈ Text.Utf8.encodeChar c) :
    octet < 256 := by
  have hvalid : c.toNat < 0xD800 ∨ (0xDFFF < c.toNat ∧ c.toNat < 0x110000) := c.valid
  unfold Text.Utf8.encodeChar at h
  dsimp only at h
  split_ifs at h <;>
    simp only [List.mem_cons, List.not_mem_nil, or_false] at h <;> omega

theorem isInner_encodeChar {c d : Char} (h : d ∈ encodeChar c) : isInner d = true := by
  unfold encodeChar at h
  split_ifs at h with hplain hspace
  · obtain rfl := List.mem_singleton.mp h
    simp [isInner, hplain]
  · obtain rfl := List.mem_singleton.mp h
    rfl
  · obtain ⟨octet, hoctet, hd⟩ := List.mem_flatMap.mp h
    have hlt := encodeChar_lt hoctet
    simp only [escaped, List.mem_cons, List.not_mem_nil, or_false] at hd
    rcases hd with rfl | rfl | rfl
    · rfl
    · exact isInner_hexDigit (by omega)
    · exact isInner_hexDigit (by omega)

theorem isInner_encodePart {s : String} {d : Char} (h : d ∈ encodePart s) : isInner d = true := by
  obtain ⟨c, -, hd⟩ := List.mem_flatMap.mp h
  exact isInner_encodeChar hd

/-! ### The octets of a name or a value -/

theorem octets_escaped {octet : Nat} (h : octet < 256) (rest : List Char) :
    octets (escaped octet ++ rest) = octet :: octets rest := by
  have hhigh := Text.hexValue_hexDigit (n := octet / 16) (by omega)
  have hlow := Text.hexValue_hexDigit (n := octet % 16) (by omega)
  simp only [escaped, List.cons_append, List.nil_append, octets, hhigh, hlow]
  rw [Nat.div_add_mod]

theorem octets_flatMap_escaped {os : List Nat} (h : ∀ o ∈ os, o < 256) (rest : List Char) :
    octets (os.flatMap escaped ++ rest) = os ++ octets rest := by
  induction os with
  | nil => rfl
  | cons o os ih =>
    rw [List.forall_mem_cons] at h
    rw [List.flatMap_cons, List.append_assoc, octets_escaped h.1, ih h.2]
    rfl

theorem octets_plain {c : Char} (h : isPlain c = true) (rest : List Char) :
    octets (c :: rest) = Text.Utf8.encodeChar c ++ octets rest := by
  rw [octets.eq_def]
  split
  · contradiction
  · rename_i heq
    cases heq
    exact absurd h (by decide)
  · rename_i heq
    cases heq
    exact absurd h (by decide)
  · rename_i heq
    cases heq
    rfl

/-- A character stands for its octets, however it is written. -/
theorem octets_encodeChar (c : Char) (rest : List Char) :
    octets (encodeChar c ++ rest) = Text.Utf8.encodeChar c ++ octets rest := by
  unfold encodeChar
  split_ifs with hplain hspace
  · exact octets_plain hplain rest
  · subst hspace
    rfl
  · exact octets_flatMap_escaped (fun _ => encodeChar_lt) rest

theorem octets_encodePart (s : String) : octets (encodePart s) = Text.Utf8.encode s.toList := by
  unfold encodePart Text.Utf8.encode
  induction s.toList with
  | nil => rfl
  | cons c cs ih => rw [List.flatMap_cons, octets_encodeChar, ih, List.flatMap_cons]

/-- **A name or a value comes back.** -/
theorem decodePart_encodePart (s : String) : decodePart (encodePart s) = s := by
  unfold decodePart
  rw [octets_encodePart, Text.Utf8.decode_encode, String.ofList_toList]

/-! ### Pairs -/

theorem pair_encoded (name value : String) :
    pair (encodePart name ++ '=' :: encodePart value) = (name, value) := by
  have hname : ∀ c ∈ encodePart name, (c != '=') = true := fun c hc =>
    bne_iff_ne.mpr (isInner_ne (isInner_encodePart hc) (by decide))
  unfold pair
  rw [List.takeWhile_append_of_pos hname, List.dropWhile_append_of_pos hname]
  simp [decodePart_encodePart]

/-- A pair as it stands in a query. -/
def encodePair (p : String × String) : List Char := encodePart p.1 ++ '=' :: encodePart p.2

theorem mem_encodePair {p : String × String} {d : Char} (h : d ∈ encodePair p) :
    isInner d = true ∨ d = '=' := by
  rcases List.mem_append.mp h with hd | hd
  · exact .inl (isInner_encodePart hd)
  · rcases List.mem_cons.mp hd with rfl | hd
    · exact .inr rfl
    · exact .inl (isInner_encodePart hd)

theorem encodePair_ne {p : String × String} {c d : Char} (h : c ∈ encodePair p)
    (hd : isInner d = false ∧ d ≠ '=') : c ≠ d := by
  rcases mem_encodePair h with hc | rfl
  · exact isInner_ne hc hd.1
  · exact hd.2.symm

/-! ### Queries -/

theorem parts_append {part : List Char} (h : ∀ c ∈ part, c ≠ '&') (rest : List Char) :
    parts (part ++ '&' :: rest) = part :: parts rest := by
  induction part with
  | nil => simp [parts]
  | cons c part ih =>
    rw [List.forall_mem_cons] at h
    rw [List.cons_append, parts, if_neg h.1, ih h.2]

theorem parts_eq {part : List Char} (h : ∀ c ∈ part, c ≠ '&') : parts part = [part] := by
  induction part with
  | nil => rfl
  | cons c part ih =>
    rw [List.forall_mem_cons] at h
    rw [parts, if_neg h.1, ih h.2]

theorem toList_encode (pairs : List (String × String)) :
    (encode pairs).toList = ['&'].intercalate (pairs.map encodePair) := by
  rw [encode, String.toList_ofList]
  rfl

theorem map_pair_parts (pairs : List (String × String)) :
    ((parts (['&'].intercalate (pairs.map encodePair))).filter fun part => !part.isEmpty).map pair =
      pairs := by
  have hand : ∀ p, ∀ c ∈ encodePair p, c ≠ '&' := fun p c hc => encodePair_ne hc (by decide)
  have hempty : ∀ p, (!(encodePair p).isEmpty) = true := fun p => by simp [encodePair]
  induction pairs with
  | nil => rfl
  | cons p pairs ih =>
    -- there is an ampersand behind a pair only if another one follows
    cases pairs with
    | nil =>
      rw [List.map_singleton, List.intercalate_singleton, parts_eq (hand p), List.filter_cons,
        if_pos (hempty p)]
      simp [encodePair, pair_encoded]
    | cons q pairs =>
      rw [List.map_cons] at ih
      rw [List.map_cons, List.map_cons, List.intercalate_cons_cons, List.append_assoc,
        List.singleton_append, parts_append (hand p), List.filter_cons, if_pos (hempty p),
        List.map_cons, ih]
      simp [encodePair, pair_encoded]

/-- **Every list of pairs comes back from its query.** -/
theorem decode_encode (pairs : List (String × String)) : decode (encode pairs) = pairs := by
  unfold decode
  rw [toList_encode, map_pair_parts]

example : encode [("order_id", "a b/é")] = "order_id=a+b%2F%C3%A9" ∧
    decode "order_id=a+b%2F%C3%A9" = [("order_id", "a b/é")] := by decide +kernel

theorem mem_intercalate {sep : List Char} {ls : List (List Char)} {c : Char}
    (h : c ∈ sep.intercalate ls) : c ∈ sep ∨ ∃ l ∈ ls, c ∈ l := by
  induction ls with
  | nil => cases h
  | cons l ls ih =>
    cases ls with
    | nil => exact .inr ⟨l, List.mem_cons_self, by simpa using h⟩
    | cons l' ls =>
      rw [List.intercalate_cons_cons, List.mem_append, List.mem_append] at h
      rcases h with (h | h) | h
      · exact .inr ⟨l, List.mem_cons_self, h⟩
      · exact .inl h
      · exact (ih h).imp_right fun ⟨m, hm, hc⟩ => ⟨m, List.mem_cons_of_mem l hm, hc⟩

/-- A query does not end early. -/
theorem ne_of_mem_encode {pairs : List (String × String)} {c : Char}
    (h : c ∈ (encode pairs).toList) : c ≠ '#' := by
  rw [toList_encode] at h
  rcases mem_intercalate h with hsep | ⟨part, hpart, hc⟩
  · obtain rfl := List.mem_singleton.mp hsep
    decide
  · obtain ⟨p, -, rfl⟩ := List.mem_map.mp hpart
    exact encodePair_ne hc (by decide)

end OrderTelemetry.Http.Form
