import OrderTelemetry.Proofs.Decimal.Finite
import OrderTelemetry.Proofs.Json.Entries

/-! # What a codec reads of its own text

`c.Yields a o` says what the codec `c` makes of the text it writes for `a`, whatever stands behind
the text: the value in `o`, or a problem if there is none.  A value may come back as another one,
as an instant does without its microseconds, and it may not come back at all, as a double that is
not finite.  Each combinator of codecs has a law that gives the answer from those of its parts.

Whether a double comes back as itself depends on its digits.  That it does is a property of the
double (`Legible`), which only finite ones have. -/

namespace OrderTelemetry.Json

variable {α β : Type}

/-- The outcome is the value in front of what remains, or a problem if there is no value. -/
def Gives (r : Except Problem (α × List Char)) (rest : List Char) : Option α → Prop
  | some a => r = .ok (a, rest)
  | none => ∃ p, r = .error p

theorem gives_some {r : Except Problem (α × List Char)} {rest : List Char} {a : α} :
    Gives r rest (some a) ↔ r = .ok (a, rest) := Iff.rfl

theorem Gives.bind {r : Except Problem (α × List Char)}
    {f : α × List Char → Except Problem (β × List Char)} {rest rest' : List Char} {o : Option α}
    {u : α → Option β} (h : Gives r rest o) (hf : ∀ a, Gives (f (a, rest)) rest' (u a)) :
    Gives (r >>= f) rest' (o.bind u) := by
  cases o with
  | none =>
    obtain ⟨p, rfl⟩ := h
    exact ⟨p, rfl⟩
  | some a =>
    cases h
    exact hf a

namespace Codec

variable {c : Codec α} {a : α}

/-- What a codec makes of the text that it writes for a value. -/
def Yields (c : Codec α) (a : α) (o : Option α) : Prop :=
  ∀ rest, Ends rest → Gives (c.read ((c.write a).toList ++ rest)) rest o

theorem begins_write (c : Codec α) (a : α) : Begins (c.write a).toList := begins_render _

/-- A value that comes back is that of the whole text. -/
theorem Yields.parse_some {b : α} (h : c.Yields a (some b)) : c.parse (c.write a) = .ok b := by
  have hread := h [] ends_nil
  rw [List.append_nil] at hread
  show (c.read _ >>= _) = _
  rw [hread]
  rfl

theorem Yields.parse_none (h : c.Yields a none) : ∃ p, c.parse (c.write a) = .error p := by
  obtain ⟨p, hread⟩ := h [] ends_nil
  rw [List.append_nil] at hread
  refine ⟨p, ?_⟩
  show (c.read _ >>= _) = _
  rw [hread]
  rfl

/-! ### Parts without inner structure -/

theorem text_yields (s : String) : text.Yields s (some s) := by
  intro rest _
  have hwrite : text.write s = quoted s := by simp only [text, Codec.write, render]
  rw [gives_some, hwrite]
  simp only [text]
  exact readText_quoted s rest

theorem readNumberAs_of_ok {f : Number → Option α} {s rest : List Char} {x : Number} {a : α}
    (h : readNumeric s = .ok (x, rest)) (hf : f x = some a) :
    readNumberAs f s = .ok (a, rest) := by
  unfold readNumberAs
  rw [h, ok_bind]
  dsimp only
  rw [hf]

theorem natural_yields {n high : Nat} (h : n ≤ high) (hhigh : high < 0x10000000000000000) :
    (natural high).Yields n (some n) := by
  intro rest hrest
  have hwrite : (natural high).write n = (Number.natural n).render := by
    simp only [natural, Codec.write, Json.natural, render]
  have hread := readNumeric_natural (Nat.lt_of_le_of_lt h hhigh) hrest
  have hbounds : (0 : Int) ≤ n ∧ (n : Int) ≤ high := by omega
  rw [gives_some, hwrite]
  simp only [natural]
  exact readNumberAs_of_ok hread (by simp [Number.whole?, hbounds])

theorem uint64_yields {n : Nat} (h : n ≤ 0xFFFFFFFFFFFFFFFF) : uint64.Yields n (some n) :=
  natural_yields h (by decide)

theorem integer_yields {n low high : Int} (hlow : low ≤ n) (hhigh : n ≤ high)
    (hneg : -0x8000000000000000 ≤ low) (hpos : high < 0x10000000000000000) :
    (integer low high).Yields n (some n) := by
  intro rest hrest
  have hwrite : (integer low high).write n =
      (if n < 0 then Number.negative n else .natural n.toNat).render := by
    simp only [integer, Codec.write, Json.integer, render]
  have hread : readNumeric ((if n < 0 then Number.negative n else .natural n.toNat).render.toList ++
      rest) = .ok (if n < 0 then Number.negative n else .natural n.toNat, rest) := by
    split_ifs with hsign
    · exact readNumeric_negative hsign (by omega) hrest
    · exact readNumeric_natural (by omega) hrest
  have hwhole : (if n < 0 then Number.negative n else .natural n.toNat).whole? = some n := by
    split_ifs with hsign
    · rfl
    · simp only [Number.whole?, Option.some.injEq]
      omega
  rw [gives_some, hwrite]
  simp only [integer]
  exact readNumberAs_of_ok hread (by simp [hwhole, hlow, hhigh])

theorem head?_write_text (s : String) : (text.write s).toList.head? ≠ some 'n' := by
  simp only [text, Codec.write, render, toList_quoted]
  exact fun heq => absurd heq (by simp)

theorem head?_write_integer (low high n : Int) :
    ((integer low high).write n).toList.head? ≠ some 'n' := by
  have hbegins :
      BeginsNumber (if n < 0 then Number.negative n else .natural n.toNat).render.toList := by
    split_ifs
    · exact beginsNumber_negative n
    · exact beginsNumber_repr n.toNat
  simp only [integer, Codec.write, Json.integer, render]
  exact hbegins.head?_ne

/-- A double that its own text stands for. -/
def Legible (x : Float) : Prop := real.read (real.write x).toList = .ok (x, [])

instance (x : Float) : Decidable (Legible x) := by unfold Legible; infer_instance

theorem real_yields {x : Float} (h : Legible x) : real.Yields x (some x) := by
  intro rest hrest
  obtain ⟨⟨y, left⟩, hread, hy⟩ := bind_eq_ok.mp h
  cases hy
  have happend := readNumeric_append hrest hread
  exact gives_some.mpr (readNumberAs_of_ok (f := fun x => some x.toFloat) happend rfl)

theorem real_yields_none {x : Float} (h : x.isFinite = false) : real.Yields x none := by
  intro rest _
  have hwrite : real.write x = "null" := by
    simp only [real, Codec.write, Json.real, render, Number.render, Double.json_of_not_finite h,
      Option.getD_none]
  rw [hwrite]
  exact ⟨.mismatched, rfl⟩

theorem Legible.isFinite {x : Float} (h : Legible x) : x.isFinite = true := by
  by_contra hnot
  obtain ⟨p, hnone⟩ := real_yields_none (Bool.eq_false_iff.mpr hnot) [] ends_nil
  rw [List.append_nil, h] at hnone
  cases hnone

/-- A value that is there if some doubles are finite. -/
def ifFinite (xs : List Float) (a : α) : Option α := if xs.all Float.isFinite then some a else none

theorem ifFinite_of {xs : List Float} (h : xs.all Float.isFinite = true) :
    ifFinite xs a = some a := if_pos h

theorem ifFinite_of_not {xs : List Float} (h : ¬ xs.all Float.isFinite = true) :
    ifFinite xs a = none := if_neg h

theorem real_yields_ifFinite {x : Float} (h : x.isFinite = true → Legible x) :
    real.Yields x (ifFinite [x] x) := by
  have hall : [x].all Float.isFinite = x.isFinite := by simp
  unfold ifFinite
  rw [hall]
  split_ifs with hfinite
  · exact real_yields (h hfinite)
  · exact real_yields_none (Bool.eq_false_iff.mpr hfinite)

theorem map_ifFinite (xs : List Float) (f : α → β) :
    (ifFinite xs a).map f = ifFinite xs (f a) := by
  unfold ifFinite
  split_ifs <;> rfl

theorem elim_ifFinite (xs : List Float) (b : β) (f : α → β) :
    (ifFinite xs a).elim b f = if xs.all Float.isFinite then f a else b := by
  unfold ifFinite
  split_ifs <;> rfl

/-- One value after the other is there if the doubles of both are finite. -/
theorem ifFinite_bind {xs ys : List Float} {f : α → Option β} {b : β} (h : f a = ifFinite ys b) :
    (ifFinite xs a).bind f = ifFinite (xs ++ ys) b := by
  unfold ifFinite at h ⊢
  rw [List.all_append]
  cases xs.all Float.isFinite with
  | true => simpa using h
  | false => rfl

/-- All items are there if each of them is. -/
theorem mapM_guard (p : α → Bool) (as : List α) :
    as.mapM (fun a => if p a then some a else none) = if as.all p then some as else none := by
  induction as with
  | nil => rfl
  | cons a as ih =>
    rw [List.mapM_cons, ih, List.all_cons]
    cases p a with
    | true => cases as.all p <;> rfl
    | false => rfl

theorem mapM_ifFinite (xs : α → List Float) (as : List α) :
    as.mapM (fun a => ifFinite (xs a) a) = ifFinite (as.flatMap xs) as := by
  unfold ifFinite
  rw [List.all_flatMap]
  exact mapM_guard _ as

/-! ### Parts with parts of their own -/

section Views
variable {β : Type} {b : β} {of : β → α} {o : Option α}

theorem Yields.map {view : α → β} {o' : Option β} (h : c.Yields (of b) o) (ho : o.map view = o') :
    (c.map view of).Yields b o' := by
  intro rest hrest
  rw [← ho, Option.map_eq_bind]
  exact (h rest hrest).bind fun _ => rfl

theorem Yields.filterMap {view : α → Option β} (h : c.Yields (of b) o) :
    (c.filterMap view of).Yields b (o.bind view) := by
  intro rest hrest
  refine (h rest hrest).bind (u := view) fun a => ?_
  dsimp only
  cases view a with
  | none => exact ⟨.mismatched, rfl⟩
  | some b => exact rfl

end Views

theorem choice_yields {name : α → String} {known : String → Option α}
    (h : known (name a) = some a) : (choice name known).Yields a (some a) := by
  intro rest _
  have hwrite : (choice name known).write a = quoted (name a) := by
    simp only [choice, Codec.write, render]
  have hread := readText_quoted (name a) rest
  rw [toList_quoted, List.cons_append] at hread
  rw [gives_some, hwrite, toList_quoted, List.cons_append]
  simp only [choice, skipSpace_cons (show isSpace '"' = false by decide), hread, ok_bind, h]

theorem optional_yields_none : c.optional.Yields none (some none) := by
  intro rest _
  have hwrite : c.optional.write none = "null" := by
    simp only [optional, Codec.write, Json.optional, render]
  rw [gives_some, hwrite]
  rfl

/-- A value that may be `null` is there if its text does not begin like `null`. -/
theorem Yields.optional {o : Option α} (h : c.Yields a o)
    (hnull : (c.write a).toList.head? ≠ some 'n') : c.optional.Yields (some a) (o.map some) := by
  intro rest hrest
  have hwrite : c.optional.write (some a) = c.write a := by
    simp only [Codec.optional, Codec.write, Json.optional]
  have hread := h rest hrest
  obtain ⟨d, t, htext, hopens⟩ := begins_write c a
  rw [hwrite]
  rw [htext] at hnull hread ⊢
  have hspace : isSpace d = false := by
    simp only [opens, Bool.and_eq_true, Bool.not_eq_true'] at hopens
    exact hopens.1.1
  rw [Option.map_eq_bind]
  simp only [Codec.optional, List.cons_append, skipSpace_cons hspace]
  -- the reader of an optional value looks at the first character alone
  split
  · rename_i heq
    cases heq
    exact absurd rfl hnull
  · exact hread.bind fun _ => rfl

/-- The items of a list are read one after the other. -/
theorem readItems_joined {u : α → Option α} {xs : List α} (h : ∀ a ∈ xs, c.Yields a (u a))
    (rest : List Char) {n : Nat} (hn : xs.length < n) (first : Bool) :
    Gives (readItems c.read n first
      (joined first (xs.map fun a => (c.write a).toList) ++ ']' :: rest)) rest (xs.mapM u) := by
  induction xs generalizing n first with
  | nil =>
    obtain ⟨n, rfl⟩ := Nat.exists_eq_add_one.mpr hn
    simp only [List.map_nil, joined, List.nil_append, readItems, nextEntry_closing (.inl rfl),
      ok_bind, expect_cons (show isSpace ']' = false by decide)]
    exact rfl
  | cons a xs ih =>
    obtain ⟨n, rfl⟩ := Nat.exists_eq_add_one.mpr (Nat.zero_lt_of_lt hn)
    have hlength : xs.length < n := by simpa using hn
    have hbegins := begins_write c a
    have hends := ends_joined (.inl rfl) (xs.map fun a => (c.write a).toList) rest
    rw [List.mapM_cons]
    -- what stands behind the item is a comma or the bracket, so its reader stops there
    simp only [List.map_cons, joined, List.append_assoc, entry_append, readItems,
      nextEntry_entry (.inl rfl) (hbegins.append _), ok_bind]
    refine (h a List.mem_cons_self _ hends).bind fun b => ?_
    exact (ih (fun a ha => h a (List.mem_cons_of_mem _ ha)) hlength false).bind fun _ => rfl

theorem renderItems_eq (xs : List Json) : renderItems xs = xs.map render := by
  induction xs with
  | nil => rw [renderItems, List.map_nil]
  | cons x xs ih => rw [renderItems, ih, List.map_cons]

/-- **A list is read if all its items are.** -/
theorem Yields.list {u : α → Option α} {xs : List α} (h : ∀ a ∈ xs, c.Yields a (u a)) :
    (list c).Yields xs (xs.mapM u) := by
  intro rest _
  have htext : ((Codec.list c).write xs).toList =
      '[' :: (joined true (xs.map fun a => (c.write a).toList) ++ [']']) := by
    simp only [Codec.list, Codec.write, render, renderItems_eq, String.toList_append,
      toList_intercalate, List.map_map]
    rfl
  have hlength := length_le_joined (xs.map fun a => (c.write a).toList)
    (fun t ht => by obtain ⟨a, -, rfl⟩ := List.mem_map.mp ht; exact begins_write c a) true
  rw [htext]
  simp only [Codec.list, List.cons_append, List.append_assoc, List.nil_append,
    skipSpace_cons (show isSpace '[' = false by decide)]
  refine readItems_joined h rest ?_ true
  rw [List.length_map] at hlength
  rw [List.length_append]
  omega

end Codec

end OrderTelemetry.Json
