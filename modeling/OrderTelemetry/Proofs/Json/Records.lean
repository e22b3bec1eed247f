import OrderTelemetry.Json.Fields
import OrderTelemetry.Proofs.Json.Codecs

/-! # What a record reads of its own text

A record is read member by member, and each member fills the slot of its field.  `Takes` says what
one member does to the slots and `Fills` what a list of members does to them, one after the other.
The members that a record writes fill the slots in the order of the fields, so that in the end all
of them are filled (`fills_members`): the record comes back if each field does (`Yields.codec`).

Fields are told apart by their names, so no two of them may have the same. -/

namespace OrderTelemetry.Json

namespace Fields

/-- The names of the fields. -/
def names : {ts : List Type} → Fields ts → List String
  | _, nil => []
  | _, cons field rest => field.name :: rest.names

/-- All slots filled. -/
def filled : {ts : List Type} → Values ts → Slots ts
  | [], _ => ()
  | _ :: _, (a, others) => (some a, filled others)

/-- The values in the slots, if all are filled. -/
def gather : {ts : List Type} → Slots ts → Option (Values ts)
  | [], _ => some ()
  | _ :: _, (first, others) => first.bind fun a => (gather others).bind fun b => some (a, b)

/-- Each field makes of the text of its value what the slot says. -/
def Yields : {ts : List Type} → Fields ts → Values ts → Slots ts → Prop
  | _, nil, _, _ => True
  | _, cons field rest, (a, others), (o, found) =>
    field.codec.Yields a o ∧ rest.Yields others found

theorem complete_filled {ts : List Type} (fields : Fields ts) (values : Values ts) :
    fields.complete (filled values) = .ok values := by
  induction fields with
  | nil => rfl
  | cons field rest ih =>
    obtain ⟨a, others⟩ := values
    simp only [filled, complete, Option.some_or, ih, ok_bind]

/-! ### One member -/

variable {α : Type} {ts : List Type} {field : Field α} {rest : Fields ts} {others : Slots ts}
  {key : String} {x : Json}

/-- What a member does to the slots: they are in `o` after it, or it cannot be read. -/
def Takes (fields : Fields ts) (slots : Slots ts) (key : String) (x : Json)
    (o : Option (Slots ts)) : Prop :=
  ∃ read, fields.slot slots key = some (.ok read) ∧
    ∀ rest, Ends rest → Gives (read (x.render.toList ++ rest)) rest o

/-- A member with the name of the first field fills its slot. -/
theorem takes_first {a : α} {o : Option α} (h : field.codec.Yields a o) :
    (cons field rest).Takes (none, others) field.name (field.codec.encode a)
      (o.map fun b => (some b, others)) := by
  refine ⟨fun s => field.codec.read s >>= fun p => .ok ((some p.1, others), p.2), ?_, ?_⟩
  · simp only [slot, if_true, Option.isSome_none]
    rfl
  · intro left hleft
    rw [Option.map_eq_bind]
    exact (h left hleft).bind fun _ => rfl

/-- A member with another name leaves the first slot as it is. -/
theorem Takes.later {o : Option (Slots ts)} (h : rest.Takes others key x o)
    (hname : field.name ≠ key) (first : Option α) :
    (cons field rest).Takes (first, others) key x (o.map fun found => (first, found)) := by
  obtain ⟨read, hslot, hread⟩ := h
  refine ⟨fun s => read s >>= fun p => .ok ((first, p.1), p.2), ?_, ?_⟩
  · simp only [slot, if_neg hname, hslot]
    rfl
  · intro left hleft
    rw [Option.map_eq_bind]
    exact (hread left hleft).bind fun _ => rfl

/-! ### All members -/

/-- What a list of members does to the slots, one after the other. -/
def Fills (fields : Fields ts) : List (String × Json) → Slots ts → Option (Slots ts) → Prop
  | [], slots, o => o = some slots
  | (key, x) :: more, slots, o => ∃ next, fields.Takes slots key x next ∧
    match next with
    | some found => fields.Fills more found o
    | none => o = none

/-- Members with other names leave the first slot as it is. -/
theorem Fills.later {members : List (String × Json)} {o : Option (Slots ts)}
    (h : rest.Fills members others o) (hname : field.name ∉ members.map Prod.fst)
    (first : Option α) :
    (cons field rest).Fills members (first, others) (o.map fun found => (first, found)) := by
  induction members generalizing others with
  | nil =>
    obtain rfl := h
    exact rfl
  | cons m members ih =>
    obtain ⟨key, x⟩ := m
    rw [List.map_cons, List.mem_cons, not_or] at hname
    obtain ⟨next, htakes, hmore⟩ := h
    refine ⟨_, htakes.later hname.1 first, ?_⟩
    cases next with
    | none =>
      obtain rfl := hmore
      exact rfl
    | some found => exact ih hmore hname.2

theorem map_fst_members (fields : Fields ts) (values : Values ts) :
    (fields.members values).map Prod.fst = fields.names := by
  induction fields with
  | nil => rfl
  | cons field rest ih =>
    obtain ⟨a, others⟩ := values
    simp only [members, names, List.map_cons, ih]

/-- **The members that a record writes fill all slots**, unless one of them cannot be read. -/
theorem fills_members {fields : Fields ts} {values : Values ts} {found : Slots ts}
    (h : fields.Yields values found) (hnames : fields.names.Nodup) :
    fields.Fills (fields.members values) fields.empty ((gather found).map filled) := by
  induction fields with
  | nil => exact rfl
  | cons field rest ih =>
    obtain ⟨a, others⟩ := values
    obtain ⟨o, found⟩ := found
    obtain ⟨hfirst, hrest⟩ := h
    obtain ⟨hname, hnodup⟩ := List.nodup_cons.mp hnames
    refine ⟨_, takes_first hfirst, ?_⟩
    cases o with
    | none => exact rfl
    | some b =>
      -- the other members have other names, so the first slot stays filled
      have hlater : (cons field rest).Fills _ (some b, rest.empty) _ :=
        (ih hrest hnodup).later (by rw [map_fst_members]; exact hname) (some b)
      cases hgather : gather found with
      | none => simpa [gather, hgather] using hlater
      | some values => simpa [gather, filled, hgather] using hlater

/-! ### Reading them -/

/-- The text of a member. -/
def memberText (m : String × Json) : List Char :=
  (quoted m.1).toList ++ ':' :: m.2.render.toList

theorem begins_memberText (m : String × Json) : Begins (memberText m) :=
  ⟨'"', _, by rw [memberText, toList_quoted]; rfl, rfl⟩

theorem readMembers_joined {fields : Fields ts} {members : List (String × Json)}
    {slots : Slots ts} {o : Option (Slots ts)} (h : fields.Fills members slots o)
    (rest : List Char) {n : Nat} (hn : members.length < n) (first : Bool) :
    Gives (fields.readMembers n first slots
      (joined first (members.map memberText) ++ '}' :: rest)) rest
      (o.bind fun found => (fields.complete found).toOption) := by
  induction members generalizing n first slots with
  | nil =>
    obtain ⟨n, rfl⟩ := Nat.exists_eq_add_one.mpr hn
    obtain rfl := h
    simp only [List.map_nil, joined, List.nil_append, readMembers, nextEntry_closing (.inr rfl),
      ok_bind, expect_cons (show isSpace '}' = false by decide), Option.bind_some]
    cases fields.complete slots with
    | error p => exact ⟨p, rfl⟩
    | ok values => exact rfl
  | cons m members ih =>
    obtain ⟨key, x⟩ := m
    obtain ⟨n, rfl⟩ := Nat.exists_eq_add_one.mpr (Nat.zero_lt_of_lt hn)
    have hlength : members.length < n := by simpa using hn
    obtain ⟨next, ⟨read, hslot, hread⟩, hmore⟩ := h
    have hends := ends_joined (.inr rfl) (members.map memberText) rest
    have hbegins := (begins_memberText (key, x)).append
      (joined false (members.map memberText) ++ '}' :: rest)
    simp only [List.map_cons, joined, List.append_assoc, entry_append, readMembers,
      nextEntry_entry (.inr rfl) hbegins, ok_bind]
    simp only [memberText, List.append_assoc, List.cons_append, readName_quoted, ok_bind, hslot,
      expect_cons (show isSpace ':' = false by decide)]
    have hmember := hread _ hends
    cases next with
    | none =>
      obtain rfl := hmore
      obtain ⟨p, hp⟩ := hmember
      exact ⟨p, by rw [hp]; rfl⟩
    | some found =>
      rw [gives_some] at hmember
      rw [hmember, ok_bind]
      exact ih hmore hlength false

theorem renderMembers_eq (members : List (String × Json)) :
    (renderMembers members).map String.toList = members.map memberText := by
  induction members with
  | nil => simp only [renderMembers, List.map_nil]
  | cons m members ih =>
    simp only [renderMembers, List.map_cons, ih, memberText, String.toList_append,
      List.append_assoc]
    rfl

/-- **A record is read if all its fields are.** -/
theorem Yields.codec {fields : Fields ts} {values : Values ts} {found : Slots ts}
    (h : fields.Yields values found) (hnames : fields.names.Nodup) :
    fields.codec.Yields values (gather found) := by
  intro rest _
  have htext : (fields.codec.write values).toList =
      '\x7b' :: (joined true ((fields.members values).map memberText) ++ ['\x7d']) := by
    simp only [Fields.codec, Codec.write, render, String.toList_append, toList_intercalate,
      renderMembers_eq]
    rfl
  have hlength := length_le_joined ((fields.members values).map memberText)
    (fun t ht => by obtain ⟨m, -, rfl⟩ := List.mem_map.mp ht; exact begins_memberText m) true
  have hgather : ((gather found).map filled).bind (fun found => (fields.complete found).toOption) =
      gather found := by
    cases gather found with
    | none => rfl
    | some values => simp only [Option.map_some, Option.bind_some, complete_filled]; rfl
  rw [htext, ← hgather]
  simp only [Fields.codec, List.cons_append, List.append_assoc, List.nil_append,
    skipSpace_cons (show isSpace '\x7b' = false by decide)]
  refine readMembers_joined (fills_members h hnames) rest ?_ true
  rw [List.length_map] at hlength
  rw [List.length_append]
  omega

/-! ### Doubles among the values -/

/-- The fields give their values back if some doubles are finite, and nothing if one of them is
not. -/
def Returns {ts : List Type} (fields : Fields ts) (values : Values ts) (xs : List Float) : Prop :=
  ∃ found, fields.Yields values found ∧ gather found = Codec.ifFinite xs values

theorem returns_nil : nil.Returns () [] := ⟨(), trivial, rfl⟩

section Returns
variable {a : α} {values : Values ts} {xs ys : List Float}

theorem Returns.cons (hfirst : field.codec.Yields a (Codec.ifFinite xs a))
    (hrest : rest.Returns values ys) : (Fields.cons field rest).Returns (a, values) (xs ++ ys) := by
  obtain ⟨found, hyields, hgather⟩ := hrest
  refine ⟨(Codec.ifFinite xs a, found), ⟨hfirst, hyields⟩, ?_⟩
  simp only [gather, hgather]
  exact Codec.ifFinite_bind (Option.map_eq_bind.symm.trans (Codec.map_ifFinite _ (a, ·)))

/-- The first value comes back whatever the doubles are. -/
theorem Returns.plain (hfirst : field.codec.Yields a (some a)) (hrest : rest.Returns values ys) :
    (Fields.cons field rest).Returns (a, values) ys := by
  have hfirst : field.codec.Yields a (Codec.ifFinite [] a) := hfirst
  exact Returns.cons hfirst hrest

theorem Returns.map {β : Type} {b : β} {fields : Fields ts} {view : Values ts → β}
    {of : β → Values ts} (h : fields.Returns (of b) xs) (hxs : xs = ys) (hview : view (of b) = b)
    (hnames : fields.names.Nodup) :
    (fields.codec.map view of).Yields b (Codec.ifFinite ys b) := by
  obtain ⟨found, hyields, hgather⟩ := h
  exact (hyields.codec hnames).map (by rw [hgather, Codec.map_ifFinite, hxs, hview])

end Returns

end Fields

end OrderTelemetry.Json
