import Mathlib.Tactic.SplitIfs
import OrderTelemetry.Settings.Value

/-! # Layers of settings

Sources are laid over each other, and the order in which they come leaves its mark: the members of a
table stand in the order in which they were first written.  Nothing that reads a table sees that
order.  Two settings are `Alike` if they show the same at every path, and laying the same over both
keeps them alike.

Values at paths that part ways do not meet, so they can be laid in either order
(`put_put_alike`).  A value that none of the others meets can be laid after all of them
(`layer_mem_alike`). -/

namespace OrderTelemetry.Setting

/-! ### What a path shows -/

/-- A value without the members that it has if it is a table. -/
def outline : Setting → Setting
  | table _ => table []
  | v => v

/-- What stands at a path. -/
def seenAt : List String → Setting → Option Setting
  | [], v => some v.outline
  | name :: path, v => (v.members.lookup name).bind (seenAt path)

/-- The same stands at every path, of two values that need not be there. -/
def AlikeIfAny (a b : Option Setting) : Prop := ∀ path, a.bind (seenAt path) = b.bind (seenAt path)

/-- The same stands at every path. -/
def Alike (v w : Setting) : Prop := ∀ path, seenAt path v = seenAt path w

/-- Two lists of members have alike values under every name. -/
def AlikeMembers (ms ns : List (String × Setting)) : Prop :=
  ∀ name, AlikeIfAny (ms.lookup name) (ns.lookup name)

variable {u v w : Setting} {a b : Option Setting} {ms ns : List (String × Setting)}

theorem AlikeIfAny.refl (a : Option Setting) : AlikeIfAny a a := fun _ => rfl

theorem Alike.refl (v : Setting) : Alike v v := fun _ => rfl

theorem Alike.trans (h : Alike u v) (h' : Alike v w) : Alike u w :=
  fun path => (h path).trans (h' path)

theorem Alike.some (h : Alike v w) : AlikeIfAny (some v) (some w) := h

/-- Tables with alike members are alike. -/
theorem AlikeMembers.table (h : AlikeMembers ms ns) : Alike (table ms) (table ns) := by
  intro path
  cases path with
  | nil => rfl
  | cons name path => exact h name path

theorem lookup_membersBelow (a : Option Setting) (name : String) :
    (membersBelow a).lookup name = a.bind fun v => v.members.lookup name := by
  cases a <;> rfl

theorem AlikeIfAny.membersBelow (h : AlikeIfAny a b) :
    AlikeMembers (membersBelow a) (membersBelow b) := by
  intro name path
  have hpath := h (name :: path)
  rw [lookup_membersBelow, lookup_membersBelow, Option.bind_assoc, Option.bind_assoc]
  exact hpath

/-- Values that are alike are tables with alike members, or the same. -/
theorem Alike.cases (h : Alike v w) :
    (∃ ms ns, v = .table ms ∧ w = .table ns ∧ AlikeMembers ms ns) ∨ v = w := by
  have houtline : v.outline = w.outline := Option.some.inj (h [])
  have hmembers : AlikeMembers (Setting.membersBelow (.some v)) (Setting.membersBelow (.some w)) :=
    AlikeIfAny.membersBelow h.some
  cases v <;> cases w <;> cases houtline
  case table.table ms ns => exact .inl ⟨ms, ns, rfl, rfl, hmembers⟩
  all_goals exact .inr rfl

/-! ### Laying a value -/

theorem lookup_entry_cons (name key : String) (v : Setting) (ms : List (String × Setting)) :
    ((name, v) :: ms).lookup key = if key = name then some v else ms.lookup key := by
  rw [List.lookup_cons]
  by_cases h : key = name
  · rw [if_pos h, beq_iff_eq.mpr h]
  · rw [if_neg h, beq_eq_false_iff_ne.mpr h]

/-- A change at one name leaves what stands under the others. -/
theorem lookup_update (name key : String) (f : Option Setting → Setting)
    (ms : List (String × Setting)) :
    (update name f ms).lookup key =
      if key = name then some (f (ms.lookup name)) else ms.lookup key := by
  induction ms with
  | nil => exact lookup_entry_cons name key (f none) []
  | cons m ms ih =>
    obtain ⟨other, v⟩ := m
    unfold update
    by_cases hother : other = name
    · subst hother
      rw [if_pos rfl, lookup_entry_cons, lookup_entry_cons, lookup_entry_cons, if_pos rfl]
      split_ifs <;> rfl
    · rw [if_neg hother, lookup_entry_cons, lookup_entry_cons, lookup_entry_cons, ih,
        if_neg (Ne.symm hother)]
      by_cases hkey : key = other
      · rw [if_pos hkey, if_pos hkey, if_neg (hkey ▸ hother)]
      · rw [if_neg hkey, if_neg hkey]

theorem AlikeMembers.update (h : AlikeMembers ms ns) (name : String)
    {f g : Option Setting → Setting} (hf : ∀ a b, AlikeIfAny a b → Alike (f a) (g b)) :
    AlikeMembers (update name f ms) (update name g ns) := by
  intro key
  rw [lookup_update, lookup_update]
  split_ifs
  · exact (hf _ _ (h name)).some
  · exact h key

mutual

/-- What lies below shows through in the same way. -/
theorem layOn_alike : ∀ (v : Setting) {a b : Option Setting}, AlikeIfAny a b →
    Alike (layOn a v) (layOn b v)
  | .table ms, _, _, h => by
    rw [layOn, layOn]
    exact (layAllOn_alike ms h.membersBelow).table
  | .boolean _, _, _, _ => .refl _
  | .integer _, _, _, _ => .refl _
  | .real _, _, _, _ => .refl _
  | .text _, _, _, _ => .refl _
  | .list _, _, _, _ => .refl _

theorem layAllOn_alike : ∀ (named : List (String × Setting)) {ms ns : List (String × Setting)},
    AlikeMembers ms ns → AlikeMembers (layAllOn named ms) (layAllOn named ns)
  | [], _, _, h => h
  | (name, v) :: rest, _, _, h =>
    layAllOn_alike rest (h.update name fun _ _ hbelow => layOn_alike v hbelow)

end

theorem AlikeIfAny.put (h : AlikeIfAny a b) (v : Setting) (path : List String) :
    Alike (put v path a) (put v path b) := by
  induction path generalizing a b with
  | nil => exact layOn_alike v h
  | cons name path ih => exact (h.membersBelow.update name fun _ _ => ih).table

theorem membersBelow_put (v : Setting) (name : String) (path : List String) (a : Option Setting) :
    membersBelow (some (put v (name :: path) a)) = update name (put v path) (membersBelow a) := rfl

/-- Whether neither of two paths goes on where the other one ends. -/
def apart : List String → List String → Bool
  | name :: path, other :: way => name != other || apart path way
  | _, _ => false

/-- Values at paths that part ways can be laid in either order. -/
theorem put_put_alike (v w : Setting) {path way : List String} (h : apart path way = true)
    (a : Option Setting) :
    Alike (put v path (some (put w way a))) (put w way (some (put v path a))) := by
  induction path generalizing way a with
  | nil => cases h
  | cons name path ih =>
    cases way with
    | nil => cases h
    | cons other way =>
      refine AlikeMembers.table fun key => ?_
      simp only [membersBelow_put, lookup_update]
      by_cases hname : name = other
      · subst hname
        have hrest : apart path way = true := by simpa [apart] using h
        by_cases hkey : key = name
        · simp only [if_pos hkey, if_pos]
          exact (ih hrest _).some
        · simp only [if_neg hkey]
          exact .refl _
      · simp only [if_neg hname, if_neg (Ne.symm hname)]
        by_cases hkey : key = name
        · rw [if_pos hkey, if_pos hkey, if_neg (hkey ▸ hname)]
          exact .refl _
        · rw [if_neg hkey, if_neg hkey]
          exact .refl _

/-- A value that is no table, laid twice at a path, is laid once. -/
theorem put_put_self_alike {v : Setting} (hv : ∀ b, layOn b v = v) (path : List String)
    (a : Option Setting) : Alike (put v path (some (put v path a))) (put v path a) := by
  induction path generalizing a with
  | nil =>
    unfold put
    rw [hv, hv]
    exact .refl v
  | cons name path ih =>
    refine AlikeMembers.table fun key => ?_
    simp only [membersBelow_put, lookup_update]
    split_ifs
    · exact (ih _).some
    · exact .refl _

/-! ### Laying many values -/

theorem Alike.layer (h : Alike v w) (named : List (String × Setting)) :
    Alike (layer v named) (layer w named) := by
  induction named generalizing v w with
  | nil => exact h
  | cons entry named ih => exact ih (h.some.put entry.2 (pathOf entry.1))

theorem layer_cons (root : Setting) (name : String) (v : Setting)
    (named : List (String × Setting)) :
    layer root ((name, v) :: named) = layer (put v (pathOf name) (some root)) named := rfl

/-- The named values that do not meet a path. -/
def beside (path : List String) (named : List (String × Setting)) : List (String × Setting) :=
  named.filter fun entry => apart (pathOf entry.1) path

/-- Of some named values, those that meet a path are all the same value at this path. -/
def OnlyAt (path : List String) (v : Setting) (named : List (String × Setting)) : Prop :=
  ∀ entry ∈ named, apart (pathOf entry.1) path = true ∨ (pathOf entry.1 = path ∧ entry.2 = v)

section Last
variable {path : List String} {name : String} {named : List (String × Setting)}

theorem beside_cons_of_apart (h : apart (pathOf name) path = true) :
    beside path ((name, w) :: named) = (name, w) :: beside path named := by
  unfold beside
  rw [List.filter_cons, if_pos h]

theorem beside_cons_of_meets (h : ¬ apart (pathOf name) path = true) :
    beside path ((name, w) :: named) = beside path named := by
  unfold beside
  rw [List.filter_cons, if_neg h]

theorem onlyAt_cons : OnlyAt path v ((name, w) :: named) ↔
    (apart (pathOf name) path = true ∨ (pathOf name = path ∧ w = v)) ∧ OnlyAt path v named :=
  List.forall_mem_cons

/-- A value can be laid last if none of the later ones meets it, but for the same value again. -/
theorem layer_put_alike (hv : ∀ below, layOn below v = v) (root : Setting)
    (h : OnlyAt path v named) : Alike (layer (put v path (some root)) named)
      (put v path (some (layer root (beside path named)))) := by
  induction named generalizing root with
  | nil => exact .refl _
  | cons entry named ih =>
    obtain ⟨name, w⟩ := entry
    obtain ⟨hfirst, hrest⟩ := onlyAt_cons.mp h
    rw [layer_cons]
    by_cases hapart : apart (pathOf name) path = true
    · have hswap := put_put_alike w v hapart (some root)
      rw [beside_cons_of_apart hapart, layer_cons]
      exact (hswap.layer named).trans (ih _ hrest)
    · obtain ⟨hpath, rfl⟩ := hfirst.resolve_left hapart
      have hagain := put_put_self_alike hv path (some root)
      rw [beside_cons_of_meets hapart, hpath]
      exact (hagain.layer named).trans (ih root hrest)

/-- A value that is laid among others, none of which meets it, can be laid after them. -/
theorem layer_mem_alike (hv : ∀ below, layOn below v = v) (root : Setting)
    (h : OnlyAt path v named) (hmem : ∃ entry ∈ named, apart (pathOf entry.1) path = false) :
    Alike (layer root named) (put v path (some (layer root (beside path named)))) := by
  induction named generalizing root with
  | nil => simp at hmem
  | cons entry named ih =>
    obtain ⟨name, w⟩ := entry
    obtain ⟨hfirst, hrest⟩ := onlyAt_cons.mp h
    rw [layer_cons]
    by_cases hapart : apart (pathOf name) path = true
    · rw [beside_cons_of_apart hapart, layer_cons]
      refine ih _ hrest ?_
      simpa [hapart] using hmem
    · obtain ⟨hpath, rfl⟩ := hfirst.resolve_left hapart
      rw [beside_cons_of_meets hapart, hpath]
      exact layer_put_alike hv root hrest

end Last

end OrderTelemetry.Setting
