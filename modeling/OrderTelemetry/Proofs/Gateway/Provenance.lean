import OrderTelemetry.Dashboard
import OrderTelemetry.Proofs.Gateway.Admission
import OrderTelemetry.Proofs.Store.Lookup
import OrderTelemetry.Proofs.Store.Statistics
import OrderTelemetry.Proofs.Text.Blank

/-! # Records and the submissions they come from

As long as records enter a store through its gateway only, each of them comes from a submission.
The gateway trims the order id before it stores a record, and the dashboard trims the one that it is
asked for, so whoever knows how a submission named its order finds its record under that name.

* `Gateway.Turn`: what may happen to a gateway without records entering its store elsewhere.
* `Gateway.accepted`, `Gateway.retained`: the submissions that are accepted, each with its record,
  and those of them whose records are still in the window.
* `Gateway.Traced`: the invariant.  The window is what the retained submissions became, and the
  records have the trimmed order ids of their submissions.
* `Gateway.ofOrder_traced`: what the dashboard finds for an order. -/

namespace OrderTelemetry

/-- A call on a store that brings no record into it. -/
def Call.Barren : Call → Prop
  | .insert _ _ => False
  | .restore records _ => records = []
  | .resumeAfter _ | .evictExpired _ | .stats => True

theorem Call.Barren.pushed {c : Call} (h : c.Barren) (s : Store) : s.pushed c = [] := by
  cases c with
  | insert d now => exact h.elim
  | restore records now =>
    obtain rfl : records = [] := h
    simp [Store.pushed, Store.accepted]
  | resumeAfter id => rfl
  | evictExpired now => rfl
  | stats => rfl

theorem Store.Indexed.after {s : Store} (h : s.Indexed) (c : Call) : (s.after c).Indexed := by
  have hedits := s.after_edits c
  generalize s.after c = t at hedits
  induction hedits with
  | refl => exact h
  | tail _ hlast ih => exact Store.Indexed.edit hlast ih

namespace Gateway

/-! ### Turns -/

/-- What may happen to a gateway and its store as long as records come from submissions only. -/
inductive Turn where
  | submit (x : Submission) (now : Instant)
  /-- A submission of a caller that cannot do anything about a refusal. -/
  | record (x : Submission) (now : Instant)
  | call (c : Call) (barren : c.Barren)
  /-- The writer takes records from the queue, or the queue is closed. -/
  | queue (q : Option Queue)

/-- The gateway after a turn. -/
def turn (g : Gateway) : Turn → Gateway
  | .submit x now => (g.submit x now).state
  | .record x now => (g.record x now).state
  | .call c _ => { g with store := g.store.after c }
  | .queue q => { g with queue := q }

/-- A submission with the record it becomes, if it is accepted. -/
def traceOf (g : Gateway) (x : Submission) (now : Instant) : List (Submission × Record) :=
  (g.submit x now).answer.toOption.toList.map fun r => (x, r)

/-- What is accepted in a turn. -/
def acceptedIn (g : Gateway) : Turn → List (Submission × Record)
  | .submit x now | .record x now => g.traceOf x now
  | _ => []

/-- The gateway after some turns. -/
def after (g : Gateway) (turns : List Turn) : Gateway := turns.foldl turn g

/-- The submissions that are accepted in some turns, in their order, each with its record. -/
def accepted (g : Gateway) : List Turn → List (Submission × Record)
  | [] => []
  | t :: rest => g.acceptedIn t ++ (g.turn t).accepted rest

/-- The last of the accepted submissions, as many as there are records in the window afterwards. -/
def retained (g : Gateway) (turns : List Turn) : List (Submission × Record) :=
  (g.accepted turns).drop ((g.accepted turns).length - (g.after turns).store.size)

/-! ### Tracing -/

/-- The window is what the last of some accepted submissions became, and every record has the order
id of its submission without the blanks around it. -/
structure Traced (s : Store) (accepted : List (Submission × Record)) : Prop where
  indexed : s.Indexed
  window : ∃ retained, retained <:+ accepted ∧ retained.map Prod.snd = s.window.toList
  named : ∀ e ∈ accepted, e.2.orderId = Text.trim e.1.orderId

section Traced
variable {s : Store} {accepted : List (Submission × Record)}

theorem Traced.empty (p : Retention) : Traced (.empty p) [] :=
  ⟨Store.indexed_run p [], ⟨[], List.suffix_rfl, rfl⟩, fun _ he => (List.not_mem_nil he).elim⟩

/-- A call appends records to the window and takes others off its front. -/
theorem Traced.after (h : Traced s accepted) {c : Call} {added : List (Submission × Record)}
    (hadded : added.map Prod.snd = s.pushed c)
    (hnamed : ∀ e ∈ added, e.2.orderId = Text.trim e.1.orderId) :
    Traced (s.after c) (accepted ++ added) := by
  obtain ⟨retained, hsuffix, hwindow⟩ := h.window
  obtain ⟨gone, hconserved, -⟩ := s.after_conserves c
  refine ⟨h.indexed.after c, ⟨(retained ++ added).drop gone.length, ?_, ?_⟩, ?_⟩
  · have hboth : retained ++ added <:+ accepted ++ added := by
      obtain ⟨before, rfl⟩ := hsuffix
      exact ⟨before, by rw [List.append_assoc]⟩
    exact (List.drop_suffix _ _).trans hboth
  · rw [List.map_drop, List.map_append, hwindow, hadded, hconserved, List.drop_left]
  · exact List.forall_mem_append.mpr ⟨h.named, hnamed⟩

/-- The retained submissions are the last ones, as many as the window has records. -/
theorem Traced.map_drop (h : Traced s accepted) :
    (accepted.drop (accepted.length - s.size)).map Prod.snd = s.window.toList := by
  obtain ⟨retained, hsuffix, hwindow⟩ := h.window
  have hsize : retained.length = s.size := by
    rw [← List.length_map Prod.snd, hwindow]
    exact Array.length_toList
  rw [← hsize, ← List.suffix_iff_eq_drop.mp hsuffix, hwindow]

end Traced

variable {g : Gateway}

/-- A submission is a call of the store that appends what is accepted of it. -/
theorem submit_traced (g : Gateway) (x : Submission) (now : Instant) :
    (g.traceOf x now = [] ∧ (g.submit x now).state = g) ∨
      ∃ r : Record, g.traceOf x now = [(x, r)] ∧ r.orderId = Text.trim x.orderId ∧
        g.store.pushed (.insert (x.normalForm now) now) = [r] ∧
        (g.submit x now).state.store = g.store.after (.insert (x.normalForm now) now) := by
  unfold traceOf
  rcases g.submit_cases x now with ⟨e, hanswer, hstate⟩ | ⟨hx, hid, hanswer, hstate⟩
  · rw [hanswer]
    exact .inl ⟨rfl, hstate⟩
  · obtain ⟨hinserted, hafter⟩ := Store.insert_of_sound (hx.fault? now) hid now
    rw [hanswer, hstate]
    refine .inr ⟨(x.normalForm now).withId g.store.nextId, rfl, rfl, ?_, hafter.symm⟩
    rw [Store.pushed, hinserted]

theorem Traced.submit {accepted : List (Submission × Record)} (h : Traced g.store accepted)
    (x : Submission) (now : Instant) :
    Traced (g.submit x now).state.store (accepted ++ g.traceOf x now) := by
  rcases g.submit_traced x now with ⟨htrace, hstate⟩ | ⟨r, htrace, hname, hpushed, hstore⟩
  · rwa [htrace, hstate, List.append_nil]
  · rw [htrace, hstore]
    exact h.after (by rw [hpushed]; rfl) (List.forall_mem_singleton.mpr hname)

theorem Traced.turn {accepted : List (Submission × Record)} (h : Traced g.store accepted)
    (t : Turn) : Traced (g.turn t).store (accepted ++ g.acceptedIn t) := by
  cases t with
  | submit x now =>
    rw [Gateway.turn]
    exact h.submit x now
  | record x now =>
    rw [Gateway.turn, record_state]
    exact h.submit x now
  | call c barren =>
    have hadded : ([] : List (Submission × Record)).map Prod.snd = g.store.pushed c :=
      (barren.pushed g.store).symm
    exact h.after hadded fun _ he => (List.not_mem_nil he).elim
  | queue q =>
    have hsame : (g.turn (.queue q)).store = g.store := rfl
    rw [hsame, show g.acceptedIn (.queue q) = [] from rfl, List.append_nil]
    exact h

theorem Traced.run {accepted : List (Submission × Record)} (h : Traced g.store accepted)
    (turns : List Turn) : Traced (g.after turns).store (accepted ++ g.accepted turns) := by
  induction turns generalizing g accepted with
  | nil => rwa [Gateway.accepted, List.append_nil]
  | cons t rest ih =>
    rw [Gateway.accepted, ← List.append_assoc]
    exact ih (h.turn t)

/-- **Submissions are found under the order they name.**  While records come in through the gateway
only, the dashboard finds for a text exactly the retained submissions that name the same order,
oldest first, where blanks around either name do not matter.  So every retained submission is found
under the name as it was submitted, and two of them are found together if and only if their names
are the same but for blanks around them. -/
theorem ofOrder_traced (p : Retention) (queue : Option Queue) (tolerance : Float)
    (turns : List Turn) :
    let g : Gateway := ⟨.empty p, queue, tolerance⟩
    let s := (g.after turns).store
    let retained := g.retained turns
    retained <:+ g.accepted turns ∧ retained.map Prod.snd = s.window.toList ∧
      (∀ x, Dashboard.ofOrder s x =
        (retained.filter fun e => Text.trim e.1.orderId == Text.trim x).map Prod.snd) ∧
      (∀ e ∈ retained, e.2 ∈ Dashboard.ofOrder s e.1.orderId) ∧
      ∀ e ∈ retained, ∀ f ∈ retained,
        ((∃ x, e.2 ∈ Dashboard.ofOrder s x ∧ f.2 ∈ Dashboard.ofOrder s x) ↔
          Text.SameInside e.1.orderId f.1.orderId) := by
  intro g s retained
  have hstart : Traced g.store [] := .empty p
  have htraced : Traced s (g.accepted turns) := hstart.run turns
  have hsuffix : retained <:+ g.accepted turns := List.drop_suffix _ _
  have hwindow : retained.map Prod.snd = s.window.toList := htraced.map_drop
  have hnamed : ∀ e ∈ retained, e.2.orderId = Text.trim e.1.orderId :=
    fun e he => htraced.named e (hsuffix.mem he)
  have hfound : ∀ x, Dashboard.ofOrder s x =
      (retained.filter fun e => Text.trim e.1.orderId == Text.trim x).map Prod.snd := by
    intro x
    unfold Dashboard.ofOrder
    rw [htraced.indexed.ofOrder, ← hwindow, List.filter_map]
    exact congrArg _ (List.filter_congr fun e he => by rw [Function.comp_apply, hnamed e he])
  -- a retained record is in the window, so it is found by its own order id
  have hmem : ∀ e ∈ retained, ∀ x, e.2 ∈ Dashboard.ofOrder s x ↔
      Text.trim e.1.orderId = Text.trim x := by
    intro e he x
    have hretained : e.2 ∈ s.window.toList := hwindow ▸ List.mem_map_of_mem he
    unfold Dashboard.ofOrder
    rw [htraced.indexed.ofOrder, List.mem_filter, beq_iff_eq, hnamed e he]
    exact and_iff_right hretained
  refine ⟨hsuffix, hwindow, hfound, fun e he => (hmem e he _).mpr rfl, fun e he f hf => ?_⟩
  rw [← Text.trim_eq_trim_iff]
  constructor
  · rintro ⟨x, hx, hx'⟩
    exact ((hmem e he x).mp hx).trans ((hmem f hf x).mp hx').symm
  · exact fun h => ⟨f.1.orderId, (hmem e he _).mpr h, (hmem f hf _).mpr rfl⟩

end Gateway

end OrderTelemetry
