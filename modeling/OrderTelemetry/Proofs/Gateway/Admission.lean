import OrderTelemetry.Gateway
import OrderTelemetry.Proofs.Store.Run

/-! # Admission of submissions

A submission is stored if its three names are there and its five latencies are finite numbers from
zero on.  The gateway looks at these fields one by one, and the first that is not in order decides
the refusal.  The store looks at the latencies once more and finds nothing new.

* `Submission.Admissible`: what has to be true of a submission.
* `Submission.examined`: the fields in the order in which they are looked at, each with its flaw.
* `Submission.normalize_eq`: the normal form, or the first flaw.
* `Gateway.submit_cases`: a refusal changes nothing, and all else appends one record and offers it
  to the queue.
* `Gateway.submit_admits`: which of the two happens, and what a best-effort caller gets. -/

namespace OrderTelemetry

/-! ### What is looked at -/

namespace Latencies

/-- The five latencies. -/
def values (l : Latencies) : List Float := [l.rtt, l.total, l.validation, l.response, l.overhead]

theorem flaw?_eq_none_iff {x : Float} : flaw? x = none ↔ x.isFinite = true ∧ ¬ x < 0.0 := by
  unfold flaw?
  cases x.isFinite <;> simp

theorem fault?_eq_none_iff {l : Latencies} :
    l.fault? = none ↔ ∀ x ∈ l.values, x.isFinite = true ∧ ¬ x < 0.0 := by
  simp [fault?, named, values, flaw?_eq_none_iff]

end Latencies

namespace Submission

/-- A submission that is in order. -/
structure Admissible (s : Submission) : Prop where
  orderId : Text.trim s.orderId ≠ ""
  broker : Text.trim s.broker ≠ ""
  symbol : Text.trim s.symbol ≠ ""
  latencies : ∀ x ∈ s.latencies.values, x.isFinite = true ∧ ¬ x < 0.0

/-- What is wrong with a name. -/
def nameFlaw? (text : String) : Option Flaw :=
  if Text.trim text = "" then some .missing else none

/-- The fields that are looked at, in their order, each with what is wrong with it. -/
def examined (s : Submission) : List (String × Option Flaw) :=
  [("order_id", nameFlaw? s.orderId), ("broker", nameFlaw? s.broker),
   ("symbol", nameFlaw? s.symbol), ("rtt_ms", Latencies.flaw? s.latencies.rtt),
   ("total_latency_ms", Latencies.flaw? s.latencies.total),
   ("validation_latency_ms", Latencies.flaw? s.latencies.validation),
   ("response_latency_ms", Latencies.flaw? s.latencies.response),
   ("overhead_ms", Latencies.flaw? s.latencies.overhead)]

/-- The fault of the first of some fields that is not in order. -/
def firstFault? (fields : List (String × Option Flaw)) : Option Fault :=
  fields.findSome? fun (field, flaw) => flaw.map (Fault.validation field)

variable {s : Submission}

theorem nameFlaw?_eq_none_iff {text : String} : nameFlaw? text = none ↔ Text.trim text ≠ "" := by
  simp [nameFlaw?]

/-- The names are looked at before the latencies. -/
theorem examined_eq (s : Submission) :
    s.examined = [("order_id", nameFlaw? s.orderId), ("broker", nameFlaw? s.broker),
      ("symbol", nameFlaw? s.symbol)] ++
        s.latencies.named.map fun (field, x) => (field, Latencies.flaw? x) :=
  rfl

@[simp] theorem firstFault?_cons_none (field : String) (rest : List (String × Option Flaw)) :
    firstFault? ((field, none) :: rest) = firstFault? rest :=
  rfl

theorem firstFault?_named (l : Latencies) :
    firstFault? (l.named.map fun (field, x) => (field, Latencies.flaw? x)) = l.fault? := by
  unfold firstFault? Latencies.fault?
  rw [List.findSome?_map]
  rfl

theorem firstFault?_eq_none_iff {fields : List (String × Option Flaw)} :
    firstFault? fields = none ↔ ∀ f ∈ fields, f.2 = none := by
  simp [firstFault?]

/-- The fields before the first that is not in order are in order. -/
theorem firstFault?_eq_some_iff {fields : List (String × Option Flaw)} {f : Fault} :
    firstFault? fields = some f ↔ ∃ before field flaw after,
      fields = before ++ (field, some flaw) :: after ∧ (∀ e ∈ before, e.2 = none) ∧
        f = .validation field flaw := by
  unfold firstFault?
  rw [List.findSome?_eq_some_iff]
  constructor
  · rintro ⟨before, ⟨field, flaw⟩, after, hfields, hfault, hbefore⟩
    cases flaw with
    | none => cases hfault
    | some flaw =>
      cases hfault
      exact ⟨before, field, flaw, after, hfields, by simpa using hbefore, rfl⟩
  · rintro ⟨before, field, flaw, after, hfields, hbefore, rfl⟩
    exact ⟨before, (field, some flaw), after, hfields, rfl, by simpa using hbefore⟩

theorem admissible_iff : s.Admissible ↔ ∀ f ∈ s.examined, f.2 = none := by
  have hlatencies : (∀ f ∈ s.latencies.named.map fun (field, x) => (field, Latencies.flaw? x),
      f.2 = none) ↔ ∀ x ∈ s.latencies.values, x.isFinite = true ∧ ¬ x < 0.0 := by
    rw [← firstFault?_eq_none_iff, firstFault?_named, Latencies.fault?_eq_none_iff]
  rw [examined_eq, List.forall_mem_append, hlatencies]
  simp only [List.forall_mem_cons, nameFlaw?_eq_none_iff, List.not_mem_nil, false_imp_iff,
    implies_true, and_true]
  constructor
  · rintro ⟨horder, hbroker, hsymbol, hlatencies⟩
    exact ⟨⟨horder, hbroker, hsymbol⟩, hlatencies⟩
  · rintro ⟨⟨horder, hbroker, hsymbol⟩, hlatencies⟩
    exact ⟨horder, hbroker, hsymbol, hlatencies⟩

/-! ### The normal form -/

theorem required_eq (field text : String) :
    required field text =
      match nameFlaw? text with
      | some flaw => .error (.validation field flaw)
      | none => .ok (Text.trim text) := by
  unfold required nameFlaw?
  by_cases h : Text.trim text = "" <;> simp [h]

/-- The normal form of a submission in order has the trimmed names. -/
def normalForm (s : Submission) (now : Instant) : Draft :=
  s.draft (Text.trim s.orderId) (Text.trim s.broker) (Text.trim s.symbol) now

/-- A submission in order is put into normal form.  Otherwise the first flaw decides. -/
theorem normalize_eq (s : Submission) (now : Instant) (tolerance : Float) :
    s.normalize now tolerance =
      match firstFault? s.examined with
      | some f => (.error f, [])
      | none => (.ok (s.normalForm now), s.remarks (Text.trim s.orderId) tolerance) := by
  rw [examined_eq]
  unfold normalize
  simp only [required_eq]
  cases nameFlaw? s.orderId with
  | some flaw => rfl
  | none =>
    cases nameFlaw? s.broker with
    | some flaw => rfl
    | none =>
      cases nameFlaw? s.symbol with
      | some flaw => rfl
      | none =>
        simp only [List.cons_append, List.nil_append, firstFault?_cons_none, firstFault?_named]
        cases s.latencies.fault? with
        | some f => rfl
        | none => rfl

theorem Admissible.normalize (h : s.Admissible) (now : Instant) (tolerance : Float) :
    s.normalize now tolerance =
      (.ok (s.normalForm now), s.remarks (Text.trim s.orderId) tolerance) := by
  rw [normalize_eq, firstFault?_eq_none_iff.mpr (admissible_iff.mp h)]

/-- The store finds nothing wrong with a normal form. -/
theorem Admissible.fault? (h : s.Admissible) (now : Instant) :
    (s.normalForm now).latencies.fault? = none :=
  Latencies.fault?_eq_none_iff.mpr h.latencies

end Submission

/-! ### One submission -/

/-- Whether a notice tells that the queue did not take a record. -/
def Notice.isRefusal : Notice → Bool
  | queueFull _ => true
  | queueClosed _ => true
  | _ => false

theorem Submission.refusals_remarks (s : Submission) (orderId : String) (tolerance : Float) :
    (s.remarks orderId tolerance).filter Notice.isRefusal = [] := by
  unfold remarks
  simp only [List.filter_append, List.append_eq_nil_iff]
  refine ⟨⟨?_, ?_⟩, ?_⟩
  · split_ifs <;> rfl
  · split_ifs <;> rfl
  · cases s.status <;> cases s.errorText <;> rfl

theorem Store.refusals_insert (s : Store) (d : Draft) (now : Instant) :
    (s.insert d now).notices.filter Notice.isRefusal = [] := by
  unfold insert
  cases d.latencies.fault? with
  | some f => rfl
  | none =>
    dsimp only
    split_ifs <;> rfl

theorem Queue.refusals_enqueue (q : Queue) (r : Record) :
    (q.enqueue r).2.2.filter Notice.isRefusal = (q.enqueue r).2.2 := by
  unfold enqueue
  split_ifs <;> rfl

namespace Gateway

variable {g : Gateway} {s : Submission}

theorem enqueue_eq (g : Gateway) (r : Record) :
    g.enqueue r = ({ g with queue := g.queue.map fun q => (q.enqueue r).2.1 },
      (g.queue.map fun q => (q.enqueue r).2.2).getD []) := by
  unfold enqueue
  cases hqueue : g.queue with
  | none => cases g; cases hqueue; rfl
  | some q => rfl

/-- The gateway once it has stored a record and offered it to the queue. -/
def storing (g : Gateway) (r : Record) (now : Instant) : Gateway :=
  { g with
    store := (g.store.accept r).enforce now
    queue := g.queue.map fun q => (q.enqueue r).2.1 }

theorem submit_of_fault {f : Fault} (h : Submission.firstFault? s.examined = some f)
    (g : Gateway) (now : Instant) :
    g.submit s now = { answer := .error (.fault f), state := g } := by
  unfold submit
  rw [s.normalize_eq, h]

theorem submit_of_exhausted (h : s.Admissible) (hid : g.store.nextId = Store.lastId)
    (now : Instant) :
    (g.submit s now).answer = .error .idsExhausted ∧ (g.submit s now).state = g := by
  obtain ⟨hanswer, hstate⟩ := Store.insert_of_exhausted (h.fault? now) hid now
  unfold submit
  rw [h.normalize]
  dsimp only
  rw [hanswer, hstate]
  exact ⟨rfl, rfl⟩

theorem submit_of_admissible (h : s.Admissible) (hid : g.store.nextId ≠ Store.lastId)
    (now : Instant) :
    let r := (s.normalForm now).withId g.store.nextId
    (g.submit s now).answer = .ok r ∧ (g.submit s now).state = g.storing r now ∧
      (g.submit s now).notices.filter Notice.isRefusal =
        (g.queue.map fun q => (q.enqueue r).2.2).getD [] := by
  intro r
  obtain ⟨hanswer, hstate⟩ := Store.insert_of_sound (h.fault? now) hid now
  unfold submit
  rw [h.normalize]
  dsimp only
  rw [hanswer, hstate]
  dsimp only
  rw [enqueue_eq]
  refine ⟨rfl, rfl, ?_⟩
  simp only [List.filter_append, Submission.refusals_remarks, Store.refusals_insert,
    List.nil_append]
  cases g.queue with
  | none => rfl
  | some q =>
    show (q.enqueue r).2.2.filter Notice.isRefusal ++ [] = (q.enqueue r).2.2
    rw [List.append_nil, Queue.refusals_enqueue]

/-- **What a submission can do**: it is refused and changes nothing, or its normal form is stored
under the next id and offered to the queue. -/
theorem submit_cases (g : Gateway) (s : Submission) (now : Instant) :
    (∃ e, (g.submit s now).answer = .error e ∧ (g.submit s now).state = g) ∨
      s.Admissible ∧ g.store.nextId ≠ Store.lastId ∧
        (g.submit s now).answer = .ok ((s.normalForm now).withId g.store.nextId) ∧
        (g.submit s now).state = g.storing ((s.normalForm now).withId g.store.nextId) now := by
  cases hfault : Submission.firstFault? s.examined with
  | some f =>
    rw [submit_of_fault hfault g now]
    exact Or.inl ⟨_, rfl, rfl⟩
  | none =>
    have h : s.Admissible :=
      Submission.admissible_iff.mpr (Submission.firstFault?_eq_none_iff.mp hfault)
    by_cases hid : g.store.nextId = Store.lastId
    · exact Or.inl ⟨_, submit_of_exhausted h hid now⟩
    · obtain ⟨hanswer, hstate, -⟩ := submit_of_admissible h hid now
      exact Or.inr ⟨h, hid, hanswer, hstate⟩

/-- A best-effort caller leaves the same behind. -/
theorem record_state (g : Gateway) (s : Submission) (now : Instant) :
    (g.record s now).state = (g.submit s now).state := by
  unfold record
  generalize g.submit s now = step
  obtain ⟨answer, state, notices⟩ := step
  rcases answer with e | r
  · cases e <;> rfl
  · rfl

theorem record_of_ok {now : Instant} {r : Record} (h : (g.submit s now).answer = .ok r) :
    (g.record s now).answer = .ok (some r.id) := by
  unfold record
  dsimp only
  rw [h]

theorem record_of_fault {now : Instant} {f : Fault}
    (h : (g.submit s now).answer = .error (.fault f)) : (g.record s now).answer = .ok none := by
  unfold record
  dsimp only
  rw [h]

/-- **Admission.**  As long as an id is left, a submission is stored if and only if it is in order.
A refusal names the first field that is not and changes nothing.  A submission that is stored is
appended in its normal form under the next id, without the store finding anything wrong with it, and
is offered to the queue once.  A best-effort caller gets the id, or none after a refusal. -/
theorem submit_admits (g : Gateway) (s : Submission) (now : Instant)
    (hid : g.store.nextId ≠ Store.lastId) :
    let step := g.submit s now
    (step.answer.isOk = true ↔ s.Admissible) ∧
      (¬ s.Admissible → ∃ before field flaw after,
        s.examined = before ++ (field, some flaw) :: after ∧ (∀ e ∈ before, e.2 = none) ∧
          step.answer = .error (.fault (.validation field flaw)) ∧ step.state = g) ∧
      (s.Admissible → ∃ d, (s.normalize now g.tolerance).1 = .ok d ∧ d.latencies.fault? = none ∧
        step.answer = .ok (d.withId g.store.nextId) ∧
        step.state.store = (g.store.accept (d.withId g.store.nextId)).enforce now ∧
        step.state.queue = g.queue.map (fun q => (q.enqueue (d.withId g.store.nextId)).2.1) ∧
        step.notices.filter Notice.isRefusal =
          (g.queue.map fun q => (q.enqueue (d.withId g.store.nextId)).2.2).getD []) ∧
      (g.record s now).answer = .ok (step.answer.toOption.map Record.id) ∧
      (g.record s now).state = step.state := by
  intro step
  have hstate := g.record_state s now
  by_cases h : s.Admissible
  · obtain ⟨hanswer, hstored, hrefusals⟩ := submit_of_admissible h hid now
    have hanswer : step.answer = .ok _ := hanswer
    have hstored : step.state = _ := hstored
    refine ⟨?_, fun hno => absurd h hno, fun _ => ?_, ?_, hstate⟩
    · rw [hanswer]
      exact iff_of_true rfl h
    · refine ⟨s.normalForm now, ?_, h.fault? now, hanswer, ?_, ?_, hrefusals⟩
      · rw [h.normalize]
      · rw [hstored]; rfl
      · rw [hstored]; rfl
    · rw [record_of_ok hanswer, hanswer]
      rfl
  · obtain ⟨f, hfault⟩ : ∃ f, Submission.firstFault? s.examined = some f := by
      rw [← Option.isSome_iff_exists, Option.isSome_iff_ne_none, Ne,
        Submission.firstFault?_eq_none_iff, ← Submission.admissible_iff]
      exact h
    have hstep : step = { answer := .error (.fault f), state := g } := submit_of_fault hfault g now
    have hanswer : step.answer = .error (.fault f) := by rw [hstep]
    refine ⟨?_, fun _ => ?_, fun hyes => absurd hyes h, ?_, hstate⟩
    · rw [hanswer]
      exact iff_of_false (by simp [Except.isOk, Except.toBool]) h
    · obtain ⟨before, field, flaw, after, hfields, hbefore, rfl⟩ :=
        Submission.firstFault?_eq_some_iff.mp hfault
      exact ⟨before, field, flaw, after, hfields, hbefore, hanswer, by rw [hstep]⟩
    · rw [record_of_fault hanswer, hanswer]
      rfl

/-- A submission with blanks around the order id. -/
def padded (broker : String) (rtt : Float) : Submission :=
  { orderId := " A1\n", broker, symbol := "S", orderType := "lmt", timestamp := none,
    latencies := ⟨rtt, 2.0, 0.5, 1.0, 0.5⟩, status := .success, error := none }

/-- The blanks go, and of two fields that are not in order the first is named. -/
theorem submit_admits_padded :
    let g : Gateway := ⟨.empty ⟨2, none⟩, some (.ofCapacity 1), 1.0⟩
    g.store.nextId ≠ Store.lastId ∧
      ((g.submit (padded "b" 1.0) ⟨100, 0⟩).answer.isOk = true ↔ (padded "b" 1.0).Admissible) ∧
      (g.record (padded "b" 1.0) ⟨100, 0⟩).answer.toOption = some (some 1) ∧
      (g.submit (padded "b" 1.0) ⟨100, 0⟩).answer.toOption.map (fun r => r.orderId) = some "A1" ∧
      (g.submit (padded " " (-1.0)) ⟨100, 0⟩).answer =
        .error (.fault (.validation "broker" .missing)) := by
  intro g
  have hid : g.store.nextId ≠ Store.lastId := by decide
  have hfault : Submission.firstFault? (padded " " (-1.0)).examined =
      some (.validation "broker" .missing) := by decide +kernel
  obtain ⟨hiff, -⟩ := submit_admits g (padded "b" 1.0) ⟨100, 0⟩ hid
  refine ⟨hid, hiff, by decide +kernel, by decide +kernel, ?_⟩
  rw [submit_of_fault hfault]

end Gateway

end OrderTelemetry
