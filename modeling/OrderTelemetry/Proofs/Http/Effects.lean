import OrderTelemetry.Proofs.Http.Submitting
import OrderTelemetry.Proofs.Store.Statistics

/-! # What requests leave behind

A request changes the store or the archive queue if and only if its response has the status 201, and
then it does what one submission does.  All that any other request may leave behind is a sorted
sample, and nobody can tell a service that remembers one from a service that does not.  So the
requests that are not answered with 201 might as well not have come.

* `Service.forget`: a service without the sample that its store remembers.
* `Service.answer_cases`: what a request can do.
* `Service.exchanges`: requests and what they get, one after the other.
* `Service.exchanges_congr`: services that only differ in what they remember answer alike.
* `Service.exchanges_sublist`: exchanges without some that are not answered with 201 are the
  exchanges of their requests.
* `Service.requests_effects`: the theorem. -/

namespace OrderTelemetry

open Http

/-! ### Without the sample -/

/-- The store without the sample that it remembers. -/
def Store.forget (s : Store) : Store := { s with sample := none }

/-- The gateway without the sample that its store remembers. -/
def Gateway.forget (g : Gateway) : Gateway := { g with store := g.store.forget }

theorem Store.Accounted.forget {s : Store} (h : s.Accounted) : s.forget.Accounted :=
  ⟨h.totals, fun _ hsample => by cases hsample⟩

/-- Submitting does not look at the sample. -/
theorem Gateway.submit_forget (g : Gateway) (x : Submission) (now : Instant) :
    (g.forget.submit x now).answer = (g.submit x now).answer ∧
      (g.forget.submit x now).state = (g.submit x now).state.forget := by
  cases hfault : Submission.firstFault? x.examined with
  | some f =>
    rw [submit_of_fault hfault, submit_of_fault hfault]
    exact ⟨rfl, rfl⟩
  | none =>
    have h : x.Admissible :=
      Submission.admissible_iff.mpr (Submission.firstFault?_eq_none_iff.mp hfault)
    by_cases hid : g.store.nextId = Store.lastId
    · obtain ⟨hanswer, hstate⟩ := submit_of_exhausted h hid now
      obtain ⟨hanswer', hstate'⟩ := submit_of_exhausted (g := g.forget) h hid now
      rw [hanswer, hstate, hanswer', hstate']
      exact ⟨rfl, rfl⟩
    · obtain ⟨hanswer, hstate, -⟩ := submit_of_admissible h hid now
      obtain ⟨hanswer', hstate', -⟩ := submit_of_admissible (g := g.forget) h hid now
      rw [hanswer, hstate, hanswer', hstate']
      exact ⟨rfl, rfl⟩

/-- A submission that is stored is stored under the next id. -/
theorem Gateway.submit_stores {g : Gateway} {x : Submission} {now : Instant} {record : Record}
    (h : (g.submit x now).answer = .ok record) :
    ∃ r, r.id = g.store.nextId ∧ (g.submit x now).state = g.storing r now := by
  rcases g.submit_cases x now with ⟨e, hanswer, -⟩ | ⟨-, -, -, hstored⟩
  · rw [h] at hanswer
    cases hanswer
  · exact ⟨_, rfl, hstored⟩

theorem Gateway.nextId_storing (g : Gateway) (r : Record) (now : Instant) :
    (g.storing r now).store.nextId = r.id + 1 := rfl

namespace Service

/-- The service without the sample that its store remembers. -/
def forget (s : Service) : Service := { s with gateway := s.gateway.forget }

/-- Whether a request has been answered with the status 201. -/
def created : Except Failure Response → Bool
  | .ok response => response.status == 201
  | .error _ => false

/-- The response to a submission that is stored under an id. -/
def recorded (id : Nat) : Except Failure Response := .ok (.ofValue 201 recordedCodec id)

theorem nextId_forget (s : Service) : s.forget.store.nextId = s.store.nextId := rfl

theorem created_of_not_isSuccess {answer : Except Failure Response}
    (h : ∀ response, answer = .ok response → response.isSuccess = false) :
    created answer = false := by
  cases answer with
  | error e => rfl
  | ok response =>
    by_contra hcreated
    have hstatus : response.status = 201 := by simpa [created] using hcreated
    have hfailure := h response rfl
    rw [Response.isSuccess, hstatus] at hfailure
    cases hfailure

variable {s t : Service}

/-! ### What one request does -/

/-- A request stores the submission in its body, as the gateway does, and gets the id that was
next. -/
def Stores (s : Service) (r : Request) (now : Instant) : Prop :=
  ∃ x record, Submission.codec.parse r.body = .ok x ∧
    (s.gateway.submit x now).answer = .ok record ∧ record.id = s.store.nextId ∧
    (s.answer r now).answer = recorded s.store.nextId ∧
    (s.answer r now).state = { s with gateway := (s.gateway.submit x now).state }

/-- A request that reads gets no 201, and leaves a sample behind at most. -/
theorem get_cases (s : Service) (route : Route) (query : String) (now : Instant) :
    created (s.get route query now).answer = false ∧
      ((s.get route query now).state = s ∨
        (s.get route query now).state = s.withStore s.store.stats.state) := by
  cases route with
  | health => exact ⟨rfl, .inl rfl⟩
  | logs =>
    refine ⟨?_, .inl rfl⟩
    show created (.ok (s.getLogs query)) = false
    unfold getLogs
    cases LogsQuery.ofQuery? query <;> rfl
  | stats => exact ⟨rfl, .inr rfl⟩
  | detailedStats => exact ⟨rfl, .inl rfl⟩
  | exports => exact ⟨rfl, .inl rfl⟩

/-- The same goes for a submission that is not stored. -/
theorem postLog_cases (s : Service) (r : Request) (now : Instant) :
    (∃ x record, Submission.codec.parse r.body = .ok x ∧
        (s.gateway.submit x now).answer = .ok record ∧
        (s.postLog r now).answer = recorded record.id ∧
        (s.postLog r now).state = { s with gateway := (s.gateway.submit x now).state }) ∨
      created (s.postLog r now).answer = false ∧ (s.postLog r now).state = s := by
  by_cases htype : ((r.header? "content-type").map MediaType.isJson).getD false = true
  · cases hread : Submission.codec.parse r.body with
    | error p =>
      rw [postLog_of_unread htype hread]
      cases p <;> exact .inr ⟨rfl, rfl⟩
    | ok x =>
      cases hsubmit : (s.gateway.submit x now).answer with
      | ok record =>
        obtain ⟨hanswer, hstate⟩ := postLog_of_stored htype hread hsubmit
        exact .inl ⟨x, record, rfl, hsubmit, hanswer, hstate⟩
      | error e =>
        obtain ⟨hfailure, hstate⟩ := postLog_of_refused htype hread hsubmit
        exact .inr ⟨created_of_not_isSuccess hfailure, hstate⟩
  · unfold postLog
    rw [if_neg htype]
    exact .inr ⟨rfl, rfl⟩

/-- **What a request can do**: it stores a submission, or it is not answered with 201 and leaves a
sample behind at most. -/
theorem answer_cases (s : Service) (r : Request) (now : Instant) :
    s.Stores r now ∨
      created (s.answer r now).answer = false ∧
        ((s.answer r now).state = s ∨
          (s.answer r now).state = s.withStore s.store.stats.state) := by
  unfold Stores answer
  cases Route.ofPath? r.path with
  | none => exact .inr ⟨rfl, .inl rfl⟩
  | some route =>
    dsimp only
    split_ifs with hget hhead hpost
    · exact .inr (s.get_cases route r.query now)
    · obtain ⟨hcreated, hstate⟩ := s.get_cases route r.query now
      refine .inr ⟨?_, hstate⟩
      cases hanswer : (s.get route r.query now).answer with
      | error e => rfl
      | ok response =>
        rw [hanswer] at hcreated
        exact hcreated
    · rcases s.postLog_cases r now with ⟨x, record, hread, hsubmit, hanswer, hstate⟩ | ⟨hno, hstate⟩
      · have hid : record.id = s.store.nextId := (Gateway.submit_ok hsubmit).2
        rw [hid] at hanswer
        exact .inl ⟨x, record, hread, hsubmit, hid, hanswer, hstate⟩
      · exact .inr ⟨hno, .inl hstate⟩
    · exact .inr ⟨rfl, .inl rfl⟩

/-- A submission that is stored passes the next id. -/
theorem Stores.nextId {r : Request} {now : Instant} (h : s.Stores r now) :
    (s.answer r now).state.store.nextId = s.store.nextId + 1 := by
  obtain ⟨x, record, -, hsubmit, -, -, hstate⟩ := h
  obtain ⟨a, hid, hstored⟩ := Gateway.submit_stores hsubmit
  rw [hstate, store, hstored, Gateway.nextId_storing, hid]
  rfl

theorem created_answer_iff (s : Service) (r : Request) (now : Instant) :
    created (s.answer r now).answer = true ↔ s.Stores r now := by
  constructor
  · intro hcreated
    rcases s.answer_cases r now with hstores | ⟨hno, -⟩
    · exact hstores
    · rw [hno] at hcreated
      cases hcreated
  · rintro ⟨-, -, -, -, -, hanswer, -⟩
    rw [hanswer]
    rfl

/-- What a service remembers is all that may change without a 201. -/
theorem forget_answer_of_not_created {r : Request} {now : Instant}
    (h : created (s.answer r now).answer = false) : (s.answer r now).state.forget = s.forget := by
  rcases s.answer_cases r now with hstores | ⟨-, hstate | hstate⟩
  · rw [(s.created_answer_iff r now).mpr hstores] at h
    cases h
  · rw [hstate]
  · rw [hstate]
    rfl

theorem forget_answer_ne_iff (s : Service) (r : Request) (now : Instant) :
    (s.answer r now).state.forget ≠ s.forget ↔ created (s.answer r now).answer = true := by
  constructor
  · intro hne
    by_contra hno
    exact hne (forget_answer_of_not_created (Bool.not_eq_true _ ▸ hno))
  · intro hcreated heq
    have hnext := ((s.created_answer_iff r now).mp hcreated).nextId
    rw [← nextId_forget, heq, nextId_forget] at hnext
    omega

theorem accounted_answer (h : s.store.Accounted) (r : Request) (now : Instant) :
    (s.answer r now).state.store.Accounted := by
  rcases s.answer_cases r now with ⟨x, record, -, hsubmit, -, -, hstate⟩ | ⟨-, hstate | hstate⟩
  · rw [hstate]
    obtain ⟨a, hid, hstored⟩ := Gateway.submit_stores hsubmit
    rw [store, hstored]
    exact (h.edit (.accept _ a (Nat.le_of_eq hid.symm))).edit (.evict _ _)
  · rw [hstate]
    exact h
  · rw [hstate]
    exact h.edit (.remember _)

/-! ### Remembering makes no difference -/

theorem get_forget (h : s.store.Accounted) (route : Route) (query : String) (now : Instant) :
    (s.forget.get route query now).answer = (s.get route query now).answer ∧
      (s.forget.get route query now).state.forget = (s.get route query now).state.forget := by
  cases route with
  | stats =>
    refine ⟨?_, rfl⟩
    show s.store.forget.stats.answer.map _ = s.store.stats.answer.map _
    rw [h.forget.stats, h.stats]
    rfl
  | health => exact ⟨rfl, rfl⟩
  | logs => exact ⟨rfl, rfl⟩
  | detailedStats => exact ⟨rfl, rfl⟩
  | exports => exact ⟨rfl, rfl⟩

theorem postLog_forget (s : Service) (r : Request) (now : Instant) :
    (s.forget.postLog r now).answer = (s.postLog r now).answer ∧
      (s.forget.postLog r now).state.forget = (s.postLog r now).state.forget := by
  unfold postLog
  split_ifs
  · cases Submission.codec.parse r.body with
    | error p => exact ⟨rfl, rfl⟩
    | ok x =>
      obtain ⟨hanswer, hstate⟩ := s.gateway.submit_forget x now
      dsimp only [forget]
      generalize s.gateway.forget.submit x now = step' at *
      generalize s.gateway.submit x now = step at *
      rw [hanswer, hstate]
      cases step.answer with
      | ok record => exact ⟨rfl, rfl⟩
      | error e => cases e <;> exact ⟨rfl, rfl⟩
  · exact ⟨rfl, rfl⟩

/-- A service answers the same whether it remembers or not. -/
theorem answer_forget (h : s.store.Accounted) (r : Request) (now : Instant) :
    (s.forget.answer r now).answer = (s.answer r now).answer ∧
      (s.forget.answer r now).state.forget = (s.answer r now).state.forget := by
  unfold answer
  cases Route.ofPath? r.path with
  | none => exact ⟨rfl, rfl⟩
  | some route =>
    obtain ⟨hanswer, hstate⟩ := get_forget h route r.query now
    dsimp only
    split_ifs
    · exact ⟨hanswer, hstate⟩
    · exact ⟨congrArg (Except.map Response.bodiless) hanswer, hstate⟩
    · exact s.postLog_forget r now
    · exact ⟨rfl, rfl⟩

/-! ### One request after the other -/

/-- A request that has come in at a time, with what it got. -/
structure Exchange where
  request : Request
  time : Instant
  answer : Except Failure Response

/-- The service after some requests, each at a time. -/
def serve (s : Service) (requests : List (Request × Instant)) : Service :=
  requests.foldl (fun s (r, now) => (s.answer r now).state) s

/-- What some requests get, each at a time. -/
def exchanges (s : Service) : List (Request × Instant) → List Exchange
  | [] => []
  | (r, now) :: rest => ⟨r, now, (s.answer r now).answer⟩ :: (s.answer r now).state.exchanges rest

/-- The request of an exchange, with its time. -/
def Exchange.arrival (e : Exchange) : Request × Instant := (e.request, e.time)

/-- Whether an exchange ended with the status 201. -/
def Exchange.created (e : Exchange) : Bool := Service.created e.answer

/-- **Services that only differ in what they remember answer alike**, however many requests there
are. -/
theorem exchanges_congr (hs : s.store.Accounted) (ht : t.store.Accounted)
    (h : s.forget = t.forget) (requests : List (Request × Instant)) :
    s.exchanges requests = t.exchanges requests ∧
      (s.serve requests).forget = (t.serve requests).forget := by
  induction requests generalizing s t with
  | nil => exact ⟨rfl, h⟩
  | cons first rest ih =>
    obtain ⟨r, now⟩ := first
    obtain ⟨hanswer, hstate⟩ := answer_forget hs r now
    obtain ⟨hanswer', hstate'⟩ := answer_forget ht r now
    rw [h] at hanswer hstate
    obtain ⟨hrest, hlast⟩ := ih (accounted_answer hs r now) (accounted_answer ht r now)
      (hstate.symm.trans hstate')
    refine ⟨?_, hlast⟩
    rw [exchanges, exchanges, ← hanswer, hanswer', hrest]

/-- **Requests that are not answered with 201 might as well not have come.** -/
theorem exchanges_sublist (h : s.store.Accounted) {requests : List (Request × Instant)}
    {kept : List Exchange} (hkept : kept.Sublist (s.exchanges requests))
    (hall : kept.filter Exchange.created = (s.exchanges requests).filter Exchange.created) :
    s.exchanges (kept.map Exchange.arrival) = kept ∧
      (s.serve (kept.map Exchange.arrival)).forget = (s.serve requests).forget := by
  induction requests generalizing s kept with
  | nil =>
    obtain rfl := List.sublist_nil.mp hkept
    exact ⟨rfl, rfl⟩
  | cons first rest ih =>
    obtain ⟨r, now⟩ := first
    have hnext := accounted_answer h r now
    rw [exchanges] at hkept hall
    rcases List.sublist_cons_iff.mp hkept with hdropped | ⟨later, rfl, hlater⟩
    · -- a 201 is not dropped, since there are no fewer of them in what is kept
      have hno : Service.created (s.answer r now).answer = false := by
        by_contra hcreated
        have hlength := (hdropped.filter Exchange.created).length_le
        rw [hall, List.filter_cons_of_pos (by simpa [Exchange.created] using hcreated),
          List.length_cons] at hlength
        omega
      rw [List.filter_cons_of_neg (by simp [Exchange.created, hno])] at hall
      obtain ⟨hsame, hlast⟩ := ih hnext hdropped hall
      obtain ⟨hexchanges, hserve⟩ := exchanges_congr h hnext
        (forget_answer_of_not_created hno).symm (kept.map Exchange.arrival)
      exact ⟨hexchanges.trans hsame, hserve.trans hlast⟩
    · have hall : later.filter Exchange.created =
          ((s.answer r now).state.exchanges rest).filter Exchange.created := by
        by_cases hcreated : Exchange.created ⟨r, now, (s.answer r now).answer⟩ = true
        · rw [List.filter_cons_of_pos hcreated, List.filter_cons_of_pos hcreated] at hall
          exact List.tail_eq_of_cons_eq hall
        · rwa [List.filter_cons_of_neg hcreated, List.filter_cons_of_neg hcreated] at hall
      obtain ⟨hsame, hlast⟩ := ih hnext hlater hall
      refine ⟨?_, hlast⟩
      rw [List.map_cons]
      exact congrArg (List.cons _) hsame

/-- The ids that are given are the next ones, in their order. -/
theorem created_exchanges (s : Service) (requests : List (Request × Instant)) :
    ((s.exchanges requests).filter Exchange.created).map Exchange.answer =
      (List.range' s.store.nextId
        ((s.exchanges requests).countP Exchange.created)).map recorded := by
  induction requests generalizing s with
  | nil => rfl
  | cons first rest ih =>
    obtain ⟨r, now⟩ := first
    have hrest := ih (s.answer r now).state
    rw [exchanges]
    by_cases hcreated : Exchange.created ⟨r, now, (s.answer r now).answer⟩ = true
    · have hstores := (s.created_answer_iff r now).mp hcreated
      rw [hstores.nextId] at hrest
      obtain ⟨-, -, -, -, -, hanswer, -⟩ := hstores
      rw [List.filter_cons_of_pos hcreated, List.countP_cons_of_pos hcreated, List.range'_succ,
        List.map_cons, List.map_cons, hrest]
      exact congrArg (· :: _) hanswer
    · have hsame : (s.answer r now).state.store.nextId = s.store.nextId := by
        rw [← nextId_forget, forget_answer_of_not_created (Bool.not_eq_true _ ▸ hcreated),
          nextId_forget]
      rw [List.filter_cons_of_neg hcreated, List.countP_cons_of_neg hcreated, hrest, hsame]

theorem exchanges_concat (s : Service) (requests : List (Request × Instant)) (r : Request)
    (now : Instant) :
    s.exchanges (requests ++ [(r, now)]) =
      s.exchanges requests ++ [⟨r, now, ((s.serve requests).answer r now).answer⟩] := by
  induction requests generalizing s with
  | nil => rfl
  | cons first rest ih => exact congrArg (List.cons _) (ih _)

/-- **What requests leave behind.**  Requests come in one after the other, whatever the store has
been through before.  The next one changes anything but the remembered sample if and only if it is
answered with 201.  Then its body is a submission that the gateway stores, the response has the id
that was next, and the service is afterwards what the gateway makes of it.  The ids that are given
in this way rise.  All other requests, or some of them, may be left out, and those that are left get
what they got, and leave the same behind. -/
theorem requests_effects (p : Retention) (calls : List Call) (queue : Option Queue)
    (tolerance : Float) (dashboard : Dashboard) (requests : List (Request × Instant)) :
    let s : Service := ⟨⟨(Store.empty p).run calls, queue, tolerance⟩, dashboard⟩
    let all := s.exchanges requests
    (∀ r now,
      let t := s.serve requests
      let step := t.answer r now
      s.exchanges (requests ++ [(r, now)]) = all ++ [⟨r, now, step.answer⟩] ∧
        (step.state.forget ≠ t.forget ↔ created step.answer = true) ∧
        (created step.answer = true ↔ t.Stores r now)) ∧
      (∃ ids : List Nat, ((all.filter Exchange.created).map Exchange.answer) = ids.map recorded ∧
        ids.Pairwise (· < ·)) ∧
      ∀ kept : List Exchange, kept.Sublist all →
        kept.filter Exchange.created = all.filter Exchange.created →
        s.exchanges (kept.map Exchange.arrival) = kept ∧
          (s.serve (kept.map Exchange.arrival)).forget = (s.serve requests).forget := by
  intro s all
  have hs : s.store.Accounted := Store.accounted_run p calls
  refine ⟨fun r now => ?_, ⟨_, s.created_exchanges requests, List.pairwise_lt_range'⟩,
    fun kept hkept hall => exchanges_sublist hs hkept hall⟩
  intro t step
  exact ⟨s.exchanges_concat requests r now, t.forget_answer_ne_iff r now,
    t.created_answer_iff r now⟩

/-- Two of six requests store something. -/
example :
    let post := (Client.ofUrl "http://127.0.0.1:5000").post .early
    let requests : List Request := [⟨"GET", "/api/stats", [], ""⟩, post, ⟨"PUT", "/health", [], ""⟩,
      { post with headers := [] }, { post with body := "" }, post]
    (unused.exchanges (requests.map fun r => (r, ⟨100, 0⟩))).map
        (fun e => e.answer.toOption.map Response.status) =
      [some 200, some 201, some 405, some 415, some 400, some 201] := by
  decide +kernel

end Service

end OrderTelemetry
