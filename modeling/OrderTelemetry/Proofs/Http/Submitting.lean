import OrderTelemetry.Proofs.Gateway.Admission
import OrderTelemetry.Proofs.Http.Exchange
import OrderTelemetry.Proofs.Record.Wire

/-! # Submitting over the wire

A client that sends a submission to a service gets the same as a caller of its gateway, and leaves
the same behind.  The text of the submission gives it back without what is finer than a millisecond
in its time, and the gateway drops that anyway (`submit_onWire`); a submission with a latency that
is not finite has no text that can be read, and the gateway refuses it too.

* `Service.postLog_of_stored`, `Service.postLog_post_of_refused`: what the service makes of the
  request.
* `Client.record_matches_submit`: the two ways compared. -/

namespace OrderTelemetry

open Http Json

/-! ### The gateway does not tell the two apart -/

theorem Instant.truncated_getD_map {t : Option Instant} (ht : ∀ u ∈ t, u.Regular) (now : Instant) :
    ((t.map truncated).getD now).truncated = (t.getD now).truncated := by
  cases t with
  | none => rfl
  | some u => exact (ht u rfl).truncated_truncated

namespace Submission

variable {x : Submission}

theorem draft_onWire (ht : ∀ u ∈ x.timestamp, u.Regular) (orderId broker symbol : String)
    (now : Instant) :
    x.onWire.draft orderId broker symbol now = x.draft orderId broker symbol now := by
  unfold draft
  rw [show x.onWire.timestamp = x.timestamp.map Instant.truncated from rfl,
    Instant.truncated_getD_map ht]
  rfl

theorem normalize_onWire (ht : ∀ u ∈ x.timestamp, u.Regular) (now : Instant) (tolerance : Float) :
    x.onWire.normalize now tolerance = x.normalize now tolerance := by
  have hexamined : x.onWire.examined = x.examined := rfl
  have hnormal : x.onWire.normalForm now = x.normalForm now := draft_onWire ht _ _ _ now
  rw [normalize_eq, normalize_eq, hexamined, hnormal]
  rfl

end Submission

namespace Gateway

variable {g : Gateway} {x : Submission} {now : Instant}

theorem submit_onWire (ht : ∀ u ∈ x.timestamp, u.Regular) :
    g.submit x.onWire now = g.submit x now := by
  unfold submit
  rw [Submission.normalize_onWire ht]

/-- A submission that is stored has finite latencies, and gets the next id. -/
theorem submit_ok {r : Record} (h : (g.submit x now).answer = .ok r) :
    x.latencies.isFinite = true ∧ r.id = g.store.nextId := by
  rcases g.submit_cases x now with ⟨e, hanswer, -⟩ | ⟨hadmissible, -, hanswer, -⟩
  · rw [h] at hanswer
    cases hanswer
  · rw [h] at hanswer
    cases hanswer
    exact ⟨List.all_eq_true.mpr fun y hy => (hadmissible.latencies y hy).1, rfl⟩

theorem submit_error {e : Failure} (h : (g.submit x now).answer = .error e) :
    (g.submit x now).state = g := by
  rcases g.submit_cases x now with ⟨e, -, hstate⟩ | ⟨-, -, hanswer, -⟩
  · exact hstate
  · rw [h] at hanswer
    cases hanswer

end Gateway

/-! ### Requests and responses -/

theorem recordedCodec_yields {id : Nat} (h : id ≤ 0xFFFFFFFFFFFFFFFF) :
    recordedCodec.Yields id (some id) := by
  have hfields : (Fields.cons (.required "id" .uint64) .nil).Yields (id, ()) (some id, ()) :=
    ⟨Codec.uint64_yields h, trivial⟩
  exact Codec.Yields.map (hfields.codec (by decide)) rfl

theorem Service.isSuccess_refusal (p : Problem) : (refusal p).isSuccess = false := by
  cases p <;> rfl

namespace Service

variable {s : Service} {now : Instant}

section Request
variable {r : Request} {x : Submission}
  (htype : ((r.header? "content-type").map MediaType.isJson).getD false = true)
include htype

theorem postLog_of_unread {p : Problem} (hread : Submission.codec.parse r.body = .error p) :
    s.postLog r now = s.replying (refusal p) := by
  unfold postLog
  rw [if_pos htype, hread]

theorem postLog_of_stored {record : Record} (hread : Submission.codec.parse r.body = .ok x)
    (hstored : (s.gateway.submit x now).answer = .ok record) :
    (s.postLog r now).answer = .ok (.ofValue 201 recordedCodec record.id) ∧
      (s.postLog r now).state = { s with gateway := (s.gateway.submit x now).state } := by
  unfold postLog
  rw [if_pos htype, hread]
  dsimp only
  rw [hstored]
  exact ⟨rfl, rfl⟩

/-- A refusal changes nothing, and its response, if there is one, says so. -/
theorem postLog_of_refused {e : Failure} (hread : Submission.codec.parse r.body = .ok x)
    (hrefused : (s.gateway.submit x now).answer = .error e) :
    (∀ response, (s.postLog r now).answer = .ok response → response.isSuccess = false) ∧
      (s.postLog r now).state = s := by
  have hstate := Gateway.submit_error hrefused
  unfold postLog
  rw [if_pos htype, hread]
  dsimp only
  rw [hrefused, hstate]
  cases e with
  | fault f =>
    refine ⟨fun response h => ?_, rfl⟩
    cases h
    exact f.isSuccess_response
  | idsExhausted => exact ⟨fun _ h => (by cases h), rfl⟩
  | beyondCalendar => exact ⟨fun _ h => (by cases h), rfl⟩

end Request

section Post
variable {c : Client} {x : Submission}

theorem isJson_post :
    (((c.post x).header? "content-type").map MediaType.isJson).getD false = true := by
  have hheaders : (c.post x).headers = [("content-type", Response.jsonType)] := rfl
  unfold Request.header?
  rw [hheaders]
  decide +kernel

/-- Nothing comes of a submission that the gateway refuses, whether its text can be read or not. -/
theorem postLog_post_of_refused {e : Failure} (htime : ∀ t ∈ x.timestamp, t.Regular)
    (hlegible : x.latencies.Legible) (hrefused : (s.gateway.submit x now).answer = .error e) :
    (∀ response, (s.postLog (c.post x) now).answer = .ok response → response.isSuccess = false) ∧
      (s.postLog (c.post x) now).state = s := by
  have hyields := Submission.yields htime hlegible
  -- a latency that is not finite keeps the text from being read, before the gateway sees it
  by_cases hfinite : x.latencies.isFinite = true
  · rw [Codec.ifFinite_of hfinite] at hyields
    exact postLog_of_refused isJson_post hyields.parse_some
      (by rw [Gateway.submit_onWire htime]; exact hrefused)
  · rw [Codec.ifFinite_of_not hfinite] at hyields
    obtain ⟨p, hp⟩ := hyields.parse_none
    rw [postLog_of_unread isJson_post hp]
    refine ⟨fun response h => ?_, rfl⟩
    cases h
    exact isSuccess_refusal p

/-- A client at the root of a service sends submissions to its gateway. -/
theorem answer_post (hroot : c.basePath = "") :
    s.answer (c.post x) now = s.postLog (c.post x) now := by
  have hpath : (c.post x).path = "/api/logs" := by
    show String.ofList ((c.basePath ++ "/api/logs").toList.takeWhile _) = _
    rw [hroot]
    rfl
  have hmethod : (c.post x).method = "POST" := rfl
  unfold answer
  rw [hpath, show Route.ofPath? "/api/logs" = some .logs by decide +kernel, hmethod]
  dsimp only
  rw [if_neg (by decide), if_neg (by decide), if_pos ⟨rfl, rfl⟩]

end Post

end Service

/-- **Submitting over the wire is submitting.**  A client at the root of a service and a caller of
its gateway get the same id and leave the same gateway behind, or both get nothing and change
nothing.  Both get nothing if a latency is not finite. -/
theorem Http.Client.record_matches_submit (s : Service) (c : Client) (x : Submission)
    (now : Instant) (hroot : c.basePath = "") (hids : s.store.nextId ≤ Store.lastId)
    (htime : ∀ t ∈ x.timestamp, t.Regular) (hlegible : x.latencies.Legible) :
    let sent := (c.record (Service.transport now) x).run s
    let direct := s.gateway.submit x now
    (∃ r, x.latencies.isFinite = true ∧ direct.answer = .ok r ∧
        sent = (.ok r.id, { s with gateway := direct.state })) ∨
      (∃ e f, direct.answer = .error e ∧ direct.state = s.gateway ∧ sent = (.error f, s)) := by
  intro sent direct
  cases hdirect : direct.answer with
  | ok r =>
    obtain ⟨hfinite, hid⟩ := Gateway.submit_ok hdirect
    have hyields := Submission.yields htime hlegible
    rw [Codec.ifFinite_of hfinite] at hyields
    have hstored : (s.gateway.submit x.onWire now).answer = .ok r := by
      rw [Gateway.submit_onWire htime]
      exact hdirect
    obtain ⟨hanswer, hstate⟩ :=
      Service.postLog_of_stored Service.isJson_post hyields.parse_some hstored
    have hcodec : recordedCodec.Yields r.id (some r.id) :=
      recordedCodec_yields (by rw [hid]; exact hids)
    have hsent : sent = _ := run_send (c.post x) (decode recordedCodec) s now
    rw [Service.answer_post hroot, hanswer, hstate, Gateway.submit_onWire htime] at hsent
    dsimp only [received] at hsent
    rw [decode_ofValue (by decide) hcodec] at hsent
    exact .inl ⟨r, hfinite, rfl, hsent⟩
  | error e =>
    obtain ⟨hfailure, hstate⟩ := Service.postLog_post_of_refused htime hlegible hdirect
    rw [← Service.answer_post hroot] at hfailure hstate
    obtain ⟨f, hsent⟩ := run_send_of_failure hfailure recordedCodec
    rw [hstate] at hsent
    exact .inr ⟨e, f, rfl, Gateway.submit_error hdirect, hsent⟩

/-- A submission from before 1970, with blanks, a quote and a line feed in its names and a time that
is finer than a millisecond. -/
def Submission.early : Submission where
  orderId := "\t\"7\" "
  broker := "Zoë\n2"
  symbol := "A\\B"
  orderType := "mkt"
  timestamp := some ⟨-1, 999999999⟩
  latencies := ⟨12.25, 12.5, 0.5, 11.5, 0.5⟩
  status := .failure
  error := some "\x01"

/-- It gets the first id, and the store keeps the millisecond that its time lies in. -/
theorem Http.Client.record_matches_submit_early :
    let c := Client.ofUrl "http://127.0.0.1:5000/"
    let now : Instant := ⟨100, 0⟩
    let sent := (c.record (Service.transport now) Submission.early).run Service.unused
    c.basePath = "" ∧ Service.unused.store.nextId ≤ Store.lastId ∧
      (∀ t ∈ Submission.early.timestamp, t.Regular) ∧ Submission.early.latencies.Legible ∧
      sent.1 = .ok 1 ∧
      sent.2.store.window.toList.map (fun r => (r.orderId, r.timestamp)) =
        [("\"7\"", ⟨-1, 999000000⟩)] := by
  intro c now sent
  have hroot : c.basePath = "" := by decide +kernel
  have hids : Service.unused.store.nextId ≤ Store.lastId := by decide
  have htime : ∀ t ∈ Submission.early.timestamp, t.Regular := by decide
  have hlegible : Submission.early.latencies.Legible := by
    simp only [Latencies.Legible, Latencies.values, List.forall_mem_cons]
    refine ⟨fun _ => ?_, fun _ => ?_, fun _ => ?_, fun _ => ?_, fun _ => ?_, by simp⟩
    all_goals decide +kernel
  refine ⟨hroot, hids, htime, hlegible, ?_⟩
  rcases record_matches_submit Service.unused c Submission.early now hroot hids htime hlegible with
    ⟨r, -, hanswer, hsent⟩ | ⟨e, f, hanswer, -⟩
  · obtain ⟨-, hid⟩ := Gateway.submit_ok hanswer
    have hfirst : Service.unused.gateway.store.nextId = 1 := rfl
    rw [show sent = _ from hsent, hid, hfirst]
    exact ⟨rfl, by decide +kernel⟩
  · have hstored : (Service.unused.gateway.submit Submission.early now).answer.isOk = true := by
      decide +kernel
    rw [hanswer] at hstored
    cases hstored

end OrderTelemetry
