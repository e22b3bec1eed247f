import OrderTelemetry.Http.Client
import OrderTelemetry.Http.Router
import OrderTelemetry.Proofs.Json.Codecs

/-! # A client and a service

A service that is at hand as a state carries a client's requests (`Service.transport`): it answers
each at a given time and is afterwards what the answer leaves behind.  A request that the service
fails to answer gets no response.

What the client makes of a response with a value is what the codec makes of its own text
(`decode_ofValue`), and a response that is no success becomes a fault (`decode_of_failure`). -/

namespace OrderTelemetry

open Http Json

/-- A service at hand as a state, which answers at a given time. -/
def Service.transport (now : Instant) : Transport (StateM Service) := fun r =>
  modifyGet fun s =>
    let step := s.answer r now
    (step.answer.mapError fun _ => "connection closed", step.state)

theorem Service.run_transport (s : Service) (r : Request) (now : Instant) :
    (transport now r).run s =
      ((s.answer r now).answer.mapError fun _ => "connection closed", (s.answer r now).state) :=
  rfl

/-- The response to a request that failed is no success. -/
theorem Fault.isSuccess_response (f : Fault) : f.response.isSuccess = false := by
  cases f <;> rfl

/-- A service that has not been used yet. -/
def Service.unused : Service where
  gateway := .ofStore (.empty .standard) 0.5
  dashboard := ⟨.of 50 500, ⟨0, "%Y", 100, by decide⟩⟩

namespace Http.Client

variable {α : Type} {codec : Codec α} {a : α} {status : Nat} {r : Response}

theorem check_of_success (h : r.isSuccess = true) : check r = .ok r := if_pos h

theorem decode_of_failure (codec : Codec α) (h : r.isSuccess = false) :
    decode codec r = .error (.api r.status (failureMessage r)) := by
  unfold decode check
  rw [if_neg (by simp [h])]
  rfl

/-- A value that its codec reads back reaches the client. -/
theorem decode_ofValue {b : α} (hstatus : 200 ≤ status ∧ status < 300)
    (h : codec.Yields a (some b)) : decode codec (.ofValue status codec a) = .ok b := by
  have hsuccess : (Response.ofValue status codec a).isSuccess = true := by
    simp [Response.isSuccess, Response.ofValue, hstatus]
  unfold decode
  have hparse : codec.parse (Response.ofValue status codec a).body = .ok b := h.parse_some
  rw [check_of_success hsuccess, ok_bind, hparse]

/-- A value that its codec does not read back is a fault of the client. -/
theorem decode_ofValue_none (hstatus : 200 ≤ status ∧ status < 300) (h : codec.Yields a none) :
    decode codec (.ofValue status codec a) = .error (.http "error decoding response body") := by
  have hsuccess : (Response.ofValue status codec a).isSuccess = true := by
    simp [Response.isSuccess, Response.ofValue, hstatus]
  obtain ⟨p, hparse⟩ := h.parse_none
  have hbody : codec.parse (Response.ofValue status codec a).body = .error p := hparse
  unfold decode
  rw [check_of_success hsuccess, ok_bind, hbody]

/-- What a client makes of a value is what the codec does. -/
theorem decode_ofValue_elim {o : Option α} (hstatus : 200 ≤ status ∧ status < 300)
    (h : codec.Yields a o) : decode codec (.ofValue status codec a) =
      o.elim (.error (.http "error decoding response body")) .ok := by
  cases o with
  | none => exact decode_ofValue_none hstatus h
  | some b => exact decode_ofValue hstatus h

/-- What a client makes of an answer, if there is one. -/
def received {β : Type} (read : Response → Except Fault β) :
    Except Failure Response → Except Fault β
  | .ok response => read response
  | .error _ => .error (.http "connection closed")

/-- What a client gets from a service, and what the service is afterwards. -/
theorem run_send {β : Type} (request : Request) (read : Response → Except Fault β)
    (s : Service) (now : Instant) :
    (send (Service.transport now) request read).run s =
      (received read (s.answer request now).answer, (s.answer request now).state) := by
  unfold send
  rw [StateT.run_bind, Service.run_transport]
  cases (s.answer request now).answer with
  | ok response => rfl
  | error e => rfl

/-- A client gets nothing from a service whose response is no success. -/
theorem run_send_of_failure {request : Request} {s : Service} {now : Instant}
    (h : ∀ response, (s.answer request now).answer = .ok response → response.isSuccess = false)
    (codec : Codec α) :
    ∃ f, (send (Service.transport now) request (decode codec)).run s =
      (.error f, (s.answer request now).state) := by
  rw [run_send]
  cases hanswer : (s.answer request now).answer with
  | ok response =>
    have hdecode := decode_of_failure codec (h response hanswer)
    exact ⟨_, congrArg (fun d => (d, (s.answer request now).state)) hdecode⟩
  | error e => exact ⟨_, rfl⟩

end Http.Client

end OrderTelemetry
