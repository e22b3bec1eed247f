import OrderTelemetry.Proofs.Gateway.DataModel

/-! # Drafts in normal form

The gateway puts a submission into normal form once, and whoever sends a draft again as it is gets
the same draft.  Names and error texts have no blanks left to trim, the word for an order type
stands for that order type, an error text is kept by failures only, and a time has been cut down to
whole milliseconds, unless the calendar does not have its milliseconds, and then it stays as it is
every time.

* `Draft.Normal`: what is true of every draft that the gateway makes.
* `Submission.normal_of_normalize`: the gateway makes such drafts.
* `Draft.normal_iff`: these are the drafts that come back when they are sent again.
* `Submission.normalize_resubmitted`: normalizing twice is normalizing once. -/

namespace OrderTelemetry

/-- A proper text has nothing to trim. -/
theorem Text.Proper.trim_eq {s : String} (h : Proper s) : trim s = s := by
  have hend : trimEnd s.toList = s.toList := by
    have hlast : trimStart s.toList.reverse = s.toList.reverse :=
      trimStart_of_head? (by rw [List.head?_reverse]; exact h.last)
    rw [trimEnd, ← trimStart, hlast, List.reverse_reverse]
  rw [trim, trimStart_of_head? h.first, hend, String.ofList_toList]

namespace Draft

/-- The submission that says what a draft says. -/
def resubmitted (d : Draft) : Submission where
  orderId := d.orderId
  broker := d.broker
  symbol := d.symbol
  orderType := d.orderType.name
  timestamp := some d.timestamp
  latencies := d.latencies
  status := d.status
  error := d.error

/-- A draft in normal form. -/
structure Normal (d : Draft) : Prop where
  orderId : Text.Proper d.orderId
  broker : Text.Proper d.broker
  symbol : Text.Proper d.symbol
  latencies : ∀ x ∈ d.latencies.values, x.isFinite = true ∧ ¬ x < 0.0
  error : ∀ e ∈ d.error, d.status = .failure ∧ Text.Proper e
  timestamp : d.timestamp.truncated = d.timestamp

end Draft

namespace Submission

variable {s : Submission} {d : Draft} {now : Instant} {tolerance : Float}

theorem normalize_eq_ok_iff :
    (s.normalize now tolerance).1 = .ok d ↔ s.Admissible ∧ s.normalForm now = d := by
  rw [admissible_iff, ← firstFault?_eq_none_iff, normalize_eq]
  cases firstFault? s.examined with
  | some f => simp
  | none => simp

/-- **The gateway makes drafts in normal form**, whatever the times. -/
theorem Admissible.normal (h : s.Admissible) (now : Instant) : (s.normalForm now).Normal where
  orderId := Text.proper_trim h.orderId
  broker := Text.proper_trim h.broker
  symbol := Text.proper_trim h.symbol
  latencies := h.latencies
  error := fun _ he => proper_of_error he
  timestamp := Instant.truncated_truncated _

theorem normal_of_normalize (h : (s.normalize now tolerance).1 = .ok d) : d.Normal := by
  obtain ⟨hs, rfl⟩ := normalize_eq_ok_iff.mp h
  exact hs.normal now

end Submission

namespace Draft

variable {d : Draft}

/-- What is sent again is in order. -/
theorem Normal.admissible (h : d.Normal) : d.resubmitted.Admissible where
  orderId := by rw [resubmitted, h.orderId.trim_eq]; exact h.orderId.nonempty
  broker := by rw [resubmitted, h.broker.trim_eq]; exact h.broker.nonempty
  symbol := by rw [resubmitted, h.symbol.trim_eq]; exact h.symbol.nonempty
  latencies := h.latencies

theorem Normal.error_resubmitted (h : d.Normal) :
    (if d.status.isFailure then d.resubmitted.errorText else none) = d.error := by
  cases herror : d.error with
  | none => simp [Submission.errorText, resubmitted, herror]
  | some e =>
    obtain ⟨hstatus, he⟩ := h.error e herror
    simp [Submission.errorText, resubmitted, herror, hstatus, OrderStatus.isFailure, he.trim_eq,
      he.nonempty]

theorem Normal.normalForm_resubmitted (h : d.Normal) (now : Instant) :
    d.resubmitted.normalForm now = d := by
  have herror := h.error_resubmitted
  obtain ⟨horder, hbroker, hsymbol, -, -, htime⟩ := h
  unfold Submission.normalForm Submission.draft
  rw [show d.resubmitted.status = d.status from rfl, herror]
  simp only [resubmitted, horder.trim_eq, hbroker.trim_eq, hsymbol.trim_eq, OrderType.ofText_name,
    Option.getD_some, htime]

/-- **The drafts in normal form are those that come back** when they are sent again, whenever that
is. -/
theorem normal_iff :
    d.Normal ↔ ∀ now tolerance, (d.resubmitted.normalize now tolerance).1 = .ok d := by
  constructor
  · intro h now tolerance
    exact Submission.normalize_eq_ok_iff.mpr ⟨h.admissible, h.normalForm_resubmitted now⟩
  · intro h
    exact Submission.normal_of_normalize (h default 0.0)

end Draft

/-- **Normalizing twice is normalizing once.**  If a submission has a normal form, then it is a
draft in normal form, and the submission that says the same has this normal form too, whenever it
comes in. -/
theorem Submission.normalize_resubmitted {s : Submission} {receivedAt : Instant} {tolerance : Float}
    {d : Draft} (h : (s.normalize receivedAt tolerance).1 = .ok d) :
    d.Normal ∧ ∀ later tolerance, (d.resubmitted.normalize later tolerance).1 = .ok d :=
  ⟨normal_of_normalize h, Draft.normal_iff.mp (normal_of_normalize h)⟩

/-- A failure with blanks everywhere, without a time of its own. -/
def Submission.untidy : Submission :=
  { orderId := "\u3000A1\n", broker := "b ", symbol := " S", orderType := "\tlmt", timestamp := none,
    latencies := ⟨1.0, 2.0, 0.5, 1.0, 0.5⟩, status := .failure, error := some " no margin\t" }

/-- It comes in within the leap second at the end of the calendar, which has no milliseconds to be
cut down to. -/
theorem Submission.normalize_resubmitted_untidy :
    let received : Instant := ⟨Instant.lastSecond, 1999999999⟩
    ∃ d, (untidy.normalize received 1.0).1 = .ok d ∧ d.orderId = "A1" ∧ d.orderType = .limit ∧
      d.error = some "no margin" ∧ d.timestamp = received ∧ d.Normal ∧
      ∀ later tolerance, (d.resubmitted.normalize later tolerance).1 = .ok d := by
  intro received
  have h : (untidy.normalize received 1.0).1 = .ok (untidy.normalForm received) := by
    decide +kernel
  obtain ⟨hnormal, hagain⟩ := normalize_resubmitted h
  exact ⟨_, h, by decide +kernel, by decide +kernel, by decide +kernel, by decide +kernel, hnormal,
    hagain⟩

end OrderTelemetry
