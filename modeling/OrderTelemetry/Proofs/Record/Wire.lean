import OrderTelemetry.Proofs.Calendar.Millis
import OrderTelemetry.Proofs.Gateway.Admission
import OrderTelemetry.Proofs.Json.Records
import OrderTelemetry.Record.Wire

/-! # Records and submissions read back

The text of a record gives the record back, but for what is finer than a millisecond in its time,
and the text of a submission does the same.  Neither is read if a latency is not finite. -/

namespace OrderTelemetry

open Json Codec

theorem OrderType.yields (t : OrderType) : OrderType.codec.Yields t (some t) :=
  choice_yields (by cases t <;> decide +kernel)

theorem OrderStatus.yields (s : OrderStatus) : OrderStatus.codec.Yields s (some s) :=
  choice_yields (by cases s <;> decide +kernel)

/-! ### Instants -/

namespace Instant

variable {t : Instant}

/-- An instant comes back as the one with the same number of milliseconds, if there is one. -/
theorem yields (hlow : -0x8000000000000000 ≤ t.millis) (hhigh : t.millis ≤ 0xFFFFFFFFFFFFFFFF) :
    Instant.codec.Yields t (ofMillis? t.millis) := by
  have hmillis := integer_yields hlow hhigh (by decide) (by decide)
  exact hmillis.filterMap

theorem Regular.yields (ht : t.Regular) : Instant.codec.Yields t (some t.truncated) := by
  have hread : ofMillis? t.millis = some t.truncated := by
    rw [ht.ofMillis?_millis, ht.truncated_eq]
  obtain ⟨hfirst, hlast⟩ := millis_bounds (t := t) (by rw [hread]; rfl)
  rw [← hread]
  exact Instant.yields hfirst hlast

/-- An instant that may be missing comes back in whole milliseconds. -/
theorem optional_yields {t : Option Instant} (ht : ∀ u ∈ t, u.Regular) :
    Instant.codec.optional.Yields t (some (t.map truncated)) := by
  cases t with
  | none => exact optional_yields_none
  | some u =>
    have hwrite : (Instant.codec.write u).toList.head? ≠ some 'n' :=
      head?_write_integer (-0x8000000000000000) 0xFFFFFFFFFFFFFFFF u.millis
    exact (ht u rfl).yields.optional hwrite

end Instant

theorem optional_text_yields (s : Option String) : Codec.text.optional.Yields s (some s) := by
  cases s with
  | none => exact optional_yields_none
  | some s => exact (text_yields s).optional (head?_write_text s)

/-! ### Latencies -/

namespace Latencies

/-- All latencies are finite. -/
def isFinite (l : Latencies) : Bool := l.values.all Float.isFinite

/-- The latencies that are finite come back from their texts. -/
def Legible (l : Latencies) : Prop := ∀ x ∈ l.values, x.isFinite = true → Codec.Legible x

end Latencies

/-! ### Submissions -/

/-- A submission as it comes out of its text. -/
def Submission.onWire (x : Submission) : Submission :=
  { x with timestamp := x.timestamp.map Instant.truncated }

theorem Submission.yields {x : Submission} (htime : ∀ t ∈ x.timestamp, t.Regular)
    (hlatencies : x.latencies.Legible) :
    Submission.codec.Yields x (ifFinite x.latencies.values x.onWire) := by
  have hvalues := hlatencies
  simp only [Latencies.Legible, Latencies.values, List.forall_mem_cons] at hvalues
  obtain ⟨hrtt, htotal, hvalidation, hresponse, hoverhead, -⟩ := hvalues
  have hfields : Submission.fields.Yields
      (x.orderId, x.broker, x.symbol, x.orderType, x.timestamp, x.latencies.rtt, x.latencies.total,
        x.latencies.validation, x.latencies.response, x.latencies.overhead, x.status, x.error, ())
      (some x.orderId, some x.broker, some x.symbol, some x.orderType,
        some (x.timestamp.map Instant.truncated), ifFinite [x.latencies.rtt] x.latencies.rtt,
        ifFinite [x.latencies.total] x.latencies.total,
        ifFinite [x.latencies.validation] x.latencies.validation,
        ifFinite [x.latencies.response] x.latencies.response,
        ifFinite [x.latencies.overhead] x.latencies.overhead, some x.status, some x.error, ()) :=
    ⟨text_yields _, text_yields _, text_yields _, text_yields _, Instant.optional_yields htime,
      real_yields_ifFinite hrtt, real_yields_ifFinite htotal, real_yields_ifFinite hvalidation,
      real_yields_ifFinite hresponse, real_yields_ifFinite hoverhead, OrderStatus.yields _,
      optional_text_yields _, trivial⟩
  refine Yields.map (hfields.codec (by decide)) ?_
  simp only [Fields.gather, Option.bind_some, Option.bind_assoc, Option.map_bind,
    Function.comp_def, Option.map_some]
  exact ifFinite_bind (ifFinite_bind (ifFinite_bind (ifFinite_bind (ifFinite_bind rfl))))

/-! ### Records -/

namespace Record

variable {r : Record} {records : List Record}

/-- A record as it comes out of its text. -/
def onWire (r : Record) : Record := { r with timestamp := r.timestamp.truncated }

/-- A record without finer time than a millisecond comes out as it was. -/
theorem onWire_eq (h : r.timestamp.truncated = r.timestamp) : r.onWire = r := by
  unfold onWire
  rw [h]

/-- A record comes back with the time that its milliseconds stand for, if there is one. -/
theorem yields (hid : r.id ≤ 0xFFFFFFFFFFFFFFFF)
    (hfirst : -0x8000000000000000 ≤ r.timestamp.millis)
    (hlast : r.timestamp.millis ≤ 0xFFFFFFFFFFFFFFFF)
    (hlegible : ∀ x ∈ r.latencies.values, Legible x) :
    Record.codec.Yields r
      ((Instant.ofMillis? r.timestamp.millis).map fun timestamp => { r with timestamp }) := by
  have hvalues := hlegible
  simp only [Latencies.values, List.forall_mem_cons] at hvalues
  obtain ⟨hrtt, htotal, hvalidation, hresponse, hoverhead, -⟩ := hvalues
  have hfields : Record.fields.Yields
      (r.id, r.orderId, r.broker, r.symbol, r.orderType, r.timestamp, r.latencies.rtt,
        r.latencies.total, r.latencies.validation, r.latencies.response, r.latencies.overhead,
        r.status, r.error, ())
      (some r.id, some r.orderId, some r.broker, some r.symbol, some r.orderType,
        Instant.ofMillis? r.timestamp.millis, some r.latencies.rtt, some r.latencies.total,
        some r.latencies.validation, some r.latencies.response, some r.latencies.overhead,
        some r.status, some r.error, ()) :=
    ⟨uint64_yields hid, text_yields _, text_yields _, text_yields _, OrderType.yields _,
      Instant.yields hfirst hlast, real_yields hrtt, real_yields htotal, real_yields hvalidation,
      real_yields hresponse, real_yields hoverhead, OrderStatus.yields _, optional_text_yields _,
      trivial⟩
  refine Yields.map (hfields.codec (by decide)) ?_
  cases Instant.ofMillis? r.timestamp.millis with
  | none => rfl
  | some t => rfl

/-- A record that its text gives back, in whole milliseconds. -/
structure Readable (r : Record) : Prop where
  id : r.id ≤ 0xFFFFFFFFFFFFFFFF
  time : (Instant.ofMillis? r.timestamp.millis).isSome
  latencies : ∀ x ∈ r.latencies.values, Legible x

theorem Readable.yields (h : r.Readable) : Record.codec.Yields r (some r.onWire) := by
  obtain ⟨t, ht⟩ := Option.isSome_iff_exists.mp h.time
  obtain ⟨hfirst, hlast⟩ := Instant.millis_bounds h.time
  have honWire : r.onWire = { r with timestamp := t } := by
    unfold onWire Instant.truncated
    rw [ht, Option.getD_some]
  have hyields := Record.yields h.id hfirst hlast h.latencies
  rwa [ht, Option.map_some, ← honWire] at hyields

/-- Records come back from a list of them. -/
theorem list_yields (h : ∀ r ∈ records, r.Readable) :
    (Codec.list Record.codec).Yields records (some (records.map onWire)) := by
  have hlist := Codec.Yields.list (u := fun r => some r.onWire) fun r hr => (h r hr).yields
  rwa [show records.mapM (fun r => some r.onWire) = some (records.map onWire) from
    List.mapM_pure] at hlist

end Record

end OrderTelemetry
