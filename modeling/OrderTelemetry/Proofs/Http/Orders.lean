import OrderTelemetry.Proofs.Http.Reading
import OrderTelemetry.Proofs.Record.Wire
import OrderTelemetry.Proofs.Store.Lookup
import OrderTelemetry.Proofs.Text.Blank

/-! # Records over the wire

A client that asks a service for records gets those that the dashboard has, as far as the codec
reads them (`Client.run_logs`), and it reads them in whole milliseconds.  That makes a request for
the records of an order the lookup by order, except that an order id of blanks asks for the newest
records instead.

* `Client.logsForOrder_answers`: what a request for an order gets after any run of the store.
* `Client.logsForOrder_differs`: what it does not get: nothing for blanks, times in full, doubles
  that are not legible. -/

namespace OrderTelemetry

open Http Json

/-- The newest records are retained ones. -/
theorem Store.mem_of_mem_recent {s : Store} {limit : Nat} {r : Record} (h : r ∈ s.recent limit) :
    r ∈ s.window.toList := by
  unfold recent at h
  rw [List.mem_reverse, Array.toList_extract, List.extract_eq_take_drop] at h
  exact List.mem_of_mem_drop (List.mem_of_mem_take h)

namespace Service

variable {s : Service} {orderId : String}

theorem logs_of_order (h : Text.trim orderId ≠ "") :
    s.logs { orderId := some orderId } = Dashboard.ofOrder s.store orderId := by
  unfold logs Dashboard.ofOrder
  simp [h]

/-- Blanks name no order. -/
theorem logs_of_blank (h : Text.trim orderId = "") :
    s.logs { orderId := some orderId } = s.dashboard.recent s.store none := by
  unfold logs
  simp [h]

end Service

/-- A service with one record. -/
def Service.holding (r : Record) : Service :=
  unused.withStore ((Store.empty .standard).run [.restore [r] ⟨100, 0⟩])

/-- A record of an order in the last second before 1970. -/
def Record.sample (orderId : String) (nanos : Nat) (rtt : Float) : Record where
  id := 1
  orderId
  broker := "b"
  symbol := "S"
  orderType := .market
  timestamp := ⟨-1, nanos⟩
  latencies := ⟨rtt, 0.0, 0.0, 0.0, 0.0⟩
  status := .success
  error := none

namespace Http.Client

/-- The records that a query asks for reach the client as far as the codec reads them. -/
theorem run_logs {s : Service} {c : Client} {pairs : List (String × String)}
    {q : Service.LogsQuery} {now : Instant} {o : Option (List Record)} (hroot : c.basePath = "")
    (hquery : Service.LogsQuery.ofQuery? (Form.encode pairs) = some q)
    (hyields : (Codec.list Record.codec).Yields (s.logs q) o) :
    (send (Service.transport now) (c.get "/api/logs" pairs)
        (decode (.list Record.codec))).run s =
      (o.elim (.error (.http "error decoding response body")) .ok, s) := by
  refine Service.run_get .logs hroot ?_ rfl hyields
  unfold Service.get Service.getLogs
  rw [hquery]
  rfl

/-- **A request for the records of an order is the lookup by order.**  After any run of the store,
a client at the root of the service gets the retained records with the trimmed order id, oldest
first, and none of another order.  Their times come in whole milliseconds, so they are the same
records if they had no finer ones.  An order id of blanks gets the newest records of all orders. -/
theorem logsForOrder_answers (p : Retention) (calls : List Call) (s : Service) (c : Client)
    (orderId : String) (now : Instant) (hstore : s.store = (Store.empty p).run calls)
    (hroot : c.basePath = "")
    (hread : ∀ r ∈ s.store.window.toList,
      r.orderId = Text.trim orderId ∨ Text.trim orderId = "" → r.Readable) :
    let direct := Dashboard.ofOrder s.store orderId
    let sent := (c.logsForOrder (Service.transport now) orderId).run s
    direct = (s.store.window.toList.filter fun r => r.orderId == Text.trim orderId) ∧
      (Text.trim orderId ≠ "" → sent = (.ok (direct.map Record.onWire), s) ∧
        ((∀ r ∈ direct, r.timestamp.truncated = r.timestamp) → sent = (.ok direct, s))) ∧
      (Text.trim orderId = "" →
        sent = (.ok ((s.dashboard.recent s.store none).map Record.onWire), s)) := by
  intro direct sent
  have hquery := Service.ofQuery?_orderId orderId
  have hdirect : direct = s.store.window.toList.filter fun r => r.orderId == Text.trim orderId := by
    show s.store.ofOrder (Text.trim orderId) = _
    rw [hstore]
    exact (Store.indexed_run p calls).ofOrder _
  refine ⟨hdirect, fun hnamed => ?_, fun hblank => ?_⟩
  · have hlogs := Service.logs_of_order (s := s) hnamed
    have hsent : sent = (.ok (direct.map Record.onWire), s) := by
      refine (run_logs hroot hquery (Record.list_yields fun r hr => ?_)).trans (by rw [hlogs]; rfl)
      rw [hlogs, show Dashboard.ofOrder s.store orderId = _ from hdirect] at hr
      obtain ⟨hmem, horder⟩ := List.mem_filter.mp hr
      exact hread r hmem (.inl (eq_of_beq horder))
    refine ⟨hsent, fun hwhole => ?_⟩
    have hsame : direct.map Record.onWire = direct.map id :=
      List.map_congr_left fun r hr => Record.onWire_eq (hwhole r hr)
    rw [hsent, hsame, List.map_id]
  · have hlogs := Service.logs_of_blank (s := s) hblank
    refine (run_logs hroot hquery (Record.list_yields fun r hr => ?_)).trans (by rw [hlogs]; rfl)
    rw [hlogs] at hr
    exact hread r (Store.mem_of_mem_recent hr) (.inr hblank)

/-- Blanks around the order id and characters that a query cannot hold make no difference. -/
theorem logsForOrder_answers_sample :
    let orderId := " é&=%\t#1\u3000"
    let r := Record.sample "é&=%\t#1" 999999999 12.5
    let s := Service.holding r
    let c := Client.ofUrl "http://127.0.0.1:5000//"
    s.store = (Store.empty .standard).run [.restore [r] ⟨100, 0⟩] ∧ c.basePath = "" ∧
      (∀ r ∈ s.store.window.toList,
        r.orderId = Text.trim orderId ∨ Text.trim orderId = "" → r.Readable) ∧
      (c.logsForOrder (Service.transport ⟨100, 0⟩) orderId).run s =
        (.ok [.sample "é&=%\t#1" 999000000 12.5], s) := by
  intro orderId r s c
  have hwindow : s.store.window.toList = [r] := by decide +kernel
  have hread : ∀ r ∈ s.store.window.toList,
      r.orderId = Text.trim orderId ∨ Text.trim orderId = "" → r.Readable := by
    intro r' hr' _
    rw [hwindow] at hr'
    obtain rfl := List.mem_singleton.mp hr'
    exact ⟨by decide, by decide, by decide +kernel⟩
  have hroot : c.basePath = "" := by decide +kernel
  obtain ⟨hdirect, hnamed, -⟩ :=
    logsForOrder_answers .standard [.restore [r] ⟨100, 0⟩] s c orderId ⟨100, 0⟩ rfl hroot hread
  refine ⟨rfl, hroot, hread, ?_⟩
  obtain ⟨hsent, -⟩ := hnamed (by decide +kernel)
  rw [hsent, hdirect, hwindow]
  exact congrArg (fun records => (Except.ok records, s)) (by decide +kernel)

/-- **A request for an order is not quite the lookup by order.**  Blanks get a record of an order
where the lookup finds none, and a record may come back with another time or another latency. -/
theorem logsForOrder_differs :
    let c := Client.ofUrl "http://127.0.0.1:5000"
    let sent (r : Record) (orderId : String) :=
      ((c.logsForOrder (Service.transport ⟨100, 0⟩) orderId).run (.holding r)).1
    let direct (r : Record) (orderId : String) :=
      Dashboard.ofOrder (Service.holding r).store orderId
    (sent (.sample "A" 0 1.0) " " = .ok [.sample "A" 0 1.0] ∧
        direct (.sample "A" 0 1.0) " " = []) ∧
      (sent (.sample "A" 1 1.0) "A" = .ok [.sample "A" 0 1.0] ∧
        direct (.sample "A" 1 1.0) "A" = [.sample "A" 1 1.0]) ∧
      (sent (.sample "A" 0 15839.312300000001) "A" ≠ .ok [.sample "A" 0 15839.312300000001] ∧
        direct (.sample "A" 0 15839.312300000001) "A" = [.sample "A" 0 15839.312300000001]) := by
  intro c sent direct
  have hsent (r : Record) (orderId : String) (h : ∀ a ∈ (Service.holding r).logs { orderId },
      a.Readable) : sent r orderId = .ok (((Service.holding r).logs { orderId }).map .onWire) :=
    congrArg Prod.fst (run_logs (by decide +kernel) (Service.ofQuery?_orderId orderId)
      (Record.list_yields h))
  have hlegible : ∀ x ∈ (Record.sample "A" 0 1.0).latencies.values, Codec.Legible x := by
    decide +kernel
  refine ⟨⟨?_, by decide +kernel⟩, ⟨?_, by decide +kernel⟩, by decide +kernel⟩
  · have hlogs : (Service.holding (.sample "A" 0 1.0)).logs { orderId := some " " } =
        [.sample "A" 0 1.0] := by decide +kernel
    rw [hsent _ _ (by simpa [hlogs] using ⟨by decide, by decide, hlegible⟩), hlogs]
    rfl
  · have hlogs : (Service.holding (.sample "A" 1 1.0)).logs { orderId := some "A" } =
        [.sample "A" 1 1.0] := by decide +kernel
    rw [hsent _ _ (by simpa [hlogs] using ⟨by decide, by decide, hlegible⟩), hlogs]
    rfl

end Http.Client

end OrderTelemetry
