import OrderTelemetry.Gateway
import OrderTelemetry.Text.Column

/-!
# Demo records

A feed of made-up submissions shows the dashboard at work without a broker.  The numbers are drawn
from a generator of pseudorandom numbers; a few slow responses are among them, and a given share of
the orders fails.  A submission has an error exactly if it is a failure.
-/

namespace OrderTelemetry

/-- A generator of pseudorandom numbers. -/
structure Draws where
  state : UInt64

namespace Draws

/-- The next number of sixty-four bits: the state takes a fixed step, and its bits are mixed. -/
def next (d : Draws) : UInt64 × Draws :=
  let state := d.state + 0x9E3779B97F4A7C15
  let z := (state ^^^ (state >>> 30)) * 0xBF58476D1CE4E5B9
  let z := (z ^^^ (z >>> 27)) * 0x94D049BB133111EB
  (z ^^^ (z >>> 31), ⟨state⟩)

/-- A number from zero up to one, which is not reached. -/
def unit (d : Draws) : Float × Draws :=
  let (n, d) := d.next
  (Float.ofNat (n >>> 11).toNat / 9007199254740992.0, d)

/-- A number between two bounds. -/
def between (d : Draws) (low high : Float) : Float × Draws :=
  let (x, d) := d.unit
  (low + x * (high - low), d)

/-- True with a given probability. -/
def chance (d : Draws) (p : Float) : Bool × Draws :=
  let (x, d) := d.unit
  (decide (x < p), d)

/-- One of several texts. -/
def pick (d : Draws) (texts : List String) : String × Draws :=
  let (n, d) := d.next
  (texts.getD (n.toNat % texts.length) "", d)

end Draws

/-- A feed of made-up submissions. -/
structure DemoFeed where
  draws : Draws
  failureRate : Float
  /-- The number of submissions so far. -/
  sequence : Nat

namespace DemoFeed

/-- A rate between zero and one.  What is no number stays as it is. -/
def clampRate (rate : Float) : Float := if rate < 0.0 then 0.0 else if 1.0 < rate then 1.0 else rate

/-- A feed at its beginning. -/
def seeded (seed : Nat) (failureRate : Float) : DemoFeed :=
  ⟨⟨UInt64.ofNat seed⟩, clampRate failureRate, 0⟩

/-- The brokers of the feed. -/
def brokers : List String := ["zerodha", "angel", "dhan", "fyers", "upstox"]

/-- The symbols of the feed. -/
def symbols : List String :=
  ["RELIANCE", "SBIN", "INFY", "TCS", "NIFTY24DECFUT", "BANKNIFTY24DEC48000CE"]

/-- The order types of the feed. -/
def orderTypes : List String := ["MARKET", "LIMIT", "SL", "SL-M"]

/-- The errors of the feed. -/
def errors : List String :=
  ["RMS: Margin Exceeds", "Order price is out of circuit range", "Connection timed out"]

/-- A latency rounded to hundredths. -/
def rounded (x : Float) : Float := Float.ofNat (Decimal.nearestNat (x * 100.0)) / 100.0

/-- The next submission.  There is none if the rate of failures is no number. -/
def next (f : DemoFeed) : Option (Submission × DemoFeed) :=
  if f.failureRate.isNaN then none
  else
    let sequence := f.sequence + 1
    let (validation, d) := f.draws.between 0.5 6.0
    let (response, d) := d.between 15.0 140.0
    let (overhead, d) := d.between 2.0 25.0
    let (slow, d) := d.chance 0.02
    let response := if slow then response * 4.0 else response
    let total := validation + response + overhead
    let (share, d) := d.between 0.85 1.0
    let (failed, d) := d.chance f.failureRate
    let (broker, d) := d.pick brokers
    let (symbol, d) := d.pick symbols
    let (orderType, d) := d.pick orderTypes
    let (error, d) := if failed then let (e, d) := d.pick errors; (some e, d) else (none, d)
    some
      ({ orderId := "DEMO" ++ Text.zeroPadded 8 sequence
         broker, symbol, orderType
         timestamp := none
         latencies :=
           { rtt := rounded (response * share)
             total := rounded total
             validation := rounded validation
             response := rounded response
             overhead := rounded overhead }
         status := if failed then .failure else .success
         error },
       { f with draws := d, sequence })

/-- The next submissions, as many as are asked for unless there is none. -/
def take : Nat → DemoFeed → Option (List Submission × DemoFeed)
  | 0, f => some ([], f)
  | n + 1, f => do
    let (s, f) ← f.next
    let (more, f) ← take n f
    return (s :: more, f)

end DemoFeed

/-- Records submissions one after the other, and answers the ids that they got. -/
def Gateway.recordAll (now : Instant) : List Submission → Gateway → List Nat × Gateway
  | [], g => ([], g)
  | s :: rest, g =>
    let step := g.record s now
    let (ids, last) := recordAll now rest step.state
    (match step.answer with
      | .ok (some id) => id :: ids
      | _ => ids, last)

end OrderTelemetry
