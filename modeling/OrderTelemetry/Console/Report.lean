import OrderTelemetry.Stats
import OrderTelemetry.Text.Column

/-!
# Reports

The texts that the commands print: statistics line by line, and tables of brokers and of records
with columns of fixed width.
-/

namespace OrderTelemetry.Console

/-- Lines, each with its end. -/
def unlines (lines : List String) : String := String.join (lines.map (· ++ "\n"))

/-- A number of milliseconds with two places. -/
def two (x : Float) : String := Decimal.fixed 2 x

/-- A share with one place. -/
def one (x : Float) : String := Decimal.fixed 1 x

/-- A text on the left of a column. -/
def left (width : Nat) (s : String) : String := Text.fill .left width s

/-- A text on the right of a column. -/
def right (width : Nat) (s : String) : String := Text.fill .right width s

/-- A row of a table. -/
def tableRow (cells : List String) : String := " ".intercalate cells

/-- A line under the heads of a table. -/
def rule (width : Nat) : String := String.ofList (List.replicate width '-')

/-- The report on the statistics that are always at hand. -/
def statsReport (s : Stats) : String := unlines
  ["", "⏱  Order Latency", "",
   "Total Orders:  " ++ s.totalOrders.repr,
   "Failed:        " ++ s.failedOrders.repr ++ " (" ++ one s.failureRate ++ "%)",
   "Avg RTT:       " ++ two s.avgRtt ++ " ms",
   "P99 RTT:       " ++ two s.p99Rtt ++ " ms"]

/-- The row of a broker. -/
def brokerRow (b : BrokerStats) : String := tableRow
  [left 12 b.broker, right 8 b.totalOrders.repr, right 8 b.failedOrders.repr,
   right 10 (two b.avgRtt), right 10 (two b.p99Rtt)]

/-- The table of the brokers, if there is one. -/
def brokerTable (brokers : List BrokerStats) : List String :=
  if brokers.isEmpty then []
  else
    ["", tableRow [left 12 "Broker", right 8 "Orders", right 8 "Failed", right 10 "Avg RTT",
      right 10 "P99 RTT"], rule 52] ++ brokers.map brokerRow

/-- The report on the statistics that need a scan. -/
def detailedReport (s : DetailedStats) : String :=
  let p := s.percentiles
  unlines <|
    ["", "⏱  Order Latency (detailed)", "",
     "Total Orders:  " ++ s.totalOrders.repr,
     "Failed:        " ++ s.failedOrders.repr ++ " (" ++ one s.failureRate ++ "%)",
     "Avg RTT:       " ++ two s.avgRtt ++ " ms",
     "Avg Total:     " ++ two s.avgTotal ++ " ms",
     "Avg Overhead:  " ++ two s.avgOverhead ++ " ms",
     "RTT p50/p90/p95/p99: " ++ " / ".intercalate [two p.p50, two p.p90, two p.p95, two p.p99] ++
       " ms",
     "Under 100/150/200 ms: " ++
       " / ".intercalate ([s.sla.under100, s.sla.under150, s.sla.under200].map (one · ++ "%"))] ++
    brokerTable s.brokers

/-- The row of a record. -/
def logRow (r : Record) : String :=
  tableRow
    [right 6 r.id.repr, left 16 r.orderId, left 10 r.broker, left 16 r.symbol,
     left 7 r.orderType.name, right 9 (two r.latencies.rtt), right 9 (two r.latencies.total),
     left 8 r.status.name] ++
  (match r.error with
    | some e => " " ++ e
    | none => "")

/-- The table of records. -/
def logsReport (records : List Record) : String :=
  if records.isEmpty then unlines ["No latency logs found"]
  else unlines <|
    ["", tableRow [right 6 "ID", left 16 "Order", left 10 "Broker", left 16 "Symbol",
      left 7 "Type", right 9 "RTT", right 9 "Total", left 8 "Status"], rule 90] ++
    records.map logRow

/-- The confirmation of a submission. -/
def recordedReport (orderId : String) (id : Nat) : String := unlines
  ["✅ Recorded latency for order " ++ orderId ++ " (id " ++ id.repr ++ ")"]

end OrderTelemetry.Console
