import OrderTelemetry.Record

/-!
# Notices

What the service tells whoever watches it.  Every notice is a value, so an operation returns the
notices it gives in their order; `Notice.level` and `Notice.message` turn one into a line of a log.
-/

namespace OrderTelemetry

/-- How much a notice matters. -/
inductive Level where
  | debug
  | info
  | warn
  | error
  deriving DecidableEq, Repr

/-- The word for a level. -/
def Level.name : Level → String
  | debug => "DEBUG"
  | info => "INFO"
  | warn => "WARN"
  | error => "ERROR"

/-- An event worth telling. -/
inductive Notice where
  /-- A broker's word for an order type is not known. -/
  | unknownOrderType (word orderId : String)
  /-- The phases do not add up to the total latency. -/
  | breakdownGap (orderId : String) (gap phases total : Float)
  | failureUnexplained (orderId : String)
  | errorIgnored (error orderId : String)
  /-- A failure has been stored that carries no error text. -/
  | failureStored (orderId : String)
  | evicted (count id : Nat)
  | recorded (r : Record)
  | submissionDropped (orderId : String) (fault : Fault)
  /-- The sorted sample behind the percentiles has been made anew. -/
  | sampleRebuilt (count generation : Nat)
  | queueFull (id : Nat)
  | queueClosed (id : Nat)
  | rowUnreadable (fault : Fault)
  | restoreFailed (fault : Fault)
  | batchArchived (count : Nat)
  | batchLost (count : Nat) (fault : Fault)
  | writerStopped
  | writerCrashed (cause : String)
  | flushTimedOut
  | exporting (count : Nat) (fileName : String)
  | requestFailed (fault : Fault)
  | serverStarting
  | retention (records : Nat) (maxAge : Option Duration)
  | storageMissing
  | archiveOpened (path : String)
  | restored (count : Nat)
  | idsUnreadable (fault : Fault)
  | demoMode
  | demoStarted (interval : Duration)
  | listening (address : String)
  | expired (count : Nat)
  | purged (count : Nat)
  | purgeFailed (fault : Fault)
  | shutdown
  | flushing
  | flushed
  | serverStopped
  deriving DecidableEq, Repr

namespace Notice

/-- How much a notice matters. -/
def level : Notice → Level
  | unknownOrderType .. | errorIgnored .. | failureStored .. | evicted .. | recorded ..
  | sampleRebuilt .. | batchArchived .. => .debug
  | breakdownGap .. | failureUnexplained .. | submissionDropped .. | queueFull .. | queueClosed ..
  | rowUnreadable .. | restoreFailed .. | batchLost .. | flushTimedOut | storageMissing | demoMode
  | purgeFailed .. => .warn
  | writerCrashed .. | requestFailed .. | idsUnreadable .. => .error
  | writerStopped | exporting .. | serverStarting | retention .. | archiveOpened .. | restored ..
  | demoStarted .. | listening .. | expired .. | purged .. | shutdown | flushing | flushed
  | serverStopped => .info

/-- A number of milliseconds with three places. -/
def millis (x : Float) : String := Decimal.fixed 3 x ++ "ms"

/-- The wording of a notice. -/
def message : Notice → String
  | unknownOrderType word orderId =>
    "Order type '" ++ word ++ "' for order " ++ orderId ++ " recorded as OTHER"
  | breakdownGap orderId gap phases total =>
    "Latency breakdown for order " ++ orderId ++ " is off by " ++ millis gap ++ " (phases " ++
      millis phases ++ ", total " ++ millis total ++ ")"
  | failureUnexplained orderId =>
    "Failure recorded for order " ++ orderId ++ " without error detail"
  | errorIgnored error orderId => "Ignoring error '" ++ error ++ "' on successful order " ++ orderId
  | failureStored orderId => "Failure record for order " ++ orderId ++ " has no error detail"
  | evicted count id =>
    "Evicted " ++ count.repr ++ " records after append of id " ++ id.repr
  | recorded r =>
    "Recorded latency for order " ++ r.orderId ++ " (" ++ r.broker ++ " " ++ r.symbol ++
      "): rtt=" ++ Decimal.fixed 2 r.latencies.rtt ++ "ms total=" ++
      Decimal.fixed 2 r.latencies.total ++ "ms " ++ r.status.name
  | submissionDropped orderId fault =>
    "Dropping latency record for order " ++ orderId ++ ": " ++ fault.message
  | sampleRebuilt count generation =>
    "Percentile sample rebuilt: " ++ count.repr ++ " values at generation " ++ generation.repr
  | queueFull id => "Archive queue full, record " ++ id.repr ++ " not persisted"
  | queueClosed id => "Archive writer stopped, record " ++ id.repr ++ " not persisted"
  | rowUnreadable fault => "Skipping unreadable archived record: " ++ fault.message
  | restoreFailed fault => "Could not restore from archive, starting empty: " ++ fault.message
  | batchArchived count => "Archived " ++ count.repr ++ " latency records"
  | batchLost count fault =>
    "Dropping " ++ count.repr ++ " records, archive write failed: " ++ fault.message
  | writerStopped => "Archive writer stopped"
  | writerCrashed cause => "Archive writer failed: " ++ cause
  | flushTimedOut => "Archive flush timed out, queued records not persisted"
  | exporting count fileName =>
    "Exporting " ++ count.repr ++ " latency records to " ++ fileName
  | requestFailed fault => "API request failed: " ++ fault.message
  | serverStarting => "Starting latency telemetry server"
  | retention records maxAge =>
    "Retention: " ++ records.repr ++ " records" ++ (match maxAge with
      | some age => ", " ++ age.seconds.repr ++ "s max age"
      | none => "")
  | storageMissing => "Storage not configured, latency records are kept in memory only"
  | archiveOpened path => "Latency archive opened at " ++ path
  | restored count => "Restored " ++ count.repr ++ " latency records from archive"
  | idsUnreadable fault =>
    "Archive id range unreadable, records will not be persisted: " ++ fault.message
  | demoMode => "Demo mode: synthetic latency records are being generated"
  | demoStarted interval =>
    "Demo latency feed started (" ++ (interval.nanos / 1000000).repr ++ "ms interval)"
  | listening address => "Latency dashboard API listening on http://" ++ address
  | expired count => "Evicted " ++ count.repr ++ " expired latency records"
  | purged count => "Purged " ++ count.repr ++ " archived latency records"
  | purgeFailed fault => "Archive purge failed: " ++ fault.message
  | shutdown => "Shutdown signal received"
  | flushing => "Flushing archive queue"
  | flushed => "Archive queue flushed"
  | serverStopped => "Latency telemetry server stopped"

/-- The line of a log for a notice. -/
def line (n : Notice) : String := n.level.name ++ " " ++ n.message

end Notice

/-- What an operation leaves behind: its answer, the state after it and the notices it gave. -/
structure Step (σ α : Type) where
  answer : Except Failure α
  state : σ
  notices : List Notice := []

end OrderTelemetry
