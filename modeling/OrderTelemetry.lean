import OrderTelemetry.Archive.Basic
import OrderTelemetry.Archive.Database
import OrderTelemetry.Archive.Queue
import OrderTelemetry.Archive.Row
import OrderTelemetry.Archive.Script
import OrderTelemetry.Archive.Wire
import OrderTelemetry.Archive.Writer
import OrderTelemetry.Calendar.Date
import OrderTelemetry.Calendar.Instant
import OrderTelemetry.Calendar.Pattern
import OrderTelemetry.Calendar.Render
import OrderTelemetry.Console.Arguments
import OrderTelemetry.Console.Report
import OrderTelemetry.Console.Run
import OrderTelemetry.Dashboard
import OrderTelemetry.Decimal.Binary
import OrderTelemetry.Decimal.Layout
import OrderTelemetry.Decimal.Reader
import OrderTelemetry.Decimal.Shortest
import OrderTelemetry.Demo
import OrderTelemetry.Export.Chunks
import OrderTelemetry.Export.Csv
import OrderTelemetry.Export.Format
import OrderTelemetry.Fault
import OrderTelemetry.Gateway
import OrderTelemetry.Http.Client
import OrderTelemetry.Http.Form
import OrderTelemetry.Http.Head
import OrderTelemetry.Http.MediaType
import OrderTelemetry.Http.Message
import OrderTelemetry.Http.Router
import OrderTelemetry.Json.Codec
import OrderTelemetry.Json.Fields
import OrderTelemetry.Json.Lexical
import OrderTelemetry.Json.Skip
import OrderTelemetry.Json.Value
import OrderTelemetry.Main
import OrderTelemetry.Notice
import OrderTelemetry.Order
import OrderTelemetry.Record
import OrderTelemetry.Record.Wire
import OrderTelemetry.Server.Address
import OrderTelemetry.Server.Run
import OrderTelemetry.Server.Sweep
import OrderTelemetry.Settings.Basic
import OrderTelemetry.Settings.DotEnv
import OrderTelemetry.Settings.Environment
import OrderTelemetry.Settings.Load
import OrderTelemetry.Settings.Sections
import OrderTelemetry.Settings.Toml.Document
import OrderTelemetry.Settings.Toml.Number
import OrderTelemetry.Settings.Toml.Text
import OrderTelemetry.Settings.Value
import OrderTelemetry.Settings.Wire
import OrderTelemetry.Stats
import OrderTelemetry.Stats.Percentile
import OrderTelemetry.Stats.Scan
import OrderTelemetry.Stats.Totals
import OrderTelemetry.Stats.Wire
import OrderTelemetry.Store.Basic
import OrderTelemetry.Store.Query
import OrderTelemetry.Store.Retention
import OrderTelemetry.Text.Blank
import OrderTelemetry.Text.Column
import OrderTelemetry.Text.Hex
import OrderTelemetry.Text.Utf8
import OrderTelemetry.Proofs.Calendar.Earlier
import OrderTelemetry.Proofs.Store.Run
import OrderTelemetry.Proofs.Store.Window
import OrderTelemetry.Proofs.Store.Lookup
import OrderTelemetry.Proofs.Store.Statistics
import OrderTelemetry.Proofs.Store.Ids
import OrderTelemetry.Proofs.Archive.Schedule
import OrderTelemetry.Proofs.Archive.Handover
import OrderTelemetry.Proofs.Gateway.Admission
import OrderTelemetry.Proofs.Export.Chunks
import OrderTelemetry.Proofs.Export.Reading
import OrderTelemetry.Proofs.Archive.Drained
import OrderTelemetry.Proofs.Calendar.Millis
import OrderTelemetry.Proofs.Gateway.Pipeline
import OrderTelemetry.Proofs.Gateway.Restart
import OrderTelemetry.Proofs.Decimal.Digits
import OrderTelemetry.Proofs.Decimal.Finite
import OrderTelemetry.Proofs.Decimal.Magnitude
import OrderTelemetry.Proofs.Json.Lexical
import OrderTelemetry.Proofs.Json.Entries
import OrderTelemetry.Proofs.Json.Codecs
import OrderTelemetry.Proofs.Json.Records
import OrderTelemetry.Proofs.Record.Wire
import OrderTelemetry.Proofs.Text.Hex
import OrderTelemetry.Proofs.Text.Utf8
import OrderTelemetry.Proofs.Text.Blank
import OrderTelemetry.Proofs.Http.Exchange
import OrderTelemetry.Proofs.Http.Submitting
import OrderTelemetry.Proofs.Http.Form
import OrderTelemetry.Proofs.Http.Reading
import OrderTelemetry.Proofs.Http.Orders
import OrderTelemetry.Proofs.Stats.Wire
import OrderTelemetry.Proofs.Stats.Finite
import OrderTelemetry.Proofs.Gateway.Traffic
import OrderTelemetry.Proofs.Http.Statistics
import OrderTelemetry.Proofs.Archive.Table
import OrderTelemetry.Proofs.Store.Filled
import OrderTelemetry.Proofs.Server.Idle
import OrderTelemetry.Proofs.Archive.Restarts
import OrderTelemetry.Proofs.Store.Failure
import OrderTelemetry.Proofs.Http.Effects
import OrderTelemetry.Proofs.Gateway.DataModel
import OrderTelemetry.Proofs.Decimal.Rounding
import OrderTelemetry.Proofs.Decimal.Value
import OrderTelemetry.Proofs.Stats.Drift
import OrderTelemetry.Proofs.Store.Average
import OrderTelemetry.Proofs.Store.Restoring
import OrderTelemetry.Proofs.Archive.History
import OrderTelemetry.Proofs.Archive.ReadBack
import OrderTelemetry.Proofs.Archive.HighestId
import OrderTelemetry.Proofs.Export.Walk
import OrderTelemetry.Proofs.Store.Expiry
import OrderTelemetry.Proofs.Gateway.Provenance
import OrderTelemetry.Proofs.Text.ByteOrder
import OrderTelemetry.Proofs.Stats.Brokers
import OrderTelemetry.Proofs.Decimal.Product
import OrderTelemetry.Proofs.Stats.Percentile
import OrderTelemetry.Proofs.Store.RestoredLatencies
import OrderTelemetry.Proofs.Gateway.Normal
import OrderTelemetry.Proofs.Server.Sweeps
import OrderTelemetry.Proofs.Calendar.Days
import OrderTelemetry.Proofs.Export.Times
import OrderTelemetry.Proofs.Http.Faults
import OrderTelemetry.Proofs.Settings.Layers
import OrderTelemetry.Proofs.Settings.Sections
import OrderTelemetry.Proofs.Settings.Spelling
import OrderTelemetry.Proofs.Settings.Quoted
import OrderTelemetry.Proofs.Settings.Variables
