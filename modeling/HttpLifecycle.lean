import HttpLifecycle.Time
import HttpLifecycle.Word
import HttpLifecycle.Text.Layout
import HttpLifecycle.Reason
import HttpLifecycle.Error
import HttpLifecycle.Note
import HttpLifecycle.Config
import HttpLifecycle.Gate
import HttpLifecycle.Metrics.Counter
import HttpLifecycle.Monitor
import HttpLifecycle.Drain
import HttpLifecycle.Route
import HttpLifecycle.Body
import HttpLifecycle.Request.Basic
import HttpLifecycle.AccessLog
import HttpLifecycle.Effect
import HttpLifecycle.Request.Actions
import HttpLifecycle.Connection.Basic
import HttpLifecycle.Connection.Shutdown
import HttpLifecycle.Connection.Frames
import HttpLifecycle.Connection.Event
import HttpLifecycle.Decimal.Shortest
import HttpLifecycle.Body.Reader
import HttpLifecycle.Metrics.Basic
import HttpLifecycle.Metrics.Exposition
import HttpLifecycle.Registry
import HttpLifecycle.Document.Basic
import HttpLifecycle.Document.Json
import HttpLifecycle.Config.Decode
import HttpLifecycle.Document.Toml.Text
import HttpLifecycle.Document.Toml.Number
import HttpLifecycle.Document.Toml.Table
import HttpLifecycle.Document.Toml
import HttpLifecycle.Config.File
import HttpLifecycle.Text.Hex
import HttpLifecycle.Text.Offset
import HttpLifecycle.Filter.Pattern.Atom
import HttpLifecycle.Filter.Pattern.CharSet
import HttpLifecycle.Filter.Pattern
import HttpLifecycle.Filter.Field
import HttpLifecycle.Filter
import HttpLifecycle.Proofs.Monitor.Timers
import HttpLifecycle.Proofs.Monitor.Vigilance
import HttpLifecycle.Proofs.Connection.ShutdownKept
import HttpLifecycle.Proofs.Connection.Coherent
import HttpLifecycle.Proofs.Connection.Closing
import HttpLifecycle.Proofs.Connection.Move
import HttpLifecycle.Proofs.Connection.Inputs
import HttpLifecycle.Proofs.Connection.Transcript
import HttpLifecycle.Proofs.Connection.Verdicts
import HttpLifecycle.Proofs.Connection.Deadlines
import HttpLifecycle.Proofs.Connection.Sleep
import HttpLifecycle.Proofs.Registry.TimerLoop
import HttpLifecycle.Proofs.Connection.Forward
import HttpLifecycle.Proofs.Intake.Balance
import HttpLifecycle.Proofs.Request.OwnStep
import HttpLifecycle.Proofs.Connection.StreamsKept
import HttpLifecycle.Proofs.Connection.StreamSteps
import HttpLifecycle.Proofs.Connection.Admission
import HttpLifecycle.Proofs.Connection.Outcome
import HttpLifecycle.Proofs.Connection.Ledger
import HttpLifecycle.Proofs.Connection.Traffic
import HttpLifecycle.Proofs.Connection.Reopening
import HttpLifecycle.Proofs.Connection.Window
import HttpLifecycle.Proofs.Connection.Fate
import HttpLifecycle.Proofs.Connection.Retirement
import HttpLifecycle.Proofs.Connection.Hearing
import HttpLifecycle.Proofs.Connection.Handover
import HttpLifecycle.Proofs.Connection.Aftermath
import HttpLifecycle.Proofs.Connection.Alike
import HttpLifecycle.Proofs.Connection.Pings
import HttpLifecycle.Proofs.Connection.Protocols
import HttpLifecycle.Proofs.Registry.Schedule
import HttpLifecycle.Proofs.Registry.Shutdown
import HttpLifecycle.Proofs.Registry.Waning
import HttpLifecycle.Proofs.Connection.Owners
import HttpLifecycle.Proofs.Connection.Handling
import HttpLifecycle.Proofs.Intake.Account
import HttpLifecycle.Proofs.Connection.Truncation
import HttpLifecycle.Proofs.Connection.Adds
import HttpLifecycle.Proofs.Connection.Steady
import HttpLifecycle.Proofs.Connection.Quota
import HttpLifecycle.Proofs.Metrics.Totals
import HttpLifecycle.Proofs.Connection.Lifecycle
import HttpLifecycle.Proofs.Connection.Fleet
import HttpLifecycle.Proofs.Connection.Failures
import HttpLifecycle.Proofs.Registry.Membership
import HttpLifecycle.Proofs.Drain.Course
import HttpLifecycle.Proofs.Monitor.Step
import HttpLifecycle.Proofs.Monitor.Run
import HttpLifecycle.Proofs.Monitor.Lateness
import HttpLifecycle.Proofs.Monitor.Grounds
import HttpLifecycle.Proofs.Monitor.Probes
import HttpLifecycle.Proofs.Monitor.Tally
import HttpLifecycle.Proofs.Monitor.Cadence
import HttpLifecycle.Proofs.Monitor.Constancy
import HttpLifecycle.Proofs.Monitor.RoundTrips
import HttpLifecycle.Proofs.Request.Delivery
import HttpLifecycle.Proofs.Gate.Hysteresis
import HttpLifecycle.Proofs.Request.Course
import HttpLifecycle.Proofs.Request.Streaming
import HttpLifecycle.Proofs.Request.Gathering
import HttpLifecycle.Proofs.Request.Finality
import HttpLifecycle.Proofs.Request.Locality
import HttpLifecycle.Proofs.Connection.Rejection
import HttpLifecycle.Proofs.Connection.Overrun
import HttpLifecycle.Proofs.Connection.Breach
import HttpLifecycle.Proofs.Gate.Draining
import HttpLifecycle.Proofs.Intake.Draining
import HttpLifecycle.Proofs.Request.Dismissal
import HttpLifecycle.Proofs.Connection.Reordering
import HttpLifecycle.Proofs.Connection.Repetition
