import GeoReplication.Api.Nodes
import GeoReplication.Api.Refusal
import GeoReplication.Api.Routes
import GeoReplication.Attempt
import GeoReplication.Config
import GeoReplication.Console.Arguments
import GeoReplication.Console.Command
import GeoReplication.Console.Dialogue
import GeoReplication.Console.Poll
import GeoReplication.Console.PollPace
import GeoReplication.Console.Run
import GeoReplication.Console.StatusText
import GeoReplication.Error
import GeoReplication.EventLog
import GeoReplication.Health
import GeoReplication.Http.MediaType
import GeoReplication.Http.Message
import GeoReplication.Http.Target
import GeoReplication.JobQueue
import GeoReplication.Json.Basic
import GeoReplication.Json.Bits
import GeoReplication.Json.Codec
import GeoReplication.Json.Decode
import GeoReplication.Json.Reader
import GeoReplication.Json.Writer
import GeoReplication.Lease
import GeoReplication.Main
import GeoReplication.Mirror.Basic
import GeoReplication.Mirror.Fetch
import GeoReplication.Model.Event
import GeoReplication.Model.File
import GeoReplication.Model.Node
import GeoReplication.Model.Project
import GeoReplication.Model.Registry
import GeoReplication.Model.Status
import GeoReplication.Path
import GeoReplication.Program
import GeoReplication.Proofs.Program.Interleaved
import GeoReplication.Proofs.Program.Run
import GeoReplication.Proofs.Queue.NoneTwice
import GeoReplication.Proofs.Tick.Interleave
import GeoReplication.Site.Basic
import GeoReplication.Site.Fault
import GeoReplication.Site.MirrorRule
import GeoReplication.Site.Workers
import GeoReplication.StatusReport
import GeoReplication.Store.Basic
import GeoReplication.Store.Call
import GeoReplication.Store.Candidates
import GeoReplication.Store.Counts
import GeoReplication.Store.Events
import GeoReplication.Store.Files
import GeoReplication.Store.Leases
import GeoReplication.Store.Nodes
import GeoReplication.Store.Projects
import GeoReplication.Store.Registries
import GeoReplication.Store.Rows
import GeoReplication.Store.Snapshot
import GeoReplication.Store.Table
import GeoReplication.Store.Visibility
import GeoReplication.Text.Decimal
import GeoReplication.Text.Rounded
import GeoReplication.Text.Scan
import GeoReplication.Text.Shortest
import GeoReplication.Text.Utf8
import GeoReplication.Tick.Basic
import GeoReplication.Tick.Interleave
import GeoReplication.Tick.Source
import GeoReplication.Time.Civil
import GeoReplication.Time.Instant
import GeoReplication.Time.Rfc3339
import GeoReplication.Toml.Basic
import GeoReplication.Toml.Reader
import GeoReplication.Toml.Scalar
import GeoReplication.Url.Address
import GeoReplication.Url.Escaped
import GeoReplication.Url.Socket
import GeoReplication.Wire.Call
import GeoReplication.Wire.Column
import GeoReplication.Wire.Config
import GeoReplication.Wire.Error
import GeoReplication.Wire.Event
import GeoReplication.Wire.Field
import GeoReplication.Wire.File
import GeoReplication.Wire.Node
import GeoReplication.Wire.Project
import GeoReplication.Wire.Registry
import GeoReplication.Wire.Report
import GeoReplication.Wire.Status
import GeoReplication.Proofs.Tick.Effects
import GeoReplication.Proofs.Tick.SharedQueue
import GeoReplication.Proofs.Tick.FixedAnswers
import GeoReplication.Proofs.Tick.Pages
import GeoReplication.Proofs.Tick.Sweep
import GeoReplication.Proofs.Store.Candidates
import GeoReplication.Proofs.Store.Leases
import GeoReplication.Proofs.Tick.Unhindered
import GeoReplication.Proofs.Tick.FillsRoom
import GeoReplication.Proofs.Tick.Starvation
import GeoReplication.Proofs.Program.Follows
import GeoReplication.Proofs.Store.Events
import GeoReplication.Proofs.EventLog.Trials
import GeoReplication.Proofs.EventLog.Readings
import GeoReplication.Proofs.EventLog.Account
import GeoReplication.Proofs.EventLog.NoneLost
import GeoReplication.Proofs.Time.Calendar
import GeoReplication.Proofs.Time.StoredOrder
import GeoReplication.Proofs.Logged
import GeoReplication.Proofs.Lease.Exclusion
import GeoReplication.Proofs.Store.Actions
import GeoReplication.Proofs.Store.Registries
import GeoReplication.Proofs.Store.Reached
import GeoReplication.Proofs.Resync.Kept
import GeoReplication.Proofs.Program.Secures
import GeoReplication.Proofs.Tick.Steps
import GeoReplication.Proofs.Tick.Outcome
import GeoReplication.Proofs.Tick.Ring
import GeoReplication.Proofs.Tick.Lap
import GeoReplication.Proofs.Tick.GivenUp
import GeoReplication.Proofs.Tick.Rotation
import GeoReplication.Proofs.Store.Copied
import GeoReplication.Proofs.Replication.Attempts
import GeoReplication.Proofs.Replication.Ready
import GeoReplication.Proofs.Replication.Converges
import GeoReplication.Proofs.Store.Places
import GeoReplication.Proofs.Store.Outcomes
import GeoReplication.Proofs.Time.ReadBack
import GeoReplication.Proofs.Store.UpToDate
import GeoReplication.Proofs.Store.Cursors
import GeoReplication.Proofs.Site.Turns
import GeoReplication.Proofs.EventLog.WithinLog
import GeoReplication.Proofs.EventLog.Replay
import GeoReplication.Proofs.EventLog.CaughtUp
import GeoReplication.Proofs.Store.Atomic
import GeoReplication.Proofs.Store.Keys
import GeoReplication.Proofs.Store.Nodes
import GeoReplication.Proofs.Store.Created
import GeoReplication.Proofs.Store.Distinct
import GeoReplication.Proofs.Store.References
import GeoReplication.Proofs.Store.Race
import GeoReplication.Proofs.Store.Restricted
import GeoReplication.Proofs.Status.AddsUp
import GeoReplication.Proofs.Store.FindsItself
import GeoReplication.Proofs.Program.Abreast
import GeoReplication.Proofs.Api.Handlers
import GeoReplication.Proofs.Api.Overlap
import GeoReplication.Proofs.Program.Alike
import GeoReplication.Proofs.Store.Columns
import GeoReplication.Proofs.Tick.Alike
import GeoReplication.Proofs.Store.WithoutWikis
import GeoReplication.Proofs.Replication.WithoutWikis
import GeoReplication.Proofs.Status.Unrestricted
import GeoReplication.Proofs.SwitchedOff
import GeoReplication.Proofs.Store.Apart
import GeoReplication.Proofs.Status.OneStore
import GeoReplication.Proofs.NodesApart
import GeoReplication.Proofs.Status.Overtaken
import GeoReplication.Proofs.Replication.Recorded
import GeoReplication.Proofs.Lease.Moments
import GeoReplication.Proofs.Tick.Renewals
import GeoReplication.Proofs.Tick.Overlap
import GeoReplication.Proofs.EventLog.Unreadable
import GeoReplication.Proofs.Program.Sober
import GeoReplication.Proofs.Tick.Timeouts
import GeoReplication.Proofs.Tick.FailedLookUp
import GeoReplication.Proofs.Tick.ScarceSlot
import GeoReplication.Proofs.Store.Dirty
import GeoReplication.Proofs.Store.InScope
import GeoReplication.Proofs.Queue.Dropped
import GeoReplication.Proofs.EventLog.Twice
import GeoReplication.Proofs.EventLog.Again
import GeoReplication.Proofs.Store.FileHistory
import GeoReplication.Proofs.Status.Markup
import GeoReplication.Proofs.Status.Healthy
import GeoReplication.Proofs.Status.Broken
import GeoReplication.Proofs.Status.Isolated
import GeoReplication.Proofs.Replication.SizeForgotten
import GeoReplication.Proofs.Url.ReadBack
import GeoReplication.Proofs.Url.Lookalike
import GeoReplication.Proofs.Store.OwnUrl
import GeoReplication.Proofs.Url.Named
import GeoReplication.Proofs.Api.Current
import GeoReplication.Proofs.Replication.Drained
import GeoReplication.Proofs.Tick.Turns
import GeoReplication.Proofs.Tick.OneRound
import GeoReplication.Proofs.Tick.Budget
import GeoReplication.Proofs.Tick.Ends
import GeoReplication.Proofs.Json.ReadBack
import GeoReplication.Proofs.Json.Records
import GeoReplication.Proofs.Time.WrittenBack
import GeoReplication.Proofs.Wire.Survives
import GeoReplication.Proofs.Text.Numerals
import GeoReplication.Proofs.Console.KeepsNumbers
import GeoReplication.Proofs.Console.BacksOff
