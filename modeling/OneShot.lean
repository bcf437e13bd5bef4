import OneShot.Text.Ranges
import OneShot.Text.Blank
import OneShot.Text.Quoted
import OneShot.Text.Digit
import OneShot.Decimal.Shortest
import OneShot.Decimal.Text
import OneShot.Decimal.Round
import OneShot.Decimal.Read
import OneShot.Json.Value
import OneShot.Json.Reader
import OneShot.Json.Writer
import OneShot.Json.Shown
import OneShot.Calendar.Date
import OneShot.Calendar.DateTime
import OneShot.Calendar.Duration
import OneShot.Schedule
import OneShot.Resource.Key
import OneShot.Resource.Phase
import OneShot.Resource.Object
import OneShot.Resource.Derived
import OneShot.Json.Access
import OneShot.Assoc
import OneShot.Queue.Clock
import OneShot.Queue.Backoff
import OneShot.Queue.WorkQueue
import OneShot.Queue.Deadline
import OneShot.Queue.Dispatch
import OneShot.Wire.Fault
import OneShot.Fault
import OneShot.Client
import OneShot.Reconcile.Pass
import OneShot.Store.Column
import OneShot.Store.Row
import OneShot.Store.Basic
import OneShot.Runner.Run
import OneShot.Runner.Pool
import OneShot.Broadcast
import OneShot.Simulation.VirtualClock
import OneShot.Simulation.Bench
import OneShot.Simulation.Shelf
import OneShot.Simulation.Dispatcher
import OneShot.Queue.Staff
import OneShot.Runner.Programs
import OneShot.Simulation.World
import OneShot.Operations
import OneShot.Table.Age
import OneShot.Table.Layout
import OneShot.Table.Listing
import OneShot.Calendar.Stamp
import OneShot.Wire.Checked
import OneShot.Wire.Scalar
import OneShot.Wire.Members
import OneShot.Wire.Model
import OneShot.Wire.Translate
import OneShot.Wire.Path
import OneShot.Text.Encoding
import OneShot.Http.Url
import OneShot.Http.Message
import OneShot.Http.Retry
import OneShot.ApiServer.Settings
import OneShot.ApiServer.Calls
import OneShot.Simulation.Server
import OneShot.Simulation.Script
import OneShot.Simulation.Report
import OneShot.Decimal.Quantity
import OneShot.Settings.Fault
import OneShot.Settings.Environment
import OneShot.Settings.Controller
import OneShot.Toml.Value
import OneShot.Toml.Scalar
import OneShot.Toml.Table
import OneShot.Toml.Reader
import OneShot.Files.Path
import OneShot.Files.Tree
import OneShot.ApiServer.Credentials
import OneShot.Settings.Storage
import OneShot.Settings.LogLevel
import OneShot.Store.Session
import OneShot.Store.Schema
import OneShot.Store.SchemaScripts
import OneShot.CommandLine.Arguments
import OneShot.CommandLine.Command
import OneShot.CommandLine.Session
import OneShot.Simulation.Handlers
import OneShot.Simulation.Terminal
import OneShot.Simulation.ServerScript
import OneShot.Store.Snapshot
import OneShot.Main
import OneShot.Text.Pieces
import OneShot.Proofs.Assoc
import OneShot.Proofs.Insertion
import OneShot.Proofs.Queue.Consistency
import OneShot.Proofs.Runs
import OneShot.Proofs.Queue.History
import OneShot.Proofs.Queue.Exclusion
import OneShot.Proofs.Queue.Pledges
import OneShot.Proofs.Store.Announcements
import OneShot.Proofs.Decimal.Numerals
import OneShot.Proofs.Reconcile.Attempts
import OneShot.Proofs.Reconcile.Race
import OneShot.Proofs.Controller.Posts
import OneShot.Proofs.Controller.Watch
import OneShot.Proofs.Simulation.Worlds
import OneShot.Proofs.Calendar.Instants
import OneShot.Proofs.Json.Strings
import OneShot.Proofs.Store.Identity
import OneShot.Proofs.Store.Columns
import OneShot.Proofs.Store.ReadBack
import OneShot.Proofs.Store.StatusWrites
import OneShot.Proofs.Store.Incarnations
import OneShot.Proofs.Reconcile.OpenRace
import OneShot.Proofs.Reconcile.Launches
import OneShot.Proofs.Reconcile.Ownership
import OneShot.Proofs.Reconcile.Solo
import OneShot.Proofs.Reconcile.Convergence
import OneShot.Proofs.Store.Order
import OneShot.Proofs.Store.Tables
import OneShot.Proofs.Store.VersionedMap
import OneShot.Proofs.Store.Replay
import OneShot.Proofs.Operations.Edits
import OneShot.Proofs.Store.Owners
import OneShot.Proofs.Runner.Jobs
import OneShot.Proofs.Runner.Work
import OneShot.Proofs.Runner.Once
import OneShot.Proofs.Runner.History
import OneShot.Proofs.Runner.Outcomes
import OneShot.Proofs.Runner.Pickup
import OneShot.Proofs.Runner.Transcripts
import OneShot.Proofs.Runner.Attempts
import OneShot.Proofs.Calendar.Stamps
import OneShot.Proofs.Wire.Members
import OneShot.Proofs.Wire.RoundTrip
import OneShot.Proofs.Wire.Leaves
import OneShot.Proofs.ApiServer.Updates
import OneShot.Proofs.Queue.Promotion
import OneShot.Proofs.Queue.Waking
import OneShot.Proofs.ApiServer.Failures
import OneShot.Proofs.Queue.Shutdown
import OneShot.Proofs.Reconcile.Transcripts
import OneShot.Proofs.Reconcile.Deadlines
import OneShot.Proofs.Reconcile.StateMachine
import OneShot.Proofs.Queue.Delays
import OneShot.Proofs.Queue.Verdicts
import OneShot.Proofs.Queue.Books
import OneShot.Proofs.Queue.Retries
import OneShot.Proofs.Queue.Resting
import OneShot.Proofs.Controller.Sites
import OneShot.Proofs.Controller.Wakeup
import OneShot.Proofs.Store.VersionTexts
import OneShot.Proofs.Schedule.Layout
import OneShot.Proofs.ApiServer.Namespaces
import OneShot.Proofs.Http.Addresses
import OneShot.Proofs.Wire.Endpoints
import OneShot.Proofs.ApiServer.Reached
import OneShot.Proofs.Schedule.WrittenBack
import OneShot.Proofs.Subscriptions
import OneShot.Proofs.Decimal.Floats
import OneShot.Proofs.Queue.HandedDelays
import OneShot.Proofs.Settings.Controller
import OneShot.Proofs.Decimal.Positive
import OneShot.Proofs.Text.Utf8
import OneShot.Proofs.Toml.Interruptions
import OneShot.Proofs.ApiServer.Credentials
import OneShot.Proofs.Resource.KeyTexts
import OneShot.Proofs.Decimal.Quotients
import OneShot.Proofs.Calendar.Durations
import OneShot.Proofs.Table.Ages
import OneShot.Proofs.Table.Columns
import OneShot.Proofs.CommandLine.Changes
import OneShot.Proofs.CommandLine.Sessions
