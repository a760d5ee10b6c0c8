import IngestCoordinator.Allocator.Basic
import IngestCoordinator.Allocator.Grant
import IngestCoordinator.Allocator.Index
import IngestCoordinator.Allocator.Recovery
import IngestCoordinator.Allocator.Reports
import IngestCoordinator.Allocator.Sealing
import IngestCoordinator.Barrier
import IngestCoordinator.Catalog
import IngestCoordinator.Channels
import IngestCoordinator.Cluster
import IngestCoordinator.Collection
import IngestCoordinator.Coordinator.Assignment
import IngestCoordinator.Coordinator.Background
import IngestCoordinator.Coordinator.Basic
import IngestCoordinator.Coordinator.Collections
import IngestCoordinator.Coordinator.Lifecycle
import IngestCoordinator.Coordinator.Nodes
import IngestCoordinator.Error
import IngestCoordinator.IdSource
import IngestCoordinator.Identifier
import IngestCoordinator.Json.Number
import IngestCoordinator.Json.Record
import IngestCoordinator.Json.Text
import IngestCoordinator.Json.Token
import IngestCoordinator.Json.Value
import IngestCoordinator.KeyedLocks
import IngestCoordinator.Mailbox
import IngestCoordinator.Main
import IngestCoordinator.ManualClock
import IngestCoordinator.Message
import IngestCoordinator.Metrics
import IngestCoordinator.Operation
import IngestCoordinator.Proofs.Allocator.Accepting
import IngestCoordinator.Proofs.Allocator.Agreement
import IngestCoordinator.Proofs.Allocator.Clearing
import IngestCoordinator.Proofs.Allocator.Closing
import IngestCoordinator.Proofs.Allocator.Counters
import IngestCoordinator.Proofs.Allocator.Emptying
import IngestCoordinator.Proofs.Allocator.Evolution
import IngestCoordinator.Proofs.Allocator.Expiry
import IngestCoordinator.Proofs.Allocator.Failures
import IngestCoordinator.Proofs.Allocator.Granting
import IngestCoordinator.Proofs.Allocator.Guarantees
import IngestCoordinator.Proofs.Allocator.Index
import IngestCoordinator.Proofs.Allocator.Newest
import IngestCoordinator.Proofs.Allocator.Opening
import IngestCoordinator.Proofs.Allocator.Quiet
import IngestCoordinator.Proofs.Allocator.Readiness
import IngestCoordinator.Proofs.Allocator.Recovery
import IngestCoordinator.Proofs.Allocator.Refinement
import IngestCoordinator.Proofs.Allocator.Repairing
import IngestCoordinator.Proofs.Allocator.Reporting
import IngestCoordinator.Proofs.Allocator.Retrying
import IngestCoordinator.Proofs.Allocator.Runs
import IngestCoordinator.Proofs.Allocator.Serving
import IngestCoordinator.Proofs.Allocator.Shutting
import IngestCoordinator.Proofs.Allocator.Stages
import IngestCoordinator.Proofs.Allocator.Writing
import IngestCoordinator.Proofs.Barrier
import IngestCoordinator.Proofs.Channels
import IngestCoordinator.Proofs.Channels.Division
import IngestCoordinator.Proofs.Channels.Names
import IngestCoordinator.Proofs.Cluster.Balance
import IngestCoordinator.Proofs.Cluster.FlushTargets
import IngestCoordinator.Proofs.Cluster.Giving
import IngestCoordinator.Proofs.Cluster.Notices
import IngestCoordinator.Proofs.Collection
import IngestCoordinator.Proofs.Coordinator.Answers
import IngestCoordinator.Proofs.Coordinator.Assignment
import IngestCoordinator.Proofs.Coordinator.Attendance
import IngestCoordinator.Proofs.Coordinator.Batches
import IngestCoordinator.Proofs.Coordinator.Commands
import IngestCoordinator.Proofs.Coordinator.Concerns
import IngestCoordinator.Proofs.Coordinator.Counters
import IngestCoordinator.Proofs.Coordinator.Crash
import IngestCoordinator.Proofs.Coordinator.Effects
import IngestCoordinator.Proofs.Coordinator.FlushRequests
import IngestCoordinator.Proofs.Coordinator.Frozen
import IngestCoordinator.Proofs.Coordinator.InsertChannels
import IngestCoordinator.Proofs.Coordinator.Moments
import IngestCoordinator.Proofs.Coordinator.Opening
import IngestCoordinator.Proofs.Coordinator.Progress
import IngestCoordinator.Proofs.Coordinator.Reaping
import IngestCoordinator.Proofs.Coordinator.Runs
import IngestCoordinator.Proofs.Coordinator.SafeSealing
import IngestCoordinator.Proofs.Coordinator.Stages
import IngestCoordinator.Proofs.Coordinator.Statistics
import IngestCoordinator.Proofs.Coordinator.Steady
import IngestCoordinator.Proofs.Coordinator.Totals
import IngestCoordinator.Proofs.Coordinator.Writing
import IngestCoordinator.Proofs.Heartbeats
import IngestCoordinator.Proofs.Json.Objects
import IngestCoordinator.Proofs.Json.Reading
import IngestCoordinator.Proofs.Json.Records
import IngestCoordinator.Proofs.KeyedLocks
import IngestCoordinator.Proofs.Operation
import IngestCoordinator.Proofs.Ownership
import IngestCoordinator.Proofs.Path
import IngestCoordinator.Proofs.Records
import IngestCoordinator.Proofs.Registry
import IngestCoordinator.Proofs.RoundTrips
import IngestCoordinator.Proofs.Segment.Changes
import IngestCoordinator.Proofs.Segment.Decoding
import IngestCoordinator.Proofs.Segment.Exhaustion
import IngestCoordinator.Proofs.Segment.Gains
import IngestCoordinator.Proofs.Segment.History
import IngestCoordinator.Proofs.Segment.Ledger
import IngestCoordinator.Proofs.Segment.Lifecycle
import IngestCoordinator.Proofs.Segment.Statistics
import IngestCoordinator.Proofs.Settings.Precedence
import IngestCoordinator.Proofs.SortedMap
import IngestCoordinator.Proofs.Store.Answers
import IngestCoordinator.Proofs.Store.Calls
import IngestCoordinator.Proofs.Store.Clocks
import IngestCoordinator.Proofs.Store.Coherence
import IngestCoordinator.Proofs.Store.Guarded
import IngestCoordinator.Proofs.Store.Keys
import IngestCoordinator.Proofs.Store.Loading
import IngestCoordinator.Proofs.Store.Mirrors
import IngestCoordinator.Proofs.Store.Reopening
import IngestCoordinator.Proofs.Store.Scan
import IngestCoordinator.Proofs.Store.Sequencer
import IngestCoordinator.Proofs.Store.Statements
import IngestCoordinator.Proofs.Store.Traffic
import IngestCoordinator.Proofs.Store.Turns
import IngestCoordinator.Proofs.Store.Uniqueness
import IngestCoordinator.Proofs.Store.WriteThrough
import IngestCoordinator.Proofs.Subscribers
import IngestCoordinator.Proofs.TickOrder
import IngestCoordinator.Proofs.Utf8
import IngestCoordinator.Proofs.Views
import IngestCoordinator.Proofs.Watermark
import IngestCoordinator.Proofs.Words
import IngestCoordinator.Registry
import IngestCoordinator.Saturating
import IngestCoordinator.Segment.Basic
import IngestCoordinator.Segment.Edit
import IngestCoordinator.Segment.Key
import IngestCoordinator.Segment.Ledger
import IngestCoordinator.Segment.Lifecycle
import IngestCoordinator.Segment.State
import IngestCoordinator.Settings.Basic
import IngestCoordinator.Settings.Environment
import IngestCoordinator.Settings.Format.Ini
import IngestCoordinator.Settings.Format.Json
import IngestCoordinator.Settings.Format.Json5
import IngestCoordinator.Settings.Format.Ron
import IngestCoordinator.Settings.Format.Toml
import IngestCoordinator.Settings.Format.Toml.Table
import IngestCoordinator.Settings.Format.Toml.Value
import IngestCoordinator.Settings.Format.Yaml
import IngestCoordinator.Settings.Format.Yaml.Layout
import IngestCoordinator.Settings.Format.Yaml.Node
import IngestCoordinator.Settings.Format.Yaml.Plain
import IngestCoordinator.Settings.Format.Yaml.Property
import IngestCoordinator.Settings.Format.Yaml.Text
import IngestCoordinator.Settings.Format.Yaml.Token
import IngestCoordinator.Settings.Format.Yaml.Tokens
import IngestCoordinator.Settings.Load
import IngestCoordinator.Settings.Path
import IngestCoordinator.Settings.Source
import IngestCoordinator.SortedMap
import IngestCoordinator.Status
import IngestCoordinator.Store.Backend
import IngestCoordinator.Store.Database
import IngestCoordinator.Store.Guarded
import IngestCoordinator.Store.Keys
import IngestCoordinator.Store.Metadata
import IngestCoordinator.Store.Sequencer
import IngestCoordinator.Store.Sharing
import IngestCoordinator.Text.Blank
import IngestCoordinator.Text.Bytes
import IngestCoordinator.Text.Calendar
import IngestCoordinator.Text.Decimal
import IngestCoordinator.Text.Letter
import IngestCoordinator.Text.Reader
import IngestCoordinator.Text.Real
import IngestCoordinator.Timestamp
