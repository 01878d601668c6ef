import Tributary.Apply.Batch
import Tributary.Apply.Failure
import Tributary.Apply.Prepare
import Tributary.Apply.Session
import Tributary.Apply.Startup
import Tributary.Apply.Upsert
import Tributary.Clock.Hlc
import Tributary.Clock.Instant
import Tributary.Clock.Span
import Tributary.Clock.Timestamp
import Tributary.Fault.Basic
import Tributary.Fault.Catalogue
import Tributary.Fault.Remedy
import Tributary.Json.Literal
import Tributary.Json.Printer
import Tributary.Json.Reader
import Tributary.Json.Record
import Tributary.Keyed
import Tributary.Merge.Operation
import Tributary.Merge.Order
import Tributary.Merge.Resolve
import Tributary.Merge.Standard
import Tributary.Metric
import Tributary.Mutation.Basic
import Tributary.Mutation.Changefeed
import Tributary.Number.Basic
import Tributary.Number.Binary64
import Tributary.Number.Extended
import Tributary.Number.Power
import Tributary.Number.Shortest
import Tributary.Outcome
import Tributary.Proofs.Apply.Accounting
import Tributary.Proofs.Apply.Alone
import Tributary.Proofs.Apply.Attempts
import Tributary.Proofs.Apply.Attribution
import Tributary.Proofs.Apply.BeforeImages
import Tributary.Proofs.Apply.Calls
import Tributary.Proofs.Apply.Conformance
import Tributary.Proofs.Apply.Containment
import Tributary.Proofs.Apply.Contention
import Tributary.Proofs.Apply.Convergence
import Tributary.Proofs.Apply.DeadLetters
import Tributary.Proofs.Apply.Deadlines
import Tributary.Proofs.Apply.Deletions
import Tributary.Proofs.Apply.Deliveries
import Tributary.Proofs.Apply.Discards
import Tributary.Proofs.Apply.Dispatches
import Tributary.Proofs.Apply.Entries
import Tributary.Proofs.Apply.Expressions
import Tributary.Proofs.Apply.Footprint
import Tributary.Proofs.Apply.Locality
import Tributary.Proofs.Apply.MergeRecord
import Tributary.Proofs.Apply.MergeVerdict
import Tributary.Proofs.Apply.Numbering
import Tributary.Proofs.Apply.OwnTable
import Tributary.Proofs.Apply.Panics
import Tributary.Proofs.Apply.Planning
import Tributary.Proofs.Apply.Readiness
import Tributary.Proofs.Apply.Redelivery
import Tributary.Proofs.Apply.Refinement
import Tributary.Proofs.Apply.Rejection
import Tributary.Proofs.Apply.Renumbering
import Tributary.Proofs.Apply.Replay
import Tributary.Proofs.Apply.RowActions
import Tributary.Proofs.Apply.RowEffects
import Tributary.Proofs.Apply.Schedule
import Tributary.Proofs.Apply.Sequential
import Tributary.Proofs.Apply.Shapes
import Tributary.Proofs.Apply.Startup
import Tributary.Proofs.Apply.Stopped
import Tributary.Proofs.Apply.Views
import Tributary.Proofs.Apply.Watching
import Tributary.Proofs.Clock.Spelling
import Tributary.Proofs.Fault.Containment
import Tributary.Proofs.Json.Unambiguous
import Tributary.Proofs.Merge.Fallback
import Tributary.Proofs.Merge.Given
import Tributary.Proofs.Merge.Race
import Tributary.Proofs.Merge.Standard
import Tributary.Proofs.Merge.Ties
import Tributary.Proofs.Merge.Transitivity
import Tributary.Proofs.Merge.ValueOrder
import Tributary.Proofs.Merge.Verdict
import Tributary.Proofs.Mutation.Lines
import Tributary.Proofs.Number.Denotation
import Tributary.Proofs.Number.Rounding
import Tributary.Proofs.Number.Shortest
import Tributary.Proofs.Routing.Dispatch
import Tributary.Proofs.Routing.Levels
import Tributary.Proofs.Routing.Limit
import Tributary.Proofs.Routing.Places
import Tributary.Proofs.Routing.Queue
import Tributary.Proofs.Routing.Reattachment
import Tributary.Proofs.Row.Conformance
import Tributary.Proofs.Row.Deadline
import Tributary.Proofs.Row.EqualKeys
import Tributary.Proofs.Row.Extras
import Tributary.Proofs.Row.Integral
import Tributary.Proofs.Row.Key
import Tributary.Proofs.Row.NormalForm
import Tributary.Proofs.Script.Registration
import Tributary.Proofs.Script.Reports
import Tributary.Proofs.Settings.Updates
import Tributary.Proofs.Store.History
import Tributary.Proofs.Store.Shared
import Tributary.Proofs.Store.Versions
import Tributary.Proofs.Table.Spelling
import Tributary.Proofs.Text.Numeral
import Tributary.Proofs.Value.Equality
import Tributary.Proofs.Value.Integral
import Tributary.Routing.Nesting
import Tributary.Routing.Route
import Tributary.Row.Deadline
import Tributary.Row.Key
import Tributary.Row.Locks
import Tributary.Row.Mapping
import Tributary.Script.Builder
import Tributary.Script.Function
import Tributary.Script.Invoke
import Tributary.Script.Recipe
import Tributary.Script.Registry
import Tributary.Script.Trace
import Tributary.Settings.ConfigFile
import Tributary.Settings.Environment
import Tributary.Settings.Load
import Tributary.Settings.Options
import Tributary.Settings.Path
import Tributary.Settings.Setting
import Tributary.Store.Basic
import Tributary.Store.Contended
import Tributary.Store.Memory
import Tributary.Table.Name
import Tributary.Table.Schema
import Tributary.Text.Blank
import Tributary.Text.CaseTable
import Tributary.Text.Lowercase
import Tributary.Text.Numeral
import Tributary.Text.Quoted
import Tributary.Text.Unprintable
import Tributary.Uuid
import Tributary.Value.Basic
import Tributary.Value.Document
import Tributary.Yaml.Block
import Tributary.Yaml.Cursor
import Tributary.Yaml.Layout
import Tributary.Yaml.Node
import Tributary.Yaml.Plain
import Tributary.Yaml.Quoted
import Tributary.Yaml.Stream
import Tributary.Yaml.Token
