import IndexFeed.Batch.Accumulator
import IndexFeed.Batch.Entry
import IndexFeed.Config.Environment
import IndexFeed.Config.Inline
import IndexFeed.Config.Layers
import IndexFeed.Config.Merge
import IndexFeed.Config.Path
import IndexFeed.Config.Reserved
import IndexFeed.Config.Source
import IndexFeed.Decimal.Literal
import IndexFeed.Decimal.Shortest
import IndexFeed.Decimal.Style
import IndexFeed.Event.Basic
import IndexFeed.Event.Datatype
import IndexFeed.Event.Opcode
import IndexFeed.Json.Input
import IndexFeed.Json.Printer
import IndexFeed.Json.Reader
import IndexFeed.Json.Scalar
import IndexFeed.Json.Skip
import IndexFeed.Json.Value
import IndexFeed.Key.Buffer
import IndexFeed.Key.Computed
import IndexFeed.Key.Emitted
import IndexFeed.Key.Evaluator
import IndexFeed.Key.Projection
import IndexFeed.Lifecycle
import IndexFeed.Main
import IndexFeed.Proofs.Batch.Grouping
import IndexFeed.Proofs.Batch.History
import IndexFeed.Proofs.Config.InlineTexts
import IndexFeed.Proofs.Config.Merge
import IndexFeed.Proofs.Config.Overrides
import IndexFeed.Proofs.Config.Precedence
import IndexFeed.Proofs.Config.Prefixes
import IndexFeed.Proofs.Config.Sources
import IndexFeed.Proofs.Config.VariableNames
import IndexFeed.Proofs.Decimal.Style
import IndexFeed.Proofs.Json.Brackets
import IndexFeed.Proofs.Json.Canonical
import IndexFeed.Proofs.Json.Integers
import IndexFeed.Proofs.Json.Levels
import IndexFeed.Proofs.Json.Numbers
import IndexFeed.Proofs.Json.OneLine
import IndexFeed.Proofs.Json.Reading
import IndexFeed.Proofs.Json.Rearranged
import IndexFeed.Proofs.Json.RoundTrip
import IndexFeed.Proofs.Json.Scalars
import IndexFeed.Proofs.Json.SpelledNumbers
import IndexFeed.Proofs.Json.SpelledStrings
import IndexFeed.Proofs.Json.SpelledValues
import IndexFeed.Proofs.Json.Spelling
import IndexFeed.Proofs.Json.Strings
import IndexFeed.Proofs.Key.Buffers
import IndexFeed.Proofs.Key.Decoded
import IndexFeed.Proofs.Key.Preserved
import IndexFeed.Proofs.Key.Projected
import IndexFeed.Proofs.Key.Rewritten
import IndexFeed.Proofs.Replay.BadRecord
import IndexFeed.Proofs.Replay.Balance
import IndexFeed.Proofs.Replay.Cadence
import IndexFeed.Proofs.Replay.Delivery
import IndexFeed.Proofs.Replay.Dispatch
import IndexFeed.Proofs.Replay.FeedVersions
import IndexFeed.Proofs.Replay.Framing
import IndexFeed.Proofs.Replay.Log
import IndexFeed.Proofs.Replay.MissingFields
import IndexFeed.Proofs.Replay.OutputText
import IndexFeed.Proofs.Replay.Partitions
import IndexFeed.Proofs.Replay.RecordedBodies
import IndexFeed.Proofs.Replay.RecordedKeys
import IndexFeed.Proofs.Replay.RecordedLines
import IndexFeed.Proofs.Replay.RouterPart
import IndexFeed.Proofs.Replay.Stamps
import IndexFeed.Proofs.Replay.TextFields
import IndexFeed.Proofs.Replay.WrongTypes
import IndexFeed.Proofs.Routing.Accounting
import IndexFeed.Proofs.Routing.DecisionTable
import IndexFeed.Proofs.Routing.Desk
import IndexFeed.Proofs.Routing.OnePerEndpoint
import IndexFeed.Proofs.Routing.Ownership
import IndexFeed.Proofs.Routing.Plan
import IndexFeed.Proofs.Routing.Questions
import IndexFeed.Proofs.Routing.Retention
import IndexFeed.Proofs.Schema.FieldByField
import IndexFeed.Proofs.Schema.Misfits
import IndexFeed.Proofs.Schema.OtherEntries
import IndexFeed.Proofs.Schema.Records
import IndexFeed.Proofs.Schema.TwoReadings
import IndexFeed.Proofs.Text.Utf8
import IndexFeed.Proofs.Topology.Shares
import IndexFeed.Replay.Command
import IndexFeed.Replay.Output
import IndexFeed.Replay.RecordedEvent
import IndexFeed.Replay.Recording
import IndexFeed.Replay.Run
import IndexFeed.Replay.Settings
import IndexFeed.Replay.Setup
import IndexFeed.Replay.Stats
import IndexFeed.Replay.Worker
import IndexFeed.Routing.Counters
import IndexFeed.Routing.Decision
import IndexFeed.Routing.Definition
import IndexFeed.Routing.Handle
import IndexFeed.Routing.Resolver
import IndexFeed.Routing.Router
import IndexFeed.Routing.Version
import IndexFeed.Schema.Datum
import IndexFeed.Schema.Fault
import IndexFeed.Schema.Form
import IndexFeed.Schema.FromDatum
import IndexFeed.Schema.FromText
import IndexFeed.Text.Blank
import IndexFeed.Text.Digits
import IndexFeed.Text.Hidden
import IndexFeed.Text.Quoted
import IndexFeed.Text.Uppercase
import IndexFeed.Text.Utf8
import IndexFeed.Topology.Hash
import IndexFeed.Topology.Ring
import IndexFeed.Yaml.Cursor
import IndexFeed.Yaml.Document
import IndexFeed.Yaml.Layout
import IndexFeed.Yaml.Node
import IndexFeed.Yaml.Node.Grammar
import IndexFeed.Yaml.PlainValue
import IndexFeed.Yaml.ScalarText
import IndexFeed.Yaml.Tag
import IndexFeed.Yaml.Token
