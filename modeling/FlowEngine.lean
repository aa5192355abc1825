import FlowEngine.Api.Flows
import FlowEngine.Api.Request
import FlowEngine.Api.Routes
import FlowEngine.Api.Runs
import FlowEngine.Api.Stream
import FlowEngine.CommandLine.Arguments
import FlowEngine.CommandLine.Command
import FlowEngine.CommandLine.Files
import FlowEngine.CommandLine.Report
import FlowEngine.Comparison
import FlowEngine.Condition.Eval
import FlowEngine.Condition.Expr
import FlowEngine.Condition.Lexer
import FlowEngine.Condition.Token
import FlowEngine.Decimal.Layout
import FlowEngine.Decimal.Reading
import FlowEngine.Decimal.Shortest
import FlowEngine.Engine
import FlowEngine.Error
import FlowEngine.Event.Basic
import FlowEngine.Event.Bus
import FlowEngine.Execution.Basic
import FlowEngine.Execution.Context
import FlowEngine.Execution.Policy
import FlowEngine.Execution.Settings
import FlowEngine.Flow.Basic
import FlowEngine.Flow.Codec
import FlowEngine.Flow.Traversal
import FlowEngine.Flow.Validation
import FlowEngine.Gateway.Exchange
import FlowEngine.Gateway.Messages
import FlowEngine.Gateway.Records
import FlowEngine.Gateway.Settings
import FlowEngine.Http.Exchange
import FlowEngine.Http.MediaType
import FlowEngine.Http.Percent
import FlowEngine.Http.Target
import FlowEngine.Json.Basic
import FlowEngine.Json.Document
import FlowEngine.Json.Printer
import FlowEngine.Json.Reader
import FlowEngine.Json.Record
import FlowEngine.Ledger.Basic
import FlowEngine.Ledger.Record
import FlowEngine.Library.Basic
import FlowEngine.Library.Record
import FlowEngine.Main
import FlowEngine.Message
import FlowEngine.Message.Outbox
import FlowEngine.Node.Branch
import FlowEngine.Node.Context
import FlowEngine.Node.Record
import FlowEngine.Node.Registry
import FlowEngine.Node.Reshape
import FlowEngine.Node.Send
import FlowEngine.Node.Standard
import FlowEngine.Node.Trigger
import FlowEngine.Node.Wait
import FlowEngine.Program
import FlowEngine.Run.Basic
import FlowEngine.Run.Codec
import FlowEngine.Run.Report
import FlowEngine.Schedule.Expression
import FlowEngine.Schedule.Pattern
import FlowEngine.Schedule.Timetable
import FlowEngine.Store.Memory
import FlowEngine.Store.Order
import FlowEngine.Store.Query
import FlowEngine.Store.Sorting
import FlowEngine.Template
import FlowEngine.Text.Blank
import FlowEngine.Text.Bytes
import FlowEngine.Text.Letter
import FlowEngine.Text.Letter.Ranges
import FlowEngine.Text.Numeral
import FlowEngine.Text.Split
import FlowEngine.Time.Calendar
import FlowEngine.Time.Timestamp
import FlowEngine.Workbench.Fault
import FlowEngine.Workbench.Passing
import FlowEngine.Workbench.Probe
import FlowEngine.Workbench.Session
import FlowEngine.Workbench.World
import FlowEngine.Proofs.Workbench.Session
import FlowEngine.Proofs.Workbench.World
import FlowEngine.Proofs.Transcript
import FlowEngine.Proofs.Clock
import FlowEngine.Proofs.Traversal
import FlowEngine.Proofs.Json.Members
import FlowEngine.Proofs.Execution.Visit
import FlowEngine.Proofs.Execution.Itinerary
import FlowEngine.Proofs.Execution.Chronicle
import FlowEngine.Proofs.Execution.Essence
import FlowEngine.Proofs.Execution.Order
import FlowEngine.Proofs.Execution.Data
import FlowEngine.Proofs.Execution.Outcome
import FlowEngine.Proofs.Execution.Straight
import FlowEngine.Proofs.Execution.Outage
import FlowEngine.Proofs.Ledger.Record
import FlowEngine.Proofs.Reach
import FlowEngine.Proofs.Execution.Recording
import FlowEngine.Proofs.Execution.Branches
import FlowEngine.Proofs.Store.Observing
import FlowEngine.Proofs.Store.Order
import FlowEngine.Proofs.Json.Reading
import FlowEngine.Proofs.Store.Memory
import FlowEngine.Proofs.Ledger.Stored
import FlowEngine.Proofs.Condition.Filter
import FlowEngine.Proofs.Store.Served
import FlowEngine.Proofs.Store.Kept
import FlowEngine.Proofs.Ledger.Holding
import FlowEngine.Proofs.Ledger.Written
import FlowEngine.Proofs.Ledger.Growth
import FlowEngine.Proofs.Execution.Starting
import FlowEngine.Proofs.Execution.Archive
import FlowEngine.Proofs.Execution.Readback
import FlowEngine.Proofs.Condition.Grammar
import FlowEngine.Proofs.Store.History
import FlowEngine.Proofs.Flow.Reading
import FlowEngine.Proofs.Library.Stored
import FlowEngine.Proofs.Library.Saved
import FlowEngine.Proofs.Decimal.Float
import FlowEngine.Proofs.Json.Leading
import FlowEngine.Proofs.Store.Values
import FlowEngine.Proofs.Store.Pages
import FlowEngine.Proofs.Text
import FlowEngine.Proofs.Condition.Words
import FlowEngine.Proofs.Condition.Composition
import FlowEngine.Proofs.Flow.Validation
import FlowEngine.Proofs.Library.Listing
import FlowEngine.Proofs.Schedule.Timetable
import FlowEngine.Proofs.Schedule.Reload
import FlowEngine.Proofs.Event.Listening
import FlowEngine.Proofs.Node.Notices
import FlowEngine.Proofs.Execution.Story
import FlowEngine.Proofs.Interleaving
import FlowEngine.Proofs.Library.Versions
import FlowEngine.Proofs.Store.Replay
import FlowEngine.Proofs.Execution.Traffic
import FlowEngine.Proofs.Store.Sharing
import FlowEngine.Proofs.Execution.Calls
import FlowEngine.Proofs.Execution.Background
import FlowEngine.Proofs.Execution.SideBySide
import FlowEngine.Proofs.Execution.Terminal
import FlowEngine.Proofs.Template
import FlowEngine.Proofs.Json.Spelling
import FlowEngine.Proofs.Json.Numeral
import FlowEngine.Proofs.Json.Finding
import FlowEngine.Proofs.Json.Grammar
import FlowEngine.Proofs.Json.Filling
import FlowEngine.Proofs.Node.Payload
import FlowEngine.Proofs.Library.Catalogue
import FlowEngine.Proofs.Json.Tidy
import FlowEngine.Proofs.Flow.Decoding
import FlowEngine.Proofs.Execution.Sparing
import FlowEngine.Proofs.Store.Beside
import FlowEngine.Proofs.Library.Shared
import FlowEngine.Proofs.Api.Service
import FlowEngine.Proofs.Api.Requests
import FlowEngine.Proofs.Api.Archived
import FlowEngine.Proofs.Api.Canvases
import FlowEngine.Proofs.Json.Compact
import FlowEngine.Proofs.Template.Settled
import FlowEngine.Proofs.Json.Splicing
import FlowEngine.Proofs.Node.Reshaping
import FlowEngine.Proofs.Flow.Shapes
import FlowEngine.Proofs.Template.Pieces
import FlowEngine.Proofs.Decimal.Value
import FlowEngine.Proofs.Decimal.Rounding
import FlowEngine.Proofs.Condition.Numbers
import FlowEngine.Proofs.Condition.Inequality
import FlowEngine.Proofs.Condition.Paths
import FlowEngine.Proofs.Api.Hooks
import FlowEngine.Proofs.Api.Revisions
import FlowEngine.Proofs.Execution.Timing
import FlowEngine.Proofs.BreadthFirst
import FlowEngine.Proofs.Store.Paging
import FlowEngine.Proofs.Condition.Lexicon
import FlowEngine.Proofs.Time.Calendar
import FlowEngine.Proofs.Time.Reading
import FlowEngine.Proofs.Ledger.Hosted
import FlowEngine.Proofs.Run.Lifecycle
import FlowEngine.Proofs.Node.Registry
import FlowEngine.Proofs.Execution.Known
import FlowEngine.Proofs.Http.Percent
import FlowEngine.Proofs.Http.Target
import FlowEngine.Proofs.Gateway.Addressing
import FlowEngine.Proofs.Gateway.Replies
import FlowEngine.Proofs.Api.Missing
import FlowEngine.Proofs.Flow.Stepwise
import FlowEngine.Proofs.Schedule.Expression
