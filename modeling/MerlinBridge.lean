import MerlinBridge.Breaker
import MerlinBridge.Bridge.Client
import MerlinBridge.Bridge.Dispatch
import MerlinBridge.Bridge.Fault
import MerlinBridge.Bridge.Handle
import MerlinBridge.Bridge.State
import MerlinBridge.Bridge.Store
import MerlinBridge.Console.Command
import MerlinBridge.Console.Configure
import MerlinBridge.Console.Error
import MerlinBridge.Console.Flags
import MerlinBridge.Console.Job
import MerlinBridge.Console.Run
import MerlinBridge.Console.Screen
import MerlinBridge.Diagnostic
import MerlinBridge.Disk
import MerlinBridge.Document.File
import MerlinBridge.Document.Identifier
import MerlinBridge.Document.Range
import MerlinBridge.Document.Text
import MerlinBridge.Duration
import MerlinBridge.Editor
import MerlinBridge.Json.Basic
import MerlinBridge.Json.Number
import MerlinBridge.Json.Parser
import MerlinBridge.Json.Unescape
import MerlinBridge.Main
import MerlinBridge.Number.Binary64
import MerlinBridge.Number.Shortest
import MerlinBridge.OneShot
import MerlinBridge.Path
import MerlinBridge.Proofs.AffectedDocuments
import MerlinBridge.Proofs.Answer
import MerlinBridge.Proofs.AppliedErrors
import MerlinBridge.Proofs.BreakerHistory
import MerlinBridge.Proofs.CarriedPositions
import MerlinBridge.Proofs.ClosedDocument
import MerlinBridge.Proofs.Coherence
import MerlinBridge.Proofs.CompletedWord
import MerlinBridge.Proofs.ConfigurationLayers
import MerlinBridge.Proofs.Delivery
import MerlinBridge.Proofs.DurationText
import MerlinBridge.Proofs.Effect
import MerlinBridge.Proofs.EntryShapes
import MerlinBridge.Proofs.EnvelopeDecoding
import MerlinBridge.Proofs.ErrorsCommand
import MerlinBridge.Proofs.ExactDoubles
import MerlinBridge.Proofs.Failure
import MerlinBridge.Proofs.Findings
import MerlinBridge.Proofs.FirstCall
import MerlinBridge.Proofs.FollowedFile
import MerlinBridge.Proofs.Framing
import MerlinBridge.Proofs.Hover
import MerlinBridge.Proofs.Independence
import MerlinBridge.Proofs.NumberLiterals
import MerlinBridge.Proofs.Isolation
import MerlinBridge.Proofs.JsonGrammar
import MerlinBridge.Proofs.JsonStrings
import MerlinBridge.Proofs.Ledger
import MerlinBridge.Proofs.LinePositions
import MerlinBridge.Proofs.MalformedEntries
import MerlinBridge.Proofs.Navigation
import MerlinBridge.Proofs.Notes
import MerlinBridge.Proofs.Numerals
import MerlinBridge.Proofs.Outcome
import MerlinBridge.Proofs.Pairing
import MerlinBridge.Proofs.QueueRuns
import MerlinBridge.Proofs.QueueView
import MerlinBridge.Proofs.QuickFixBounds
import MerlinBridge.Proofs.QuickFixCommand
import MerlinBridge.Proofs.ReadingBack
import MerlinBridge.Proofs.ReplyShapes
import MerlinBridge.Proofs.Service
import MerlinBridge.Proofs.Shutdown
import MerlinBridge.Proofs.Signal
import MerlinBridge.Proofs.SpanRanges
import MerlinBridge.Proofs.TimeoutFlag
import MerlinBridge.Proofs.Trial
import MerlinBridge.Proofs.Turn
import MerlinBridge.Proofs.Utf8Pieces
import MerlinBridge.Proofs.WatchedDirectories
import MerlinBridge.Proofs.World
import MerlinBridge.Proofs.WrittenPlaces
import MerlinBridge.Protocol
import MerlinBridge.Queue
import MerlinBridge.QuickFix
import MerlinBridge.Reply.Envelope
import MerlinBridge.Reply.Payload
import MerlinBridge.Reply.Placement
import MerlinBridge.Reply.Span
import MerlinBridge.Request
import MerlinBridge.Settings.Config
import MerlinBridge.Settings.Environment
import MerlinBridge.Settings.Field
import MerlinBridge.Settings.File
import MerlinBridge.Settings.Json
import MerlinBridge.Settings.Toml
import MerlinBridge.Settings.Yaml
import MerlinBridge.Shell.Arithmetic
import MerlinBridge.Shell.Braces
import MerlinBridge.Shell.Environment
import MerlinBridge.Shell.Escape
import MerlinBridge.Shell.Fields
import MerlinBridge.Shell.Grammar
import MerlinBridge.Shell.Pattern
import MerlinBridge.Shell.Sign
import MerlinBridge.Shell.Token
import MerlinBridge.Shell.Value
import MerlinBridge.Shell.Word
import MerlinBridge.Text.Base64
import MerlinBridge.Text.Bytes
import MerlinBridge.Text.Decimal
import MerlinBridge.Text.Quoted
import MerlinBridge.Text.Utf8
import MerlinBridge.Toml.Statement
import MerlinBridge.Toml.Text
import MerlinBridge.Tool.Ansi
import MerlinBridge.Tool.Command
import MerlinBridge.Tool.Invocation
import MerlinBridge.Unicode.Case
import MerlinBridge.Unicode.Class
import MerlinBridge.Unicode.Printable
import MerlinBridge.Watch
import MerlinBridge.Yaml.Comment
import MerlinBridge.Yaml.Cursor
import MerlinBridge.Yaml.Meaning
import MerlinBridge.Yaml.Node
import MerlinBridge.Yaml.Portion
import MerlinBridge.Yaml.Scalar
import MerlinBridge.Yaml.Stream
import MerlinBridge.Yaml.Timestamp
import MerlinBridge.Yaml.Token
