import SmellWatch.Agenda
import SmellWatch.ApiKey
import SmellWatch.Check
import SmellWatch.Check.Selection
import SmellWatch.CommandLine
import SmellWatch.Config.IncludeFilter
import SmellWatch.Config.Json
import SmellWatch.Config.Load
import SmellWatch.Config.Settings
import SmellWatch.Config.Text
import SmellWatch.Debouncer
import SmellWatch.Decimal.Binary
import SmellWatch.Decimal.Reading
import SmellWatch.Decimal.Shortest
import SmellWatch.Disk
import SmellWatch.Document
import SmellWatch.DocumentStore
import SmellWatch.Duration
import SmellWatch.Editor.Diagnostic
import SmellWatch.Editor.Frame
import SmellWatch.Editor.Message
import SmellWatch.Editor.Outbox
import SmellWatch.Editor.Session
import SmellWatch.Environment
import SmellWatch.Finding
import SmellWatch.FindingJson
import SmellWatch.Fingerprint
import SmellWatch.Glob.BytePattern
import SmellWatch.Glob.Glob
import SmellWatch.Glob.Token
import SmellWatch.GoSource.Patterns
import SmellWatch.GoSource.Stripped
import SmellWatch.Heuristics.Rule
import SmellWatch.Heuristics.Scan
import SmellWatch.Http.Exchange
import SmellWatch.Http.Head
import SmellWatch.Ignore.Rule
import SmellWatch.Ignore.Surroundings
import SmellWatch.Json.Printer
import SmellWatch.Json.Record
import SmellWatch.Json.Source
import SmellWatch.Json.Value
import SmellWatch.Main
import SmellWatch.ModelAnswer
import SmellWatch.Pacing.Acquire
import SmellWatch.Pacing.Pursuit
import SmellWatch.Pacing.RetryPolicy
import SmellWatch.Pacing.TokenBucket
import SmellWatch.Path
import SmellWatch.Path.Parts
import SmellWatch.Product
import SmellWatch.Program
import SmellWatch.Prompt
import SmellWatch.Proofs.Agenda
import SmellWatch.Proofs.Check.BusyService
import SmellWatch.Proofs.Check.Entries
import SmellWatch.Proofs.Check.Results
import SmellWatch.Proofs.Check.Selection
import SmellWatch.Proofs.Config.Fingerprint
import SmellWatch.Proofs.Config.Meaning
import SmellWatch.Proofs.Config.Overlay
import SmellWatch.Proofs.Config.Setting
import SmellWatch.Proofs.Debouncer.Run
import SmellWatch.Proofs.Debouncer.TrailingEdge
import SmellWatch.Proofs.Debouncer.Turns
import SmellWatch.Proofs.Decimal.Rounding
import SmellWatch.Proofs.Decimal.Shortest
import SmellWatch.Proofs.Decimal.Text
import SmellWatch.Proofs.Decimal.Widening
import SmellWatch.Proofs.DocumentStore
import SmellWatch.Proofs.Editor.Admission
import SmellWatch.Proofs.Editor.Adoption
import SmellWatch.Proofs.Editor.Conversation
import SmellWatch.Proofs.Editor.Deeds
import SmellWatch.Proofs.Editor.Frame
import SmellWatch.Proofs.Editor.Hearing
import SmellWatch.Proofs.Editor.Lifecycle
import SmellWatch.Proofs.Editor.Mirror
import SmellWatch.Proofs.Editor.Outbox
import SmellWatch.Proofs.Editor.Replies
import SmellWatch.Proofs.Editor.Serving
import SmellWatch.Proofs.Environment
import SmellWatch.Proofs.GoSource.Part
import SmellWatch.Proofs.GoSource.Place
import SmellWatch.Proofs.GoSource.RawLiteral
import SmellWatch.Proofs.Heuristics
import SmellWatch.Proofs.Heuristics.Course
import SmellWatch.Proofs.Heuristics.Functions
import SmellWatch.Proofs.Heuristics.Goroutines
import SmellWatch.Proofs.Heuristics.Hidden
import SmellWatch.Proofs.Heuristics.Ids
import SmellWatch.Proofs.Heuristics.Line
import SmellWatch.Proofs.Http.Body
import SmellWatch.Proofs.Json.ArrayText
import SmellWatch.Proofs.Json.KeyPath
import SmellWatch.Proofs.Json.Lexer
import SmellWatch.Proofs.Json.Merge
import SmellWatch.Proofs.Json.Nesting
import SmellWatch.Proofs.Json.Pretty
import SmellWatch.Proofs.Json.Quote
import SmellWatch.Proofs.ModelAnswer
import SmellWatch.Proofs.ModelAnswer.Places
import SmellWatch.Proofs.ModelAnswer.Validation
import SmellWatch.Proofs.Pacing.Backoff
import SmellWatch.Proofs.Pacing.Conservation
import SmellWatch.Proofs.Pacing.Course
import SmellWatch.Proofs.Pacing.Floats
import SmellWatch.Proofs.Pacing.Looks
import SmellWatch.Proofs.Pacing.Patience
import SmellWatch.Proofs.Pacing.Promptness
import SmellWatch.Proofs.Pacing.Pursuit
import SmellWatch.Proofs.Pacing.Refills
import SmellWatch.Proofs.Pacing.Retries
import SmellWatch.Proofs.Pacing.Run
import SmellWatch.Proofs.Path
import SmellWatch.Proofs.Prompt
import SmellWatch.Proofs.Queue.Cancellation
import SmellWatch.Proofs.Queue.Order
import SmellWatch.Proofs.Queue.Passage
import SmellWatch.Proofs.Queue.Run
import SmellWatch.Proofs.Queue.Settlement
import SmellWatch.Proofs.RemoteError
import SmellWatch.Proofs.Report
import SmellWatch.Proofs.RequestQueue
import SmellWatch.Proofs.Store.Cache
import SmellWatch.Proofs.Store.Flag
import SmellWatch.Proofs.Store.Isolation
import SmellWatch.Proofs.Store.Run
import SmellWatch.Proofs.Text.Blank
import SmellWatch.Proofs.Text.Lines
import SmellWatch.Proofs.Text.Lossy
import SmellWatch.Proofs.Text.Trimmed
import SmellWatch.Proofs.Text.Utf8
import SmellWatch.Proofs.Watch.Accounts
import SmellWatch.Proofs.Watch.Alarms
import SmellWatch.Proofs.Watch.Answers
import SmellWatch.Proofs.Watch.Attention
import SmellWatch.Proofs.Watch.Busy
import SmellWatch.Proofs.Watch.Calls
import SmellWatch.Proofs.Watch.Causes
import SmellWatch.Proofs.Watch.Confidence
import SmellWatch.Proofs.Watch.Contents
import SmellWatch.Proofs.Watch.Debouncers
import SmellWatch.Proofs.Watch.Docket
import SmellWatch.Proofs.Watch.Exclusion
import SmellWatch.Proofs.Watch.Freshness
import SmellWatch.Proofs.Watch.Losses
import SmellWatch.Proofs.Watch.Moves
import SmellWatch.Proofs.Watch.OneText
import SmellWatch.Proofs.Watch.Parting
import SmellWatch.Proofs.Watch.Passage
import SmellWatch.Proofs.Watch.Provenance
import SmellWatch.Proofs.Watch.Quiet
import SmellWatch.Proofs.Watch.Reconfiguration
import SmellWatch.Proofs.Watch.Redundancy
import SmellWatch.Proofs.Watch.Refusals
import SmellWatch.Proofs.Watch.Rehearsal
import SmellWatch.Proofs.Watch.Rest
import SmellWatch.Proofs.Watch.Run
import SmellWatch.Proofs.Watch.Saving
import SmellWatch.Proofs.Watch.Settings
import SmellWatch.Proofs.Watch.Speech
import SmellWatch.Proofs.Watch.Stay
import SmellWatch.Proofs.Watch.Stride
import SmellWatch.Proofs.Watch.Stride.Editor
import SmellWatch.Proofs.Watch.Stride.Kinds
import SmellWatch.Proofs.Watch.Stride.Settings
import SmellWatch.Proofs.Watch.Stride.Tasks
import SmellWatch.Proofs.Watch.Telling
import SmellWatch.Proofs.Watch.Terms
import SmellWatch.Proofs.Watch.Waiting
import SmellWatch.Proofs.Watch.Warnings
import SmellWatch.Provider
import SmellWatch.Rehearsal.Debouncing
import SmellWatch.Rehearsal.Queueing
import SmellWatch.Rehearsal.Serving
import SmellWatch.Rehearsal.Watching
import SmellWatch.RemoteError
import SmellWatch.RemoteService
import SmellWatch.RemoteService.Call
import SmellWatch.RemoteService.Completion
import SmellWatch.Report
import SmellWatch.RequestQueue
import SmellWatch.Severity
import SmellWatch.Sha256
import SmellWatch.Text.Blank
import SmellWatch.Text.Lines
import SmellWatch.Text.Quoted
import SmellWatch.Text.Scan
import SmellWatch.Text.Utf8
import SmellWatch.Text.WordCharacter
import SmellWatch.Toml.Lexeme
import SmellWatch.Toml.Reader
import SmellWatch.Url
import SmellWatch.Url.Host
import SmellWatch.Url.NameTable
import SmellWatch.Watch.Options
import SmellWatch.Watch.State
import SmellWatch.Watch.Step
