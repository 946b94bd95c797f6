import JobLedger.Decimal.Digits
import JobLedger.Decimal.Double
import JobLedger.Decimal.Shortest
import JobLedger.Dialogue
import JobLedger.Job.Codec
import JobLedger.Job.Error
import JobLedger.Job.Id
import JobLedger.Job.Query
import JobLedger.Job.Record
import JobLedger.Job.State
import JobLedger.Job.View
import JobLedger.Json.Document
import JobLedger.Json.Lexer
import JobLedger.Json.Reader
import JobLedger.Json.Token
import JobLedger.Json.Value
import JobLedger.Lifecycle.Context
import JobLedger.Lifecycle.Host
import JobLedger.Lifecycle.Manager
import JobLedger.Lifecycle.Request
import JobLedger.Lifecycle.Schedule
import JobLedger.Lifecycle.Sweep
import JobLedger.Lifecycle.Work
import JobLedger.Main
import JobLedger.Postgres.Binary
import JobLedger.Postgres.Row
import JobLedger.Postgres.Session
import JobLedger.Postgres.Statement
import JobLedger.Postgres.Store
import JobLedger.Postgres.Value
import JobLedger.Proofs.AbortedWork
import JobLedger.Proofs.AbsorbedPanics
import JobLedger.Proofs.Agreement
import JobLedger.Proofs.Attempts
import JobLedger.Proofs.CalendarDays
import JobLedger.Proofs.CallContract
import JobLedger.Proofs.Clients
import JobLedger.Proofs.CodecLaws
import JobLedger.Proofs.CommandContract
import JobLedger.Proofs.Commands
import JobLedger.Proofs.Completion
import JobLedger.Proofs.Conduct
import JobLedger.Proofs.Contracts
import JobLedger.Proofs.DatabaseRows
import JobLedger.Proofs.DeadlineEnforcement
import JobLedger.Proofs.Deadlines
import JobLedger.Proofs.Digits
import JobLedger.Proofs.Doubles
import JobLedger.Proofs.EndedRecords
import JobLedger.Proofs.FailedCreations
import JobLedger.Proofs.FailedOperations
import JobLedger.Proofs.FiredSignals
import JobLedger.Proofs.Footprints
import JobLedger.Proofs.FreeJson
import JobLedger.Proofs.HexDigits
import JobLedger.Proofs.HostAnswers
import JobLedger.Proofs.IdentifierSpellings
import JobLedger.Proofs.IdentifierText
import JobLedger.Proofs.IndependentJobs
import JobLedger.Proofs.IndexCapacity
import JobLedger.Proofs.InstantText
import JobLedger.Proofs.Interference
import JobLedger.Proofs.Interleaving
import JobLedger.Proofs.JobFootprints
import JobLedger.Proofs.JobIsolation
import JobLedger.Proofs.KeptRecords
import JobLedger.Proofs.KeyedMemory
import JobLedger.Proofs.Ledger
import JobLedger.Proofs.LiveEntries
import JobLedger.Proofs.LoneClients
import JobLedger.Proofs.MarksInPlace
import JobLedger.Proofs.Mirror
import JobLedger.Proofs.MissedSignals
import JobLedger.Proofs.Numerals
import JobLedger.Proofs.Operations
import JobLedger.Proofs.Outcomes
import JobLedger.Proofs.OverdueJobs
import JobLedger.Proofs.Pages
import JobLedger.Proofs.PrefixIsolation
import JobLedger.Proofs.QueryOrder
import JobLedger.Proofs.ReadJson
import JobLedger.Proofs.RecordContracts
import JobLedger.Proofs.RecordLifetimes
import JobLedger.Proofs.RecordMarks
import JobLedger.Proofs.RecordText
import JobLedger.Proofs.RedisCalls
import JobLedger.Proofs.RedisKeys
import JobLedger.Proofs.Refinement
import JobLedger.Proofs.RefusedUpdates
import JobLedger.Proofs.Replies
import JobLedger.Proofs.Requests
import JobLedger.Proofs.RereadNumbers
import JobLedger.Proofs.RoundTrip
import JobLedger.Proofs.Runner
import JobLedger.Proofs.Scenes
import JobLedger.Proofs.ScheduleRuns
import JobLedger.Proofs.ScheduleTurns
import JobLedger.Proofs.SetResults
import JobLedger.Proofs.Settings
import JobLedger.Proofs.SharedServer
import JobLedger.Proofs.SharedTable
import JobLedger.Proofs.Signalling
import JobLedger.Proofs.Signals
import JobLedger.Proofs.StatusViews
import JobLedger.Proofs.StoredRecords
import JobLedger.Proofs.Succession
import JobLedger.Proofs.SweepAccounts
import JobLedger.Proofs.SweptMemory
import JobLedger.Proofs.TrackedJobs
import JobLedger.Proofs.Traffic
import JobLedger.Proofs.TrimmedText
import JobLedger.Proofs.Undisturbed
import JobLedger.Proofs.UnreadableRecords
import JobLedger.Proofs.Visibility
import JobLedger.Proofs.WorkCourse
import JobLedger.Proofs.Worlds
import JobLedger.Proofs.WrittenJson
import JobLedger.Redis.Database
import JobLedger.Redis.Server
import JobLedger.Redis.Store
import JobLedger.Service.Config
import JobLedger.Service.Dotenv
import JobLedger.Service.Environment
import JobLedger.Service.LogFilter
import JobLedger.Service.Logging
import JobLedger.Service.Program
import JobLedger.Service.Running
import JobLedger.Store.Call
import JobLedger.Store.Disturbance
import JobLedger.Store.Error
import JobLedger.Store.Memory
import JobLedger.Table
import JobLedger.Text.Alphanumeric
import JobLedger.Text.Blank
import JobLedger.Text.Hex
import JobLedger.Text.Pattern
import JobLedger.Text.Pattern.Atom
import JobLedger.Text.Pattern.Bracket
import JobLedger.Text.Pattern.Options
import JobLedger.Text.Position
import JobLedger.Text.Printable
import JobLedger.Text.Quoted
import JobLedger.Text.Ranges
import JobLedger.Text.Slice
import JobLedger.Time.Calendar
import JobLedger.Time.Instant
import JobLedger.Time.Span
import JobLedger.Time.Text
