import IouAi.Foundations.Checks
import IouAi.Foundations.HeadCode
import IouAi.Harness.Codec
import IouAi.Harness.RoundTrip
import IouAi.Harness.Native
import IouAi.Harness.Repro
import IouAi.Harness.NativeRun
import IouAi.Harness.Lockstep
import IouAi.Contract.Compiler
import IouAi.Contract.Build
import IouAi.Contract.Compilation
import IouAi.Contract.Validator
import IouAi.Contract.Production
import IouAi.Contract.NativeRules
import IouAi.Contract.BufferGroups
import IouAi.Budget.Pricing
import IouAi.Foundations.WindowSum
import IouAi.Budget.Account
import IouAi.Budget.Limits
import IouAi.Foundations.IsoTime
import IouAi.Foundations.Json
import IouAi.Wire.Patterns
import IouAi.Wire.Events
import IouAi.Relay.Validate
import IouAi.Budget.Status
import IouAi.Wire.Projection
import IouAi.Relay.Admission
import IouAi.Foundations.Threads
import IouAi.Relay.Render
import IouAi.Relay.Store
import IouAi.Relay.Deployment
import IouAi.Relay.Handlers
import IouAi.Relay.Decisions
import IouAi.Relay.Deliveries
import IouAi.Wire.Prompts
import IouAi.Contract.Rules
import IouAi.Contract.Review
import IouAi.Authority.Artifacts
import IouAi.Authority.Envelopes
import IouAi.Authority.Reports
import IouAi.Authority.Bridge
import IouAi.Authority.Decisions
import IouAi.Foundations.Files
import IouAi.Foundations.JsonNesting
import IouAi.Wire.Texts
import IouAi.Storage.CreateOnly
import IouAi.Storage.Stores
import IouAi.Storage.Locks
import IouAi.Storage.Imports
import IouAi.Budget.Reservations
import IouAi.Harness.FixedBuffers
import IouAi.Storage.Sequential
import IouAi.Storage.SequentialImports
import IouAi.Authority.Canary
import IouAi.Relay.Agreement
import IouAi.Relay.Operations
import IouAi.Relay.Resubmission
import IouAi.Budget.Closings
import IouAi.Pipeline.Planner
import IouAi.Pipeline.Failover
import IouAi.Pipeline.Triggers
import IouAi.Pipeline.Scheduling
import IouAi.Foundations.JsonText
import IouAi.Foundations.Intervals
import IouAi.Wire.Projector
import IouAi.Wire.Counters
import IouAi.Foundations.IsoOrder
import IouAi.Budget.Reconciliation
import IouAi.Authority.Processing
import IouAi.Authority.Retirement
import IouAi.Authority.Isolation
import IouAi.Foundations.Newest
import IouAi.Pipeline.Feedback
import IouAi.Lkml.Diff
import IouAi.Contract.Refusals
import IouAi.Pipeline.CorpusProfile
import IouAi.Pipeline.CorpusEvidence
import IouAi.Wire.Delivery
import IouAi.Foundations.StableSort
import IouAi.Pipeline.Packet
import IouAi.Pipeline.Material
import IouAi.Foundations.Statistics
import IouAi.Pipeline.PacketBuild
import IouAi.Foundations.JsonSchema
import IouAi.Schemas.Adaptation
import IouAi.Foundations.Percent
import IouAi.Lkml.Urls
import IouAi.Lkml.Collector
import IouAi.Lkml.Cursor
import IouAi.Authority.Promotion
import IouAi.Authority.Publication
import IouAi.Authority.Promotions
import IouAi.Authority.Outcomes
import IouAi.Authority.Passes
import IouAi.Relay.Pages
import IouAi.Storage.Crashes
import IouAi.Relay.Polling
import IouAi.Relay.Exchanges
import IouAi.Relay.Signing
import IouAi.Relay.Success
