import FlowControl.Backoff
import FlowControl.Breaker
import FlowControl.Breaker.Config
import FlowControl.Breaker.Event
import FlowControl.Breaker.Window
import FlowControl.Call.Event
import FlowControl.Call.Retry
import FlowControl.Call.Service
import FlowControl.Call.Timeout
import FlowControl.Call.Wrapper
import FlowControl.Classifier
import FlowControl.Clock
import FlowControl.Decimal.Binary
import FlowControl.Decimal.Layout
import FlowControl.Decimal.Shortest
import FlowControl.Duration
import FlowControl.Duration.Human
import FlowControl.Duration.Text
import FlowControl.Event
import FlowControl.Failure
import FlowControl.Jitter
import FlowControl.Json.Fault
import FlowControl.Json.Leaf
import FlowControl.Json.Lexeme
import FlowControl.Json.Record
import FlowControl.Json.Skip
import FlowControl.Json.Writer
import FlowControl.Limiter.Bucket
import FlowControl.Limiter.Config
import FlowControl.Limiter.Error
import FlowControl.Limiter.Event
import FlowControl.Limiter.Gate
import FlowControl.Limiter.Key
import FlowControl.Limiter.Lock
import FlowControl.Limiter.Program
import FlowControl.Limiter.Registered
import FlowControl.Limiter.Registry
import FlowControl.Limiter.StateText
import FlowControl.Limiter.Token
import FlowControl.Limiter.TokenState
import FlowControl.Proofs.Breaker.Circuit
import FlowControl.Proofs.Breaker.ClosedWindow
import FlowControl.Proofs.Breaker.Generations
import FlowControl.Proofs.Breaker.HalfOpenTally
import FlowControl.Proofs.Breaker.LatePermits
import FlowControl.Proofs.Breaker.Observing
import FlowControl.Proofs.Breaker.Opening
import FlowControl.Proofs.Breaker.Operations
import FlowControl.Proofs.Breaker.Phases
import FlowControl.Proofs.Breaker.Slots
import FlowControl.Proofs.Breaker.WindowBounds
import FlowControl.Proofs.Call.AttemptCount
import FlowControl.Proofs.Call.ClassifierChanges
import FlowControl.Proofs.Call.Doubling
import FlowControl.Proofs.Call.GuardedCall
import FlowControl.Proofs.Call.InvokeProgram
import FlowControl.Proofs.Call.Readiness
import FlowControl.Proofs.Call.RetrySchedule
import FlowControl.Proofs.Call.Settlement
import FlowControl.Proofs.Duration.HumanNotation
import FlowControl.Proofs.Json.Grammar
import FlowControl.Proofs.Json.Member
import FlowControl.Proofs.Json.Natural
import FlowControl.Proofs.Json.Objects
import FlowControl.Proofs.Json.Overlay
import FlowControl.Proofs.Json.Reading
import FlowControl.Proofs.Json.Skipping
import FlowControl.Proofs.Json.Writing
import FlowControl.Proofs.Limiter.BusyBuckets
import FlowControl.Proofs.Limiter.CancelledTakes
import FlowControl.Proofs.Limiter.CheckedRefill
import FlowControl.Proofs.Limiter.Chronicle
import FlowControl.Proofs.Limiter.ClockSteps
import FlowControl.Proofs.Limiter.Config
import FlowControl.Proofs.Limiter.DueTokens
import FlowControl.Proofs.Limiter.Expiry
import FlowControl.Proofs.Limiter.FailingTakes
import FlowControl.Proofs.Limiter.Fleet
import FlowControl.Proofs.Limiter.FreshBuckets
import FlowControl.Proofs.Limiter.GateProgram
import FlowControl.Proofs.Limiter.GatedService
import FlowControl.Proofs.Limiter.InTurn
import FlowControl.Proofs.Limiter.KeyHistory
import FlowControl.Proofs.Limiter.Linearizable
import FlowControl.Proofs.Limiter.LiveRegistry
import FlowControl.Proofs.Limiter.LockExclusion
import FlowControl.Proofs.Limiter.LockHistory
import FlowControl.Proofs.Limiter.LockSafety
import FlowControl.Proofs.Limiter.LockWaiting
import FlowControl.Proofs.Limiter.OneBucket
import FlowControl.Proofs.Limiter.Polling
import FlowControl.Proofs.Limiter.RateBound
import FlowControl.Proofs.Limiter.Reclamation
import FlowControl.Proofs.Limiter.Refill
import FlowControl.Proofs.Limiter.Registry
import FlowControl.Proofs.Limiter.ResetsApart
import FlowControl.Proofs.Limiter.RetryAfter
import FlowControl.Proofs.Limiter.SeparateKeys
import FlowControl.Proofs.Limiter.SerialPlay
import FlowControl.Proofs.Limiter.StateText
import FlowControl.Proofs.Limiter.Stays
import FlowControl.Proofs.Limiter.StoreKeys
import FlowControl.Proofs.Limiter.StoredState
import FlowControl.Proofs.Limiter.Surroundings
import FlowControl.Proofs.Limiter.SweepTimes
import FlowControl.Proofs.Limiter.TakeAccounts
import FlowControl.Proofs.Limiter.TakeProgram
import FlowControl.Proofs.Limiter.TakeStages
import FlowControl.Proofs.Limiter.TokenLedger
import FlowControl.Proofs.Limiter.Turns
import FlowControl.Proofs.Limiter.VainTakes
import FlowControl.Proofs.Limiter.VisitHistory
import FlowControl.Proofs.Limiter.Visits
import FlowControl.Proofs.Routine
import FlowControl.Proofs.Settings.Overlay
import FlowControl.Proofs.Store.Contract
import FlowControl.Proofs.Store.History
import FlowControl.Proofs.Store.Live
import FlowControl.Proofs.Store.RedisServer
import FlowControl.Proofs.Timeline
import FlowControl.Proofs.Transcript
import FlowControl.Routine
import FlowControl.Scenario.Attempt
import FlowControl.Scenario.BreakerScene
import FlowControl.Scenario.CallScene
import FlowControl.Scenario.Calls
import FlowControl.Scenario.LimitScene
import FlowControl.Scenario.Limits
import FlowControl.Settings
import FlowControl.Settings.Build
import FlowControl.Settings.Text
import FlowControl.Status
import FlowControl.Store.Call
import FlowControl.Store.Memory
import FlowControl.Store.Redis.Address
import FlowControl.Store.Redis.Client
import FlowControl.Store.Redis.Reply
import FlowControl.Text.Blank
import FlowControl.Text.Hex
import FlowControl.Text.Locator
import FlowControl.Text.Percent
import FlowControl.Text.Printable
import FlowControl.Text.Quoted
import FlowControl.Timeline
import FlowControl.Word
