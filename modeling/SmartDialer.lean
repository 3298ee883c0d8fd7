import SmartDialer.Protocol.Lifecycle
import SmartDialer.Protocol.Origination
import SmartDialer.Protocol.Parties
import SmartDialer.Protocol.Cap
import SmartDialer.Protocol.Handover
import SmartDialer.Protocol.Contact
import SmartDialer.Protocol.Ownership
import SmartDialer.Protocol.Fencing
import SmartDialer.Protocol.Race
import SmartDialer.Protocol.Connection
import SmartDialer.Protocol.Conversation
import SmartDialer.Protocol.Confluence
import SmartDialer.Protocol.AttachRace
import SmartDialer.Protocol.Cancellation
import SmartDialer.Protocol.Ignored
import SmartDialer.Protocol.SecondRound
import SmartDialer.Protocol.Retries
import SmartDialer.Protocol.AttemptCap
import SmartDialer.Safety.Isolation
import SmartDialer.Workers.DialerWorker
import SmartDialer.Protocol.BoundCalls
import SmartDialer.Protocol.Silence
import SmartDialer.Protocol.Inherited
import SmartDialer.Protocol.FreshKeys
import SmartDialer.Protocol.Reconciled
import SmartDialer.Simulation.OneRun
import SmartDialer.Pacing.PacingEngine
import SmartDialer.Services.ProviderHealth
import SmartDialer.Metrics.TimeAccounting
import SmartDialer.Protocol.Backoff
import SmartDialer.Protocol.WrapUps
import SmartDialer.Protocol.Bookkeeping
import SmartDialer.Protocol.Allocation
import SmartDialer.Protocol.SetUp
import SmartDialer.Simulation.InvariantChecker
import SmartDialer.Protocol.Scripts
import SmartDialer.Simulation.Settle
import SmartDialer.Simulation.RunRecords
import SmartDialer.Simulation.Schedule
import SmartDialer.Application
import SmartDialer.Workers.WorkerLoops
import SmartDialer.Workers.Refinement
import SmartDialer.Workers.TickBudget
import SmartDialer.Workers.PacedDialing
import SmartDialer.Workers.AuditTrail
import SmartDialer.Workers.Survival
import SmartDialer.Metrics.CampaignMetrics
import SmartDialer.Metrics.Monitoring
import SmartDialer.Metrics.Reports
