import VaultWatch.Gateway.FamilyRevocation
import VaultWatch.Lib.HashChain
import VaultWatch.Lib.Lines
import VaultWatch.Lib.Text
import VaultWatch.Engine.AuditLog
import VaultWatch.Engine.Persistence
import VaultWatch.Engine.ChainRuns
import VaultWatch.Engine.TwoReaders
import VaultWatch.Engine.FailedAppend
import VaultWatch.Engine.Tampering
import VaultWatch.Showcase.AuditChain
import VaultWatch.Showcase.ConcurrentAppends
import VaultWatch.Agents.Broadcast
import VaultWatch.Agents.Models
import VaultWatch.Agents.Pipeline
import VaultWatch.Agents.Llm
import VaultWatch.Agents.Payments
import VaultWatch.Agents.Orchestrator
import VaultWatch.Agents.Recording
import VaultWatch.Agents.PaymentGate
import VaultWatch.Agents.Exits
import VaultWatch.Agents.WatchlistBlock
import VaultWatch.Agents.AuditStatus
import VaultWatch.Agents.Evidence
import VaultWatch.Agents.Fusion
import VaultWatch.Agents.Replay
import VaultWatch.Agents.ReplayRun
import VaultWatch.Agents.ReplayOutcome
import VaultWatch.Lib.Environment
import VaultWatch.Lib.Exact
import VaultWatch.Lib.Trace
import VaultWatch.Lib.Contracts
import VaultWatch.Lib.Sequential
import VaultWatch.Engine.Rules
import VaultWatch.Showcase.Rules
import VaultWatch.Showcase.RulesPort
import VaultWatch.Gateway.RateLimit
import VaultWatch.Gateway.BruteForce
import VaultWatch.Gateway.Travel
import VaultWatch.Gateway.Accounts
import VaultWatch.Gateway.Login
import VaultWatch.Gateway.LoginEndpoint
import VaultWatch.Gateway.AccountEvents
import VaultWatch.Gateway.CredentialStuffing
import VaultWatch.Gateway.SimultaneousLogins
import VaultWatch.Gateway.SoloCalls
import VaultWatch.Gateway.FailedCalls
import VaultWatch.Gateway.Lineage
import VaultWatch.Correlation.AccountWarnings
import VaultWatch.Lib.Budget
import VaultWatch.Lib.Slices
import VaultWatch.Gateway.TokenBudget
import VaultWatch.Gateway.FailureCount
import VaultWatch.Engine.Monotone
import VaultWatch.Engine.FirstBroken
import VaultWatch.Correlation.TravelChecks
import VaultWatch.Lib.Machines
import VaultWatch.Lib.Markup
import VaultWatch.Gateway.StoreAgreement
import VaultWatch.Gateway.Registration
import VaultWatch.Agents.StageCalls
import VaultWatch.Agents.PipelineShape
import VaultWatch.Agents.ReplayEvidence
import VaultWatch.Agents.Reports
import VaultWatch.Lib.Window
import VaultWatch.Agents.SecurityWindow
import VaultWatch.Showcase.Types
import VaultWatch.Showcase.LiveFeed
import VaultWatch.Agents.Conversation
import VaultWatch.Lib.Base64
import VaultWatch.Gateway.Password
import VaultWatch.Lib.Parts
import VaultWatch.Agents.Undisturbed
import VaultWatch.Showcase.Pipeline
import VaultWatch.Correlation.Routes
import VaultWatch.Correlation.RoutesAlike
import VaultWatch.Lib.Recents
import VaultWatch.Lib.Draws
import VaultWatch.Lib.Obligations
import VaultWatch.Engine.Outliers
import VaultWatch.Agents.CaseStore
import VaultWatch.Agents.Synthetic
import VaultWatch.Agents.RiskEngine
import VaultWatch.Agents.DemoFeed
import VaultWatch.Agents.Demo
import VaultWatch.Agents.Service
import VaultWatch.Lib.Ledger
import VaultWatch.Lib.Stepwise
import VaultWatch.Lib.Simulation
import VaultWatch.Agents.Receipts
import VaultWatch.Correlation.EngineRecords
import VaultWatch.Lib.Provenance
import VaultWatch.Gateway.AccessTokens
import VaultWatch.Gateway.Server
