import SumplusTrader.Json.Basic
import SumplusTrader.Json.Text
import SumplusTrader.Json.RoundTrip
import SumplusTrader.Json.Order
import SumplusTrader.Python.Text
import SumplusTrader.Python.Dict
import SumplusTrader.Python.Numeric
import SumplusTrader.Crypto.Sha256
import SumplusTrader.Crypto.HashChain
import SumplusTrader.Types
import SumplusTrader.Config
import SumplusTrader.Policy.Canonical
import SumplusTrader.Strategy.Signals
import SumplusTrader.Strategy.Survival
import SumplusTrader.Policy.Engine
import SumplusTrader.Policy.EngineSafety
import SumplusTrader.Core.Portfolio
import SumplusTrader.Strategy.Intents
import SumplusTrader.Json.Locality
import SumplusTrader.Json.Lines
import SumplusTrader.Policy.Receipt
import SumplusTrader.Policy.ReceiptChain
import SumplusTrader.Policy.HeadCommitment
import SumplusTrader.Execution.Executor
import SumplusTrader.Abstention.Ledger
import SumplusTrader.Policy.ExecLog
import SumplusTrader.Policy.Commit
import SumplusTrader.Core.Tick
import SumplusTrader.Policy.CommittedReads
import SumplusTrader.Core.TickCases
import SumplusTrader.Core.Commitment
import SumplusTrader.Core.Run
import SumplusTrader.Core.Booking
import SumplusTrader.Core.Ladder
import SumplusTrader.Brain.Guardrail
import SumplusTrader.Core.ExposureCap
import SumplusTrader.Brain.Ledger
import SumplusTrader.Brain.Loop
import SumplusTrader.Brain.Chat
import SumplusTrader.Brain.SizeCap
import SumplusTrader.Policy.BoundLogs
import SumplusTrader.Core.PublicVerifier
import SumplusTrader.Core.TradeRate
import SumplusTrader.Ops.Watchdog
import SumplusTrader.Core.SimulatedTick
import SumplusTrader.Simulation.PolicyView
import SumplusTrader.Execution.Environ
import SumplusTrader.Execution.InjectiveMarket
import SumplusTrader.Execution.InjectiveBackend
import SumplusTrader.Execution.ExitSize
import SumplusTrader.Execution.TwakBackend
import SumplusTrader.Core.LiveTick
import SumplusTrader.Core.UnknownOutcome
import SumplusTrader.Transition.Run
import SumplusTrader.Transition.WriteAhead
import SumplusTrader.Execution.Factory
import SumplusTrader.Ops.PersistentState
import SumplusTrader.Live.Reconcile
import SumplusTrader.Live.Loop
import SumplusTrader.Transition.InFlight
import SumplusTrader.Live.IterationCases
import SumplusTrader.Live.Process
import SumplusTrader.Live.Refinement
import SumplusTrader.Live.Intents
import SumplusTrader.Live.Settlement
import SumplusTrader.Live.StopFile
import SumplusTrader.Live.ReconcileFirst
import SumplusTrader.Ops.Nonce
import SumplusTrader.Ops.HealthyNonces
import SumplusTrader.Core.Direction
import SumplusTrader.Data.TokenViews
import SumplusTrader.Policy.Acquisition
import SumplusTrader.Abstention.Outage
import SumplusTrader.Core.DeclinedTrade
import SumplusTrader.Live.ChainBook
import SumplusTrader.Brain.Pause
import SumplusTrader.Live.CostBasis
import SumplusTrader.Backtest.Elimination
import SumplusTrader.Policy.ReceiptReplay
import SumplusTrader.Policy.TornAppend
import SumplusTrader.Json.Dictionary
import SumplusTrader.Ops.StateFile
import SumplusTrader.Backtest.Invariants
import SumplusTrader.Backtest.Champion
import SumplusTrader.Backtest.Engine
import SumplusTrader.Backtest.ExposureCap
import SumplusTrader.Backtest.EntryGate
import SumplusTrader.Live.Heartbeat
import SumplusTrader.Skills.StrategySpec
import SumplusTrader.Core.QuoteAge
import SumplusTrader.Abstention.Invariants
import SumplusTrader.Policy.ApprovedSize
import SumplusTrader.Policy.AuthorisedOrders
import SumplusTrader.Policy.Tampering
import SumplusTrader.Core.Lockdown
import SumplusTrader.Core.NextBuy
import SumplusTrader.Policy.DeRisking
import SumplusTrader.Core.HalvedRisk
import SumplusTrader.Core.Oscillation
import SumplusTrader.Core.Bookkeeping
import SumplusTrader.Execution.OrderAmount
import SumplusTrader.Execution.TickAlignment
import SumplusTrader.Core.Restraint
import SumplusTrader.Ops.RpcFailover
import SumplusTrader.Backtest.RegimeDrawdown
import SumplusTrader.Brain.HourlyCounter
import SumplusTrader.Contracts.Custody
import SumplusTrader.Python.Path
import SumplusTrader.Identity.CommitPublish
import SumplusTrader.Ops.ConsumedNonces
import SumplusTrader.Python.DecimalContext
import SumplusTrader.Execution.FixedPoint
import SumplusTrader.Abstention.LedgerFile
import SumplusTrader.Abstention.TornRewrite
import SumplusTrader.Contracts.EventLog
import SumplusTrader.Core.OnChainOrders
import SumplusTrader.Core.HighWater
import SumplusTrader.Accounting.Journal
import SumplusTrader.Backtest.Journal
import SumplusTrader.Backtest.Challenger
import SumplusTrader.Backtest.Lockdown
import SumplusTrader.Simulation.Journal
import SumplusTrader.Simulation.Report
import SumplusTrader.Brain.Proposals
import SumplusTrader.Brain.AuditTrail
import SumplusTrader.Live.HighWater
import SumplusTrader.Core.CrashPoints
import SumplusTrader.Core.BrokenLog
import SumplusTrader.Policy.Resubmission
import SumplusTrader.Data.Bars
import SumplusTrader.Backtest.LookAhead
import SumplusTrader.Simulation.LookAhead
import SumplusTrader.Web.Dashboard
import SumplusTrader.Live.Logs
import SumplusTrader.Core.OrderTrail
