import PolyCortex.Coroutine.Basic
import PolyCortex.Coroutine.Contract
import PolyCortex.Coroutine.Inquiry
import PolyCortex.Numeric.Rounding
import PolyCortex.Numeric.PyFloat
import PolyCortex.Numeric.Drift
import PolyCortex.Numeric.Interpolation
import PolyCortex.Numeric.WeightedMean
import PolyCortex.Data.Dict
import PolyCortex.Execution.Order
import PolyCortex.Execution.Slippage
import PolyCortex.Execution.Exchange
import PolyCortex.Execution.Executor
import PolyCortex.Execution.Operations
import PolyCortex.Execution.Reconcile
import PolyCortex.Execution.Inquiries
import PolyCortex.Execution.Runs
import PolyCortex.Execution.Fill
import PolyCortex.Execution.FillAverage
import PolyCortex.Execution.Arming
import PolyCortex.Execution.Effects
import PolyCortex.Execution.Conservation
import PolyCortex.Execution.Brackets
import PolyCortex.Execution.Placement
import PolyCortex.Execution.Cancellation
import PolyCortex.Execution.LiveEntry
import PolyCortex.Execution.LiveStatus
import PolyCortex.Execution.LivePrice
import PolyCortex.Execution.Evidence
import PolyCortex.Execution.Protection
import PolyCortex.Coroutine.Pool
import PolyCortex.Execution.Interleaving
import PolyCortex.Execution.Acts
import PolyCortex.Execution.Contention
import PolyCortex.Execution.Exits
import PolyCortex.Execution.Deduplication
import PolyCortex.Coroutine.Crash
import PolyCortex.Execution.Restarts
import PolyCortex.Execution.Reentry
import PolyCortex.Execution.Families
import PolyCortex.Execution.FamilySteps
import PolyCortex.Execution.FamilyPasses
import PolyCortex.Execution.Arrivals
import PolyCortex.Execution.BracketStates
import PolyCortex.Execution.BracketLevels
import PolyCortex.Execution.Triggers
import PolyCortex.Execution.Remainders
import PolyCortex.Coroutine.Monitor
import PolyCortex.Execution.Posting
import PolyCortex.Agent.Halting
import PolyCortex.Coroutine.Zoom
import PolyCortex.Coroutine.Lockstep
import PolyCortex.Risk.Drawdown
import PolyCortex.Risk.Throttle
import PolyCortex.Risk.DailyLoss
import PolyCortex.Risk.Sizer
import PolyCortex.Risk.Sizing
import PolyCortex.Tracking.Tracker
import PolyCortex.Agent.Cycle
import PolyCortex.Agent.Steps
import PolyCortex.Agent.Emergency
import PolyCortex.Agent.TokenChoice
import PolyCortex.Agent.Booking
import PolyCortex.Agent.Evolution
import PolyCortex.Agent.Sessions
import PolyCortex.Tracking.Records
import PolyCortex.Execution.ExitEvents
import PolyCortex.Agent.ExitBooking
import PolyCortex.Execution.Prices
import PolyCortex.Agent.Bankroll
import PolyCortex.Agent.Resumption
import PolyCortex.Agent.DeadEntries
import PolyCortex.Agent.Shutdown
import PolyCortex.Tracking.Days
import PolyCortex.Agent.DailyLosses
import PolyCortex.Execution.Reports
import PolyCortex.Execution.Mirror
import PolyCortex.Execution.Symmetry
import PolyCortex.Execution.SlippageGate
import PolyCortex.Agent.Charges
import PolyCortex.Agent.Fees
import PolyCortex.Models.Calibration
import PolyCortex.Models.CrossMarket
import PolyCortex.Models.Edge
import PolyCortex.Models.EdgeMirror
import PolyCortex.Models.Regime
import PolyCortex.Backtest.Simulator
import PolyCortex.Backtest.LookAhead
import PolyCortex.Tracking.Profits
import PolyCortex.Tracking.Scoring
import PolyCortex.Infra.RateLimiter
import PolyCortex.Infra.PidLock
import PolyCortex.Data.Json
import PolyCortex.Data.GammaClient
import PolyCortex.Data.Pagination
import PolyCortex.Data.Persisted
import PolyCortex.Agent.Limits
import PolyCortex.Data.Grouping
import PolyCortex.Tracking.Metrics
import PolyCortex.Tracking.FeeSummary
import PolyCortex.Models.CalibrationLabels
import PolyCortex.Models.CalibrationRuns
import PolyCortex.Tracking.Learner
import PolyCortex.Tracking.LearnerBand
import PolyCortex.Tracking.SignalWeights
import PolyCortex.Tracking.StaleEvidence
import PolyCortex.Agent.LearningState
import PolyCortex.Models.SharedBuffer
import PolyCortex.Data.DateTime
import PolyCortex.Execution.StateMachine
import PolyCortex.Execution.PaperEngine
import PolyCortex.Execution.PaperFills
import PolyCortex.Execution.PaperPrices
import PolyCortex.Tracking.Issues
import PolyCortex.Agent.Orphans
import PolyCortex.Data.Sql
import PolyCortex.Tracking.Resolver
import PolyCortex.Reporting.Tax
import PolyCortex.Reporting.Gains
import PolyCortex.Reporting.LotOrder
import PolyCortex.Data.Series
import PolyCortex.Numeric.NumpyFloat
import PolyCortex.Features.Engine
import PolyCortex.Features.Causality
import PolyCortex.Execution.SlippageGrowth
import PolyCortex.Execution.LiquidityUnits
import PolyCortex.Execution.PaperLiquidity
import PolyCortex.Execution.Twap
import PolyCortex.Coroutine.Ghost
import PolyCortex.Data.JsonValue
import PolyCortex.Execution.Batch
import PolyCortex.Execution.BatchConservation
import PolyCortex.Execution.BatchFlush
import PolyCortex.Data.Sorting
import PolyCortex.Data.Levels
import PolyCortex.Data.WebSocketClient
import PolyCortex.Data.MessageSafety
import PolyCortex.Data.StreamedPrices
import PolyCortex.Data.Subscriptions
import PolyCortex.Data.ClobClient
import PolyCortex.Data.AcceptedBooks
import PolyCortex.Machine.History
import PolyCortex.Machine.Trail
import PolyCortex.Machine.Leaky
import PolyCortex.Execution.TrailingStop
import PolyCortex.Execution.TwapRuns
import PolyCortex.Infra.Retry
import PolyCortex.Infra.CircuitBreaker
import PolyCortex.Infra.BreakerTrips
import PolyCortex.Infra.RetryBreaker
import PolyCortex.Data.MarketItems
import PolyCortex.Data.CoarseMarkets
import PolyCortex.Features.Sentiment
import PolyCortex.Features.SentimentBatch
import PolyCortex.Events.Bus
import PolyCortex.Events.Ledger
import PolyCortex.Events.Delivery
import PolyCortex.Events.Stopping
import PolyCortex.Events.Statuses
import PolyCortex.Events.CutOff
import PolyCortex.Events.Drained
import PolyCortex.Data.ListRuns
import PolyCortex.Tracking.Streaks
import PolyCortex.Strategies.Registry
import PolyCortex.Infra.WalletManager
import PolyCortex.Infra.WalletRouting
import PolyCortex.Data.Sanitizing
import PolyCortex.Execution.Completion
import PolyCortex.Data.PercentFormat
import PolyCortex.Data.Substitution
import PolyCortex.Data.MaskedFormat
import PolyCortex.Infra.LogFilter
import PolyCortex.Data.Reach
import PolyCortex.Models.Tcn
import PolyCortex.Models.TcnEnsemble
import PolyCortex.Models.TcnTraining
import PolyCortex.Data.Connection
import PolyCortex.Agent.FailureGuard
import PolyCortex.Data.History
import PolyCortex.Execution.Arbitrage
import PolyCortex.Numeric.Warmup
import PolyCortex.Features.Dataset
import PolyCortex.Infra.Scheduler
import PolyCortex.Infra.Heartbeat
import PolyCortex.Risk.Alerts
import PolyCortex.Backtest.DrawdownBound
import PolyCortex.Execution.TwapPacing
import PolyCortex.Data.Freshness
import PolyCortex.Intelligence.Anomaly
import PolyCortex.Strategies.Builtin
import PolyCortex.Backtest.Report
import PolyCortex.Agent.Retraining
import PolyCortex.Reporting.Dashboard
