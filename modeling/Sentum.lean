import Sentum.Api.BinanceSpotExecutionClient
import Sentum.Api.QuantityText
import Sentum.Backtest.Drawdown
import Sentum.Backtest.HistoricalEventReader
import Sentum.Backtest.Metrics
import Sentum.Backtest.MetricsOrder
import Sentum.Backtest.VerifyMetrics
import Sentum.Collector.CandleFlush
import Sentum.Collector.Collector
import Sentum.Collector.FastBinanceKlineParser
import Sentum.Collector.KlineDocuments
import Sentum.Collector.MarketFeed
import Sentum.Collector.SymbolLookup
import Sentum.Core.ClosedTrades
import Sentum.Core.ControlUpdates
import Sentum.Core.CurrentSymbol
import Sentum.Core.EngineSteps
import Sentum.Core.EquityConservation
import Sentum.Core.EquitySizing
import Sentum.Core.ExecutionEngine
import Sentum.Core.LeaderSignals
import Sentum.Core.PositionDeferral
import Sentum.Core.ShutdownWakeups
import Sentum.Dashboard.DashboardRepository
import Sentum.Execution.AccountReconciler
import Sentum.Execution.CallbackLocks
import Sentum.Execution.CallbackReturns
import Sentum.Execution.ExchangeFilters
import Sentum.Execution.ExchangeMetadataCache
import Sentum.Execution.ExchangeRules
import Sentum.Execution.FailedSubmission
import Sentum.Execution.FilterOrder
import Sentum.Execution.OneOrder
import Sentum.Execution.PositionTrackers
import Sentum.Execution.SimulatedExecutionVenue
import Sentum.Execution.TestnetRuns
import Sentum.Execution.TestnetStrategyRuntime
import Sentum.Lib.AtomicReplace
import Sentum.Lib.BinaryFloat
import Sentum.Lib.BoundedQueue
import Sentum.Lib.FirstLeast
import Sentum.Lib.Histogram
import Sentum.Lib.Interleaving
import Sentum.Lib.Interpolation
import Sentum.Lib.LastPerKey
import Sentum.Lib.Locks
import Sentum.Lib.LowerBound
import Sentum.Lib.OnePerKey
import Sentum.Lib.OrderStatistics
import Sentum.Lib.Outputs
import Sentum.Lib.Returns
import Sentum.Lib.RingIndex
import Sentum.Lib.Run
import Sentum.Lib.RunningPeak
import Sentum.Lib.Substring
import Sentum.Lib.Terminal
import Sentum.Lib.Transactions
import Sentum.Lib.Unwinding
import Sentum.Lib.Waiting
import Sentum.Lib.WaitingRuns
import Sentum.Lib.WorkPool
import Sentum.Lib.XorMultiply
import Sentum.Market.IncrementalIndicators
import Sentum.Market.MarketDataStore
import Sentum.Market.MarketEvent
import Sentum.Market.MarketEventBus
import Sentum.Market.RollingWindow
import Sentum.Market.RuntimePerformanceMetrics
import Sentum.Market.SpscRingQueue
import Sentum.Market.SymbolId
import Sentum.Market.WilderIndex
import Sentum.Nlohmann.Json
import Sentum.Nlohmann.Text
import Sentum.Observability.StatusReporter
import Sentum.Order.Agreement
import Sentum.Order.AverageEntryPrice
import Sentum.Order.CancelFailures
import Sentum.Order.CancelReports
import Sentum.Order.ConfirmedPositionLedger
import Sentum.Order.Conservation
import Sentum.Order.KillBarrier
import Sentum.Order.LedgerRuns
import Sentum.Order.LiveEntries
import Sentum.Order.LiveOrderSession
import Sentum.Order.LiveStream
import Sentum.Order.MalformedEvents
import Sentum.Order.OrderManager
import Sentum.Order.OrderSystem
import Sentum.Order.OrderTypes
import Sentum.Order.Recovery
import Sentum.Order.Redelivery
import Sentum.Order.Report
import Sentum.Order.ResumeCall
import Sentum.Order.Submission
import Sentum.Order.SubmitSteps
import Sentum.Order.TerminalStates
import Sentum.Paper.PaperAccount
import Sentum.Paper.SaveAtomicity
import Sentum.Research.CandidateSelection
import Sentum.Research.ClosingOrder
import Sentum.Research.ConfidenceIntervals
import Sentum.Research.DatasetCatalog
import Sentum.Research.DatasetOrder
import Sentum.Research.DatasetSlices
import Sentum.Research.EarnedStages
import Sentum.Research.ExperimentOutcome
import Sentum.Research.ExperimentProvenance
import Sentum.Research.ExperimentRunner
import Sentum.Research.HoldoutAnalysis
import Sentum.Research.HoldoutIsolation
import Sentum.Research.ModelPromotion
import Sentum.Research.ModelSourceValidation
import Sentum.Research.MonteCarlo
import Sentum.Research.PolicyOrder
import Sentum.Research.PortfolioAccounting
import Sentum.Research.PortfolioDays
import Sentum.Research.PortfolioExposure
import Sentum.Research.PortfolioRate
import Sentum.Research.PortfolioResearch
import Sentum.Research.PromotionAudit
import Sentum.Research.RegimeCausality
import Sentum.Research.RegisteredDefinitions
import Sentum.Research.ResearchConfig
import Sentum.Research.ResearchPlatform
import Sentum.Research.ResearchVisualization
import Sentum.Research.ShadowTradingSession
import Sentum.Research.StabilityScores
import Sentum.Research.TrialCount
import Sentum.Research.TrialErrors
import Sentum.Research.TrialPool
import Sentum.Research.TrialsCsv
import Sentum.Research.Warmup
import Sentum.Research.Windows
import Sentum.Risk.ApprovalMonotone
import Sentum.Risk.PortfolioRiskManager
import Sentum.Risk.RiskConfig
import Sentum.Risk.RiskManager
import Sentum.Scanner.SymbolScanner
import Sentum.Scanner.TopPerformers
import Sentum.Std.Decimal
import Sentum.Std.Double
import Sentum.Std.GeneralFormat
import Sentum.Std.GeneralText
import Sentum.Std.ReadDouble
import Sentum.Std.Sort
import Sentum.Std.Stod
import Sentum.Strategy.EnsembleEntries
import Sentum.Strategy.EnsembleScore
import Sentum.Strategy.IndicatorDefinitions
import Sentum.Strategy.Signals
import Sentum.Strategy.StrategyFramework
import Sentum.Strategy.TimeframeBars
import Sentum.Time.Clock
import Sentum.Trader.Cooldown
import Sentum.Trader.EngineBooks
import Sentum.Trader.ExecutionCosts
import Sentum.Trader.ManualClose
import Sentum.Trader.OpenPositions
import Sentum.Trader.PriceQueue
import Sentum.Trader.ProtectiveExits
import Sentum.Trader.Replay
import Sentum.Trader.Steady
import Sentum.Trader.TradeEngine
import Sentum.Trader.TradeSequence
import Sentum.Trader.Transitions
import Sentum.Ui.HandleKey
import Sentum.Ui.TerminalUi
import Sentum.Utils.AsyncLogger
import Sentum.Utils.ConfigLoader
import Sentum.Utils.Database
