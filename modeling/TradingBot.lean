import TradingBot.Backtest.BarByBar
import TradingBot.Backtest.CandleCrossing
import TradingBot.Backtest.Conservation
import TradingBot.Backtest.Effects
import TradingBot.Backtest.Executor
import TradingBot.Backtest.FillCover
import TradingBot.Backtest.FillModel
import TradingBot.Backtest.Ledger
import TradingBot.Backtest.Metrics
import TradingBot.Backtest.OwnFunds
import TradingBot.Backtest.PortfolioSource
import TradingBot.Backtest.RefusedExit
import TradingBot.Backtest.Replay
import TradingBot.Backtest.Report
import TradingBot.Backtest.Run
import TradingBot.Backtest.SnapshotComputer
import TradingBot.Backtest.WarmUp
import TradingBot.Binance.FeedConnection
import TradingBot.Binance.FeedPool
import TradingBot.Binance.KlineRing
import TradingBot.Binance.LocalGovernor
import TradingBot.Binance.OrderGovernor
import TradingBot.Binance.WeightGovernor
import TradingBot.Contracts.AccountExposure
import TradingBot.Contracts.Archive
import TradingBot.Contracts.ArchivePartition
import TradingBot.Contracts.WireDecimal
import TradingBot.Core.ArmCoverage
import TradingBot.Core.ArmOutcome
import TradingBot.Core.ArmSafety
import TradingBot.Core.ArmSettles
import TradingBot.Core.BandWarning
import TradingBot.Core.ConfigFingerprint
import TradingBot.Core.Contract
import TradingBot.Core.FanOut
import TradingBot.Core.MergeConfig
import TradingBot.Core.NativeTrailRuns
import TradingBot.Core.PreviewDrift
import TradingBot.Core.ProtectiveStop
import TradingBot.Core.ProtectiveStopArm
import TradingBot.Core.Rendezvous
import TradingBot.Core.Sizing
import TradingBot.Discovery.Agreement
import TradingBot.Discovery.Chain
import TradingBot.Discovery.Cycle
import TradingBot.Discovery.Explain
import TradingBot.Discovery.Funnel
import TradingBot.Discovery.QuoteInvariance
import TradingBot.Discovery.Redenomination
import TradingBot.Discovery.Resolve
import TradingBot.Discovery.Rotation
import TradingBot.Discovery.Run
import TradingBot.Incremental
import TradingBot.IncrementalExact
import TradingBot.IncrementalFolds
import TradingBot.IndicatorBounds
import TradingBot.Indicators
import TradingBot.Lib.BranchChain
import TradingBot.Lib.CostPool
import TradingBot.Lib.CrashRounds
import TradingBot.Lib.Decimal
import TradingBot.Lib.DecimalLiteral
import TradingBot.Lib.DecimalScale
import TradingBot.Lib.DecimalText
import TradingBot.Lib.EarlyExit
import TradingBot.Lib.ExponentialAverage
import TradingBot.Lib.FanOutLog
import TradingBot.Lib.FlooredSum
import TradingBot.Lib.GapCount
import TradingBot.Lib.GreedyFill
import TradingBot.Lib.Grid
import TradingBot.Lib.Grouping
import TradingBot.Lib.InsertionMap
import TradingBot.Lib.Json
import TradingBot.Lib.LabelledRun
import TradingBot.Lib.LeakyBucket
import TradingBot.Lib.MonotoneDeque
import TradingBot.Lib.Pattern
import TradingBot.Lib.QueueMerge
import TradingBot.Lib.Ranking
import TradingBot.Lib.ReservedWallet
import TradingBot.Lib.RollingTally
import TradingBot.Lib.Trailing
import TradingBot.Lib.VersionedCell
import TradingBot.Momentum.AccountTotal
import TradingBot.Momentum.CarriedWindow
import TradingBot.Momentum.Gates
import TradingBot.Momentum.HeldLevel
import TradingBot.Momentum.PositionAdapter
import TradingBot.Momentum.ProfitMark
import TradingBot.Momentum.ProtectiveStop
import TradingBot.Momentum.ReadableWindow
import TradingBot.Momentum.Readings
import TradingBot.Momentum.RequiredWindow
import TradingBot.Momentum.RiskCap
import TradingBot.Momentum.RoundTrip
import TradingBot.Momentum.Schema
import TradingBot.Momentum.Sizing
import TradingBot.Momentum.StopLevel
import TradingBot.Momentum.Tick
import TradingBot.Money
import TradingBot.Rebalance.Budget
import TradingBot.Rebalance.Rotation
import TradingBot.Rebalance.Tick
import TradingBot.TrailingTrade.AccountTotal
import TradingBot.TrailingTrade.Blockers
import TradingBot.TrailingTrade.Branches
import TradingBot.TrailingTrade.BuyBranch
import TradingBot.TrailingTrade.CapRuns
import TradingBot.TrailingTrade.ClampedStop
import TradingBot.TrailingTrade.Cooldowns
import TradingBot.TrailingTrade.EntryMarks
import TradingBot.TrailingTrade.EntryProtection
import TradingBot.TrailingTrade.ExitBlocker
import TradingBot.TrailingTrade.FillConservation
import TradingBot.TrailingTrade.FillResolution
import TradingBot.TrailingTrade.FlatGrid
import TradingBot.TrailingTrade.Gates
import TradingBot.TrailingTrade.GridBuy
import TradingBot.TrailingTrade.Lifecycle
import TradingBot.TrailingTrade.OneOrder
import TradingBot.TrailingTrade.Orders
import TradingBot.TrailingTrade.Override
import TradingBot.TrailingTrade.PositionAdapter
import TradingBot.TrailingTrade.PositionKept
import TradingBot.TrailingTrade.Preview
import TradingBot.TrailingTrade.PreviewAgrees
import TradingBot.TrailingTrade.ProtectiveStop
import TradingBot.TrailingTrade.Regime
import TradingBot.TrailingTrade.RequiredWindow
import TradingBot.TrailingTrade.RestingBuys
import TradingBot.TrailingTrade.Schema
import TradingBot.TrailingTrade.SellGate
import TradingBot.TrailingTrade.SellOutcome
import TradingBot.TrailingTrade.SentOrders
import TradingBot.TrailingTrade.StopLoss
import TradingBot.TrailingTrade.Tick
import TradingBot.TrailingTrade.TickActs
import TradingBot.TrailingTrade.TickOutcome
import TradingBot.Worker.AmbiguousPlacement
import TradingBot.Worker.CertifiedFees
import TradingBot.Worker.ChainByKey
import TradingBot.Worker.ConcurrentMutates
import TradingBot.Worker.DegradedCommits
import TradingBot.Worker.DustAgreement
import TradingBot.Worker.FeeReconciliation
import TradingBot.Worker.FeeResolution
import TradingBot.Worker.FillAccounting
import TradingBot.Worker.FillAdopter
import TradingBot.Worker.FillReplay
import TradingBot.Worker.IndicatorComputer
import TradingBot.Worker.OpenOrdersCache
import TradingBot.Worker.OpenOrdersTracking
import TradingBot.Worker.OpenPosition
import TradingBot.Worker.OrderCommission
import TradingBot.Worker.OrderHandlers
import TradingBot.Worker.OrderOwnership
import TradingBot.Worker.OrderRefusal
import TradingBot.Worker.OverrideActions
import TradingBot.Worker.OverrideCustody
import TradingBot.Worker.OverrideRuns
import TradingBot.Worker.OverrideSettlement
import TradingBot.Worker.OverrideTicket
import TradingBot.Worker.PlacementDedup
import TradingBot.Worker.ReconstructedCycles
import TradingBot.Worker.RefusalCircuit
import TradingBot.Worker.ReplaceSafety
import TradingBot.Worker.Retirements
import TradingBot.Worker.RoundTrips
import TradingBot.Worker.SubscriptionConvergence
import TradingBot.Worker.SubscriptionOwnership
import TradingBot.Worker.SymbolState
import TradingBot.Worker.TickCommit
import TradingBot.Worker.TradeArchive
import TradingBot.Worker.UserStreamPool
import TradingBot.Worker.WalletReconcile
