import Cryptox.Library.GuardedSystem
import Cryptox.Search.MutationAccepted
import Cryptox.Strategy.Proposal
import Cryptox.Library.Outcome
import Cryptox.Backtesting.Simulator.Solvency
import Cryptox.Backtesting.Simulator.ClosingWorth
import Cryptox.Backtesting.Simulator.Totality
import Cryptox.Backtesting.Numerals
import Cryptox.Backtesting.Repository.InMemory
import Cryptox.Backtesting.Repository.Postgres
import Cryptox.Backtesting.Repository.Budget
import Cryptox.Backtesting.Repository.History
import Cryptox.Backtesting.Repository.Fencing
import Cryptox.Backtesting.Repository.Agreement
import Cryptox.Library.Exclusive
import Cryptox.Library.RunningPeak
import Cryptox.Frontend.ChartHistory
import Cryptox.Frontend.Routes
import Cryptox.Frontend.MarketLayout
import Cryptox.News.TemplateActivation
import Cryptox.News.TemplateHistory
import Cryptox.Outbound.AddressGuards
import Cryptox.Outbound.SanitizedHtml
import Cryptox.Leaderboard.Concurrent
import Cryptox.Leaderboard.SubmitReport
import Cryptox.Backtesting.Service.SealedPolicy
import Cryptox.Evaluation.Ledger
import Cryptox.Evaluation.WinCounts
import Cryptox.Backtesting.Service.ReplayVerification
import Cryptox.Backtesting.Service.ExactlyOnce
import Cryptox.Backtesting.Service.ReplayRuns
import Cryptox.Auth.AccountRuns
import Cryptox.News.NewsReads
import Cryptox.Backtesting.Service.DispatchRuns
import Cryptox.Backtesting.Service.Pages
import Cryptox.Backtesting.Service.ScopeDeletion
import Cryptox.Backtesting.Service.QueueRecovery
import Cryptox.Backtesting.Service.Idempotency
import Cryptox.Search.StopConditions
import Cryptox.Search.Progress
import Cryptox.Search.DomainGuided
import Cryptox.Search.Fingerprints
import Cryptox.Search.GeneticCandidates
import Cryptox.Library.Lineage
import Cryptox.Strategy.Versioning
import Cryptox.Strategy.Executable
import Cryptox.Strategy.WarmUp
import Cryptox.Backtesting.Simulator.CandleOrder
import Cryptox.Strategy.AnswerWindows
import Cryptox.Strategy.OverlaySignals
import Cryptox.Strategy.Combination
import Cryptox.MarketData.CacheCoherence
import Cryptox.MarketData.CacheTransparency
import Cryptox.MarketData.MissingRanges
import Cryptox.MarketData.SnapshotPages
import Cryptox.MarketData.HistoricalPaging
import Cryptox.MarketData.Reconnection
import Cryptox.MarketData.Immutability
import Cryptox.MarketData.Serialization
import Cryptox.MarketData.Snapshots
import Cryptox.MarketData.SnapshotCompleteness
import Cryptox.MarketData.UpstreamConnection
import Cryptox.MarketData.GatewaySubscriptions
import Cryptox.Sentiment.NoLookAhead
