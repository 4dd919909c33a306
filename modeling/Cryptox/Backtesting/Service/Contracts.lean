import Mathlib.Data.List.Nodup
import Cryptox.Backtesting.Simulator
import Cryptox.Backtesting.Repository.Run

/-!
# What the backtesting service is given

The scope and the commands, and the modules the service calls: their answers are the fields of
`Dependencies`, and an answer that rejects is an error.
-/
namespace Cryptox.Backtesting

structure RiskPolicy where
  stopLossPercent : Option JsNumber
  takeProfitPercent : Option JsNumber
deriving DecidableEq, Repr

/-- A submitted policy, of which any field may be missing. -/
structure SuppliedPolicy where
  policyId : Option String
  positionPolicyId : Option String
  sizingPolicyId : Option String
  fillPolicyId : Option String
  oppositeSignalPolicyId : Option String
  stopLossPercent : Option JsNumber
  takeProfitPercent : Option JsNumber
  warmupCandles : Option JsNumber
  sha256 : Option String
deriving DecidableEq, Repr

/-- A policy with the two percentages and nothing else. -/
def SuppliedPolicy.ofPercents (stopLossPercent takeProfitPercent : Option JsNumber) :
    SuppliedPolicy where
  policyId := none
  positionPolicyId := none
  sizingPolicyId := none
  fillPolicyId := none
  oppositeSignalPolicyId := none
  stopLossPercent
  takeProfitPercent
  warmupCandles := none
  sha256 := none

structure SentimentDatasetSnapshotRef where
  id : String
  relatedCoin : String
  rangeFrom : String
  rangeTo : String
  aggregationWindowSeconds : JsNumber
  modelName : String
  modelVersion : String
  modelSha256 : String
  pointCount : JsNumber
  sha256 : String
  createdAt : String
deriving DecidableEq, Repr

structure MarketPairMetadata where
  baseAsset : String
  quoteAsset : String
  settlementAsset : String
deriving DecidableEq, Repr

structure StoredBenchmarkScope where
  id : String
  ownerUserId : String
  datasetSnapshotId : String
  pairMetadata : MarketPairMetadata
  sentimentDatasetSnapshot : Option SentimentDatasetSnapshotRef
  workerRuntimeVersion : String
  workerRuntimeSha256 : String
  pair : String
  timeframe : Timeframe
  warmupCapacityCandles : Nat
  initialCapital : JsNumber
  feeRatePercent : JsNumber
  slippageBps : JsNumber
  riskPolicy : Option RiskPolicy
  scoreFormulaId : String
deriving DecidableEq, Repr

structure StartBacktestCommand where
  leaderboardScopeId : String
  strategyDefinitions : Option (List StrategyDefinition)
  compositeDefinition : Option CompositeStrategyDefinition
  strategyDefinitionIds : Option (List String)
  compositeDefinitionId : Option String
  executionPolicy : Option SuppliedPolicy
  maxAttempts : JsNumber
  searchRunId : Option String
  iterationNumber : Option Nat
deriving DecidableEq, Repr

structure StrategyDescriptor where
  name : String
  category : Option String
  implementationSha256 : String
  implementationVersion : Option String
  minimumHistoryCandles : Option JsNumber
  requiresSentiment : Option Bool
deriving DecidableEq, Repr

structure StrategyApi where
  listStrategies : Option (List StrategyDescriptor)
  resolveStrategy : StrategyDefinition → Except String Strategy
  /-- The signals are given with the ids of the definitions they come from. -/
  combineSignals : CompositeStrategyDefinition → List (String × String) → Except String String
  readDefinitions : String → List String → Except String (List StrategyDefinition)
  readComposite : String → String → Except String CompositeStrategyDefinition

structure SentimentPoint where
  label : String
  averageScore : JsNumber
deriving DecidableEq, Repr

structure SentimentApi where
  getSnapshotRef : String → Except String SentimentDatasetSnapshotRef
  /-- The reader of a snapshot, asked for a snapshot id and a candle's close. -/
  readSnapshot : String → Except String (String → String → Option SentimentPoint)

structure Dependencies where
  calendar : Calendar
  /-- The ISO text of a stored instant. -/
  isoText : Int → String
  strategy : StrategyApi
  sentiment : Option SentimentApi
  /-- The candles of an input snapshot. -/
  readInputSnapshot : String → Option (List Candle)
  /-- Queues a job or says why not. -/
  enqueue : BacktestQueueJob → Except String Unit

/-- What the benchmark scopes are kept in. A scope is written once, under a generated id. -/
abbrev ScopeTable := Cryptox.Library.Table StoredBenchmarkScope.id

def readScope (scopes : ScopeTable) (scopeId : String) (ownerUserId : Option String) :
    Option StoredBenchmarkScope :=
  (scopes.get? scopeId).filter fun scope => ownerUserId.all fun owner => scope.ownerUserId == owner

/-- The scope as the service reads it, for an owner or for itself. -/
def findScope (scopes : ScopeTable) (scopeId : String) (ownerUserId : Option String) :
    Except String StoredBenchmarkScope :=
  match readScope scopes scopeId ownerUserId with
  | some scope => .ok scope
  | none => .error "BACKTEST_SCOPE_NOT_FOUND"

def Dependencies.snapshot (deps : Dependencies) (snapshotId : String) : Except String (List Candle) :=
  match deps.readInputSnapshot snapshotId with
  | some candles => .ok candles
  | none => .error "BACKTEST_DATASET_NOT_FOUND"

end Cryptox.Backtesting
