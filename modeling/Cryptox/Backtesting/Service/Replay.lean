import Cryptox.Evaluation.Evaluator
import Cryptox.Backtesting.Repository.Trades
import Cryptox.Backtesting.Service.Completion
import Cryptox.Backtesting.Service.Execution

/-!
# Verifying an experiment by a replay

`verifyReplay` reads what an experiment was made from, runs the simulation again and compares the
two field by field. A trade's field is compared by what `JSON.stringify` makes of it; amounts are
their exact values.
-/
namespace Cryptox.Backtesting

open Cryptox.Library (throwIf)
open Cryptox.Evaluation (EvaluationMetrics SharpeRatioStatus ProfitFactorStatus)

/-- An experiment with what a replay is compared to. -/
structure ExperimentRecord extends StoredExperiment where
  executionPolicy : Option ExecutionPolicySnapshot
  metrics : EvaluationMetrics
  trades : List Trade
deriving Repr

abbrev ExperimentTable := Cryptox.Library.Table fun (record : ExperimentRecord) => record.id

/-- The result `processCompletion` evaluates: the completed attempt with its stored trades. -/
def completionResult (deps : Dependencies) (scope : StoredBenchmarkScope)
    (attempt : BacktestAttemptAudit) (candidateId : String) (trades : List Trade) (now : Int) :
    CompletedBacktestResult where
  candidateId
  attemptId := attempt.attemptId.text
  workerRuntimeVersion := attempt.workerRuntimeVersion
  workerRuntimeSha256 := attempt.workerRuntimeSha256
  startedAt := deps.isoText attempt.startedAt
  completedAt := deps.isoText (attempt.completedAt.getD now)
  initialCapital := scope.initialCapital
  trades

/-- The experiment that `processCompletion` makes of a claimed candidate, out of what it reads. -/
def completionRecord (deps : Dependencies)
    (evaluate : CompletedBacktestResult → Except String EvaluationMetrics)
    (score : String → EvaluationMetrics → Except String Scored) (storage : Storage)
    (scopes : ScopeTable) (repository : RepositoryState) (candidate : StoredCandidate)
    (experimentId : String) (now : Int) : Except String ExperimentRecord :=
  match storage.readLatestCompletedAttempt repository candidate.candidateId with
  | none => .error "BACKTEST_COMPLETION_ATTEMPT_NOT_FOUND"
  | some attempt => do
    let scope ← findScope scopes candidate.leaderboardScopeId none
    let result := completionResult deps scope attempt candidate.candidateId
      (listTrades repository attempt.attemptId) now
    let metrics ← evaluate result
    let scored ← score scope.id metrics
    return {
      completionExperiment candidate scope attempt scored experimentId now with
      executionPolicy := candidate.executionPolicy
      metrics
      trades := result.trades }

/-- The fields of a trade. -/
inductive TradeField where
  | id | sequence | pair | settlementAsset | backtestAttemptId | signal | entryTime
  | marketEntryPrice | entryPrice | stopLoss | takeProfit | exitTime | marketExitPrice | exitPrice
  | exitReason | quantity | notionalEntryValue | equityBeforeTrade | equityAfterTrade | grossProfit
  | feeAmount | slippageBps | slippageAmount | profit | resultPercent | result
deriving DecidableEq, Repr

def TradeField.name : TradeField → String
  | id => "id"
  | sequence => "sequence"
  | pair => "pair"
  | settlementAsset => "settlementAsset"
  | backtestAttemptId => "backtestAttemptId"
  | signal => "signal"
  | entryTime => "entryTime"
  | marketEntryPrice => "marketEntryPrice"
  | entryPrice => "entryPrice"
  | stopLoss => "stopLoss"
  | takeProfit => "takeProfit"
  | exitTime => "exitTime"
  | marketExitPrice => "marketExitPrice"
  | exitPrice => "exitPrice"
  | exitReason => "exitReason"
  | quantity => "quantity"
  | notionalEntryValue => "notionalEntryValue"
  | equityBeforeTrade => "equityBeforeTrade"
  | equityAfterTrade => "equityAfterTrade"
  | grossProfit => "grossProfit"
  | feeAmount => "feeAmount"
  | slippageBps => "slippageBps"
  | slippageAmount => "slippageAmount"
  | profit => "profit"
  | resultPercent => "resultPercent"
  | result => "result"

/-- What `JSON.stringify` tells apart of the compared values. -/
inductive Json where
  | undefined
  | null
  | text (value : String)
  | number (value : ℚ)
  | policy (value : ExecutionPolicySnapshot)
deriving DecidableEq, Repr

namespace Json

def amount (value : Decimal) : Json := .number value.toRat

/-- What is not finite is written as `null`. -/
def ofNumber : JsNumber → Json
  | .finite shown => .number shown.toRat
  | _ => .null

def signal : Signal → Json
  | .long => .text "LONG"
  | .short => .text "SHORT"

def exitReason : ExitReason → Json
  | .stopLoss => .text "STOP_LOSS"
  | .takeProfit => .text "TAKE_PROFIT"
  | .strategyClose => .text "STRATEGY_CLOSE"
  | .rangeEnd => .text "RANGE_END"

def tradeResult : TradeResult → Json
  | .win => .text "WIN"
  | .loss => .text "LOSS"
  | .breakeven => .text "BREAKEVEN"

def profitFactorStatus : ProfitFactorStatus → Json
  | .finite => .text "FINITE"
  | .noTrades => .text "NO_TRADES"
  | .noLosses => .text "NO_LOSSES"
  | .noGrossMovement => .text "NO_GROSS_MOVEMENT"

def sharpeRatioStatus : SharpeRatioStatus → Json
  | .finite => .text "FINITE"
  | .insufficientObservations => .text "INSUFFICIENT_OBSERVATIONS"
  | .zeroVariance => .text "ZERO_VARIANCE"

end Json

def Trade.value (trade : Trade) : TradeField → Json
  | .id => .text trade.id
  | .sequence => .number trade.sequence
  | .pair => .text trade.pair
  | .settlementAsset => .text trade.settlementAsset
  | .backtestAttemptId => .text trade.backtestAttemptId
  | .signal => .signal trade.signal
  | .entryTime => .text trade.entryTime
  | .marketEntryPrice => .amount trade.marketEntryPrice
  | .entryPrice => .amount trade.entryPrice
  | .stopLoss => trade.stopLoss.elim .null .amount
  | .takeProfit => trade.takeProfit.elim .null .amount
  | .exitTime => .text trade.exitTime
  | .marketExitPrice => .amount trade.marketExitPrice
  | .exitPrice => .amount trade.exitPrice
  | .exitReason => .exitReason trade.exitReason
  | .quantity => .amount trade.quantity
  | .notionalEntryValue => .amount trade.notionalEntryValue
  | .equityBeforeTrade => .amount trade.equityBeforeTrade
  | .equityAfterTrade => .amount trade.equityAfterTrade
  | .grossProfit => .amount trade.grossProfit
  | .feeAmount => .amount trade.feeAmount
  | .slippageBps => .ofNumber trade.slippageBps
  | .slippageAmount => .amount trade.slippageAmount
  | .profit => .amount trade.profit
  | .resultPercent => .amount trade.resultPercent
  | .result => .tradeResult trade.result

/-- The fields that `verifyReplay` lists. -/
def tradeFields : List TradeField :=
  [.id, .sequence, .entryTime, .entryPrice, .exitTime, .exitPrice, .quantity, .equityBeforeTrade,
    .equityAfterTrade, .feeAmount, .slippageAmount, .profit, .resultPercent, .result]

/-- The field of the trade at an index of a list, which may be too short. -/
def tradeValue (trades : List Trade) (index : Nat) (field : TradeField) : Json :=
  (trades[index]?).elim .undefined (·.value field)

/-- The metrics by their keys; every stored record has all of them. -/
def metricValues (metrics : EvaluationMetrics) : List (String × Json) :=
  [("candidateId", .text metrics.candidateId),
    ("totalReturnPercent", .number metrics.totalReturnPercent),
    ("winRatePercent", .number metrics.winRatePercent),
    ("numberOfTrades", .number metrics.numberOfTrades),
    ("maxDrawdownPercent", .number metrics.maxDrawdownPercent),
    ("profitFactor", metrics.profitFactor.elim .null .number),
    ("profitFactorStatus", .profitFactorStatus metrics.profitFactorStatus),
    ("sharpeRatio", .number metrics.sharpeRatio),
    ("sharpeRatioStatus", .sharpeRatioStatus metrics.sharpeRatioStatus),
    ("evaluationPolicyId", .text metrics.evaluationPolicyId),
    ("evaluationRuntimeVersion", .text metrics.evaluationRuntimeVersion),
    ("evaluationRuntimeSha256", .text metrics.evaluationRuntimeSha256)]

structure ReplayMismatch where
  fieldPath : String
  expected : Json
  actual : Json
deriving DecidableEq, Repr

def compare (fieldPath : String) (expected actual : Json) : List ReplayMismatch :=
  if expected = actual then [] else [⟨fieldPath, expected, actual⟩]

inductive ReplayStatus where
  | matched | mismatched
deriving DecidableEq, Repr

structure LegacyReplayVerificationResult where
  experimentId : String
  sourceAttemptId : AttemptId
  status : ReplayStatus
  comparedTradeCount : Nat
  mismatches : List ReplayMismatch
  totalMismatchCount : Nat
  truncated : Bool
deriving DecidableEq, Repr

/-- An experiment beside what running it again gave. -/
structure Replay where
  experiment : ExperimentRecord
  attempt : BacktestAttemptAudit
  result : CompletedBacktestResult
  metrics : EvaluationMetrics
  replayPolicy : ExecutionPolicySnapshot

namespace Replay

variable (replay : Replay)

def tradeCount : Nat := max replay.experiment.trades.length replay.result.trades.length

def tradeMismatches : List ReplayMismatch :=
  (List.range replay.tradeCount).flatMap fun index => tradeFields.flatMap fun field =>
    compare ("trades[" ++ toString index ++ "]." ++ field.name)
      (tradeValue replay.experiment.trades index field) (tradeValue replay.result.trades index field)

def metricMismatches : List ReplayMismatch :=
  ((metricValues replay.experiment.metrics).zip (metricValues replay.metrics)).flatMap
    fun (expected, actual) => compare ("metrics." ++ expected.1) expected.2 actual.2

def mismatches : List ReplayMismatch :=
  compare "trades.length" (.number replay.experiment.trades.length)
      (.number replay.result.trades.length)
    ++ replay.tradeMismatches ++ replay.metricMismatches
    ++ compare "executionPolicy" (.policy (replay.experiment.executionPolicy.getD replay.replayPolicy))
      (.policy replay.replayPolicy)

def sampleLimit : Nat := 50

def answer : LegacyReplayVerificationResult where
  experimentId := replay.experiment.id
  sourceAttemptId := replay.attempt.attemptId
  status := if replay.mismatches.length = 0 then .matched else .mismatched
  comparedTradeCount := replay.tradeCount
  mismatches := replay.mismatches.take sampleLimit
  totalMismatchCount := replay.mismatches.length
  truncated := sampleLimit < replay.mismatches.length

end Replay

/-- What a verification reads. -/
structure ReplayRecords where
  scopes : ScopeTable
  repository : RepositoryState
  experiments : ExperimentTable

namespace ReplayRecords

variable (records : ReplayRecords)

def readExperimentSummary (userId experimentId : String) : Except String ExperimentRecord :=
  match (records.experiments.get? experimentId).filter (·.ownerUserId == userId) with
  | some experiment => .ok experiment
  | none => .error "EXPERIMENT_NOT_FOUND"

def ownedCandidate (userId candidateId : String) : Except String StoredCandidate :=
  match (records.repository.candidates.get? candidateId).filter (·.ownerUserId == userId) with
  | some candidate => .ok candidate
  | none => .error "BACKTEST_CANDIDATE_NOT_FOUND"

/-- An attempt is read by the owner of its candidate. -/
def readAttempt (userId : String) (attemptId : AttemptId) : Except String BacktestAttemptAudit :=
  match (records.repository.attempts.get? attemptId).filter fun attempt =>
      (records.ownedCandidate userId attempt.candidateId).toBool with
  | some attempt => .ok attempt
  | none => .error "BACKTEST_ATTEMPT_NOT_FOUND"

end ReplayRecords

section

variable (policyHash : NormalizedPolicy → String) (deps : Dependencies)
  (evaluate : CompletedBacktestResult → Except String EvaluationMetrics) (records : ReplayRecords)
  (userId experimentId : String)

/-- The first half of `verifyReplay`: everything is read, and the simulation run again. -/
def rerun : Except String Replay := do
  throwIf (isBlank userId) "INVALID_AUTH_CONTEXT"
  let experiment ← records.readExperimentSummary userId experimentId
  let candidate ← records.ownedCandidate userId experiment.candidateId
  let scope ← findScope records.scopes experiment.leaderboardScopeId (some userId)
  let attempt ← records.readAttempt userId experiment.backtestAttemptId
  let input ← replayInput deps scope candidate attempt
  let result ← simulateBacktest deps.calendar input
  let metrics ← evaluate result
  let replayPolicy ← match candidate.executionPolicy with
    | some policy => .ok policy
    | none =>
      normalizeExecutionPolicy policyHash none (some candidate.warmupCandles) scope.riskPolicy
  return { experiment, attempt, result, metrics, replayPolicy }

def verifyReplay : Except String LegacyReplayVerificationResult := do
  let replay ← rerun policyHash deps evaluate records userId experimentId
  return replay.answer

end

end Cryptox.Backtesting
