import Cryptox.Backtesting.Service.Submission

/-!
# Executing a candidate

The worker runs the claimed attempt and a replay runs it again; both build the simulator's input
from the candidate's row and the scope.
-/
namespace Cryptox.Backtesting

/-- The first of the two texts that is not empty, else `USDT`. -/
def settlementAsset (metadata : MarketPairMetadata) : String :=
  if !metadata.settlementAsset.isEmpty then metadata.settlementAsset
  else if !metadata.quoteAsset.isEmpty then metadata.quoteAsset
  else "USDT"

/-- What `runClaimedAttempt` passes to `simulateBacktest`. -/
def workerInput (deps : Dependencies) (scope : StoredBenchmarkScope) (claim : WorkerAttemptClaim)
    (job : BacktestQueueJob) : Except String SimulationInput := do
  let candidate := claim.candidate
  let candles ← deps.snapshot scope.datasetSnapshotId
  let strategy ←
    compositeStrategy deps.strategy candidate.strategyDefinitions candidate.compositeDefinition
  let requirements ← strategyRequirements deps.strategy candidate.strategyDefinitions
  let sentimentAt ← loadSentiment deps scope candles requirements.requiresSentiment
  return {
    candidateId := candidate.candidateId
    attemptId := claim.attempt.attemptId.text
    pair := scope.pair
    settlementAsset := settlementAsset scope.pairMetadata
    timeframe := scope.timeframe
    candles
    warmupCandles := some (.ofInt candidate.warmupCandles)
    strategy
    sentimentAt
    initialCapital := scope.initialCapital
    feeRatePercent := scope.feeRatePercent
    slippageBps := some scope.slippageBps
    stopLossPercent := (candidate.executionPolicy.bind (·.stopLossPercent)).or
      (scope.riskPolicy.bind (·.stopLossPercent))
    takeProfitPercent := (candidate.executionPolicy.bind (·.takeProfitPercent)).or
      (scope.riskPolicy.bind (·.takeProfitPercent))
    workerRuntimeVersion := job.workerRuntimeVersion
    workerRuntimeSha256 := job.workerRuntimeSha256
    startedAt := deps.isoText claim.attempt.startedAt
    completedAt := deps.isoText claim.attempt.startedAt }

structure BacktestQueueReturn where
  candidateId : String
  attemptId : AttemptId
  completedAt : Int
deriving DecidableEq, Repr

/-- The end of an attempt that threw: the failure is stored and the error thrown on. -/
def failClaimedAttempt (storage : Storage) (repository : RepositoryState)
    (claim : WorkerAttemptClaim) (job : BacktestQueueJob) (now : Int) (message : String) :
    RepositoryState × Except String BacktestQueueReturn :=
  match storage.failWorkerAttempt repository
      { candidateId := claim.candidate.candidateId, attemptId := claim.attempt.attemptId,
        fenceToken := claim.fenceToken, retrying := claim.attempt.attemptNumber < job.maxAttempts,
        now, error := message } with
  | (state, .ok ()) => (state, .error message)
  | (state, .error error) => (state, .error error)

/-- The source's `runClaimedAttempt`. It has several awaits, so `scopes` is as they are when the
scope is read and `repository` as it is when the result is written. -/
def runClaimedAttempt (deps : Dependencies) (storage : Storage) (scopes : ScopeTable)
    (repository : RepositoryState) (claim : WorkerAttemptClaim) (job : BacktestQueueJob)
    (now : Int) : RepositoryState × Except String BacktestQueueReturn :=
  let simulated := do
    let scope ← findScope scopes claim.candidate.leaderboardScopeId none
    simulateBacktest deps.calendar (← workerInput deps scope claim job)
  match simulated with
  | .error message => failClaimedAttempt storage repository claim job now message
  | .ok result =>
    match storage.persistWorkerSuccess repository
        { candidateId := claim.candidate.candidateId, attemptId := claim.attempt.attemptId,
          fenceToken := claim.fenceToken, completedAt := now, trades := result.trades } with
    | (state, .ok ()) =>
      (state, .ok ⟨claim.candidate.candidateId, claim.attempt.attemptId, now⟩)
    | (state, .error message) => failClaimedAttempt storage state claim job now message

/-- What `verifyReplay` passes to `simulateBacktest`. -/
def replayInput (deps : Dependencies) (scope : StoredBenchmarkScope) (candidate : StoredCandidate)
    (attempt : BacktestAttemptAudit) : Except String SimulationInput := do
  let candles ← deps.snapshot scope.datasetSnapshotId
  let strategy ←
    compositeStrategy deps.strategy candidate.strategyDefinitions candidate.compositeDefinition
  let requirements ← strategyRequirements deps.strategy candidate.strategyDefinitions
  let sentimentAt ← loadSentiment deps scope candles requirements.requiresSentiment
  return {
    candidateId := candidate.candidateId
    attemptId := attempt.attemptId.text
    pair := scope.pair
    settlementAsset := settlementAsset scope.pairMetadata
    timeframe := scope.timeframe
    candles
    warmupCandles := some (.ofInt candidate.warmupCandles)
    strategy
    sentimentAt
    initialCapital := scope.initialCapital
    feeRatePercent := scope.feeRatePercent
    slippageBps := some scope.slippageBps
    stopLossPercent := (candidate.executionPolicy.bind (·.stopLossPercent)).or
      (scope.riskPolicy.bind (·.stopLossPercent))
    takeProfitPercent := (candidate.executionPolicy.bind (·.takeProfitPercent)).or
      (scope.riskPolicy.bind (·.takeProfitPercent))
    workerRuntimeVersion := attempt.workerRuntimeVersion
    workerRuntimeSha256 := attempt.workerRuntimeSha256
    startedAt := deps.isoText attempt.startedAt
    completedAt := deps.isoText (attempt.completedAt.getD attempt.startedAt) }

end Cryptox.Backtesting
