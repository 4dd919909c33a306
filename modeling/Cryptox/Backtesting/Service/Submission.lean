import Cryptox.Library.Outcome
import Cryptox.Backtesting.Service.Inputs

/-!
# Submitting a backtest

`submit` resolves the strategies and the scope, seals the execution policy and stores the queued
candidate with its dispatch.
-/
namespace Cryptox.Backtesting

open Cryptox.Library (throwIf)

def fillPolicyId : String := "NEXT_OPEN_OHLC_STOP_FIRST_V2"
def oppositeSignalPolicyId : String := "CLOSE_AND_REVERSE_NEXT_OPEN_V1"
def positionPolicyId : String := "TWO_SIDED_ONE_X_V1"
def sizingPolicyId : String := "FULL_CURRENT_EQUITY_FEE_AWARE_V1"
def maxWarmupCandles : JsNumber := .ofInt 10000

/-- A policy before it is sealed. -/
structure NormalizedPolicy where
  policyId : String
  positionPolicyId : String
  sizingPolicyId : String
  fillPolicyId : String
  oppositeSignalPolicyId : String
  stopLossPercent : Option JsNumber
  takeProfitPercent : Option JsNumber
  warmupCandles : Nat
deriving DecidableEq, Repr

def NormalizedPolicy.sealed (policy : NormalizedPolicy) (sha256 : String) :
    ExecutionPolicySnapshot where
  policyId := policy.policyId
  positionPolicyId := policy.positionPolicyId
  sizingPolicyId := policy.sizingPolicyId
  fillPolicyId := policy.fillPolicyId
  oppositeSignalPolicyId := policy.oppositeSignalPolicyId
  stopLossPercent := policy.stopLossPercent
  takeProfitPercent := policy.takeProfitPercent
  warmupCandles := policy.warmupCandles
  sha256

def validRiskPercent : Option JsNumber → Bool
  | none => true
  | some value => value.isFinite && (JsNumber.ofInt 0).lt value && value.lt (.ofInt 100)

/-- A supplied snapshot names every identifier, the warm-up and the hash of what it normalizes
to. -/
def snapshotMatches (supplied : SuppliedPolicy) (normalized : NormalizedPolicy) (sha256 : String) :
    Bool :=
  supplied.warmupCandles == some (.ofInt normalized.warmupCandles)
    && supplied.positionPolicyId == some normalized.positionPolicyId
    && supplied.sizingPolicyId == some normalized.sizingPolicyId
    && supplied.fillPolicyId == some normalized.fillPolicyId
    && supplied.oppositeSignalPolicyId == some normalized.oppositeSignalPolicyId
    && supplied.sha256 == some sha256

/-- The fallback counts only where no policy at all is supplied. -/
def normalizeExecutionPolicy (policyHash : NormalizedPolicy → String)
    (supplied : Option SuppliedPolicy) (warmupCandles : Option Nat) (fallback : Option RiskPolicy) :
    Except String ExecutionPolicySnapshot := do
  let stopLossPercent := match supplied with
    | none => fallback.bind (·.stopLossPercent)
    | some policy => policy.stopLossPercent
  let takeProfitPercent := match supplied with
    | none => fallback.bind (·.takeProfitPercent)
    | some policy => policy.takeProfitPercent
  throwIf (!validRiskPercent stopLossPercent || !validRiskPercent takeProfitPercent
    || ((supplied.bind (·.policyId)).any fun policyId => policyId != positionPolicyId))
    "INVALID_EXECUTION_POLICY"
  let normalized : NormalizedPolicy :=
    { policyId := positionPolicyId, positionPolicyId, sizingPolicyId, fillPolicyId,
      oppositeSignalPolicyId, stopLossPercent, takeProfitPercent,
      warmupCandles := warmupCandles.getD 0 }
  let sha256 := policyHash normalized
  throwIf (supplied.any fun policy =>
    policy.sha256.isSome && !snapshotMatches policy normalized sha256) "INVALID_EXECUTION_POLICY"
  return normalized.sealed sha256

structure StrategyRequirements where
  warmupCandles : Nat
  requiresSentiment : Bool
deriving DecidableEq, Repr

def describes (definition : StrategyDefinition) (descriptor : StrategyDescriptor) : Bool :=
  descriptor.name == definition.strategyName
    && descriptor.implementationSha256 == definition.implementationSha256
    && descriptor.implementationVersion.all fun version =>
      version.isEmpty || version == definition.implementationVersion

/-- The largest history any of the definitions asks for, and whether one needs sentiment. -/
def collectRequirements (descriptors : List StrategyDescriptor) :
    List StrategyDefinition → StrategyRequirements → Except String StrategyRequirements
  | [], required => .ok required
  | definition :: rest, required =>
    match descriptors.find? (describes definition) with
    | none => .error "IMPLEMENTATION_ARTIFACT_UNAVAILABLE"
    | some descriptor => do
      let minimum := descriptor.minimumHistoryCandles.getD (.ofInt 0)
      throwIf (!minimum.isInteger || minimum.lt (.ofInt 0) || maxWarmupCandles.lt minimum)
        "INVALID_STRATEGY_DESCRIPTOR"
      collectRequirements descriptors rest
        { warmupCandles := max required.warmupCandles minimum.toNat
          requiresSentiment := required.requiresSentiment
            || descriptor.requiresSentiment == some true
            || descriptor.category == some "INFORMATION" }

def strategyRequirements (strategy : StrategyApi) (definitions : List StrategyDefinition) :
    Except String StrategyRequirements :=
  match strategy.listStrategies.getD [] with
  | [] => .ok ⟨0, false⟩
  | descriptors => collectRequirements descriptors definitions ⟨0, false⟩

structure StrategyReferences where
  strategyDefinitions : List StrategyDefinition
  compositeDefinition : CompositeStrategyDefinition
  requirements : StrategyRequirements

/-- The definition with an id; of two with the same id a map keeps the later one. -/
def definitionWithId (definitions : List StrategyDefinition) (id : String) :
    Except String StrategyDefinition :=
  match definitions.reverse.find? (·.id == id) with
  | some definition => .ok definition
  | none => .error "STRATEGY_DEFINITION_NOT_FOUND"

/-- The composite as it is read, every failure being answered with the same error. -/
def readComposite (strategy : StrategyApi) (ownerUserId compositeId : String) :
    Except String CompositeStrategyDefinition :=
  match strategy.readComposite ownerUserId compositeId with
  | .ok composite => .ok composite
  | .error _ => .error "COMPOSITE_STRATEGY_NOT_FOUND"

/-- The strategy module answers `readDefinitions` with the definitions of the ids asked for, so
that each component finds its definition. -/
def validateStrategyReferences (strategy : StrategyApi) (ownerUserId : String)
    (command : StartBacktestCommand) : Except String StrategyReferences := do
  let requestedIds : List String := (command.strategyDefinitionIds.or
    (command.strategyDefinitions.map fun definitions => definitions.map (·.id))).getD []
  throwIf (requestedIds.isEmpty || decide ¬ requestedIds.Nodup) "STRATEGY_DEFINITION_NOT_FOUND"
  let definitions ← strategy.readDefinitions ownerUserId requestedIds
  throwIf (definitions.length != requestedIds.length) "STRATEGY_DEFINITION_NOT_FOUND"
  let compositeId :=
    (command.compositeDefinitionId.or (command.compositeDefinition.map (·.id))).getD ""
  throwIf compositeId.isEmpty "COMPOSITE_STRATEGY_NOT_FOUND"
  let composite ← readComposite strategy ownerUserId compositeId
  let componentIds : List String := composite.components.map (·.strategyDefinitionId)
  throwIf (componentIds.length != requestedIds.length || decide ¬ componentIds.Nodup
    || componentIds.any fun id => !requestedIds.contains id) "STRATEGY_DEFINITION_MISMATCH"
  let strategyDefinitions ← componentIds.mapM (definitionWithId definitions)
  let requirements ← strategyRequirements strategy strategyDefinitions
  return ⟨strategyDefinitions, composite, requirements⟩

/-- Who submits, the id generated for the candidate, and the time. -/
structure SubmissionRequest where
  ownerUserId : String
  origin : Origin
  submissionIdempotencyKey : Option String
  candidateId : String
  now : Int
deriving DecidableEq, Repr

def candidateRecord (request : SubmissionRequest) (scope : StoredBenchmarkScope)
    (command : StartBacktestCommand) (references : StrategyReferences)
    (executionPolicy : ExecutionPolicySnapshot) : Except String StoredCandidate := do
  throwIf (!command.maxAttempts.isInteger || command.maxAttempts.lt (.ofInt 1))
    "INVALID_BACKTEST_SUBMISSION"
  let search : Bool := request.origin == .search
  return {
    candidateId := request.candidateId
    ownerUserId := request.ownerUserId
    origin := request.origin
    searchRunId := if search then command.searchRunId else none
    iterationNumber := if search then command.iterationNumber else none
    leaderboardScopeId := scope.id
    status := .queued
    maxAttempts := command.maxAttempts.toNat
    activeAttemptNumber := none
    completionAttemptCount := 0
    completionMaxAttempts := 5
    completionNextRetryAt := none
    experimentResultId := none
    failureKind := none
    failureCode := none
    lastError := none
    warmupCandles := references.requirements.warmupCandles
    executionPolicy := some executionPolicy
    strategyDefinitions := references.strategyDefinitions
    compositeDefinition := references.compositeDefinition
    queueJobId := request.candidateId
    executionGeneration := 0
    activeFenceToken := none
    activeLeaseExpiresAt := none
    completionGeneration := 0
    activeCompletionClaimToken := none
    activeCompletionLeaseExpiresAt := none
    createdAt := request.now
    updatedAt := request.now }

def dispatchRecord (candidate : StoredCandidate) (scope : StoredBenchmarkScope) (now : Int) :
    BacktestDispatch where
  job :=
    { jobId := candidate.candidateId, candidateId := candidate.candidateId,
      leaderboardScopeId := scope.id, maxAttempts := candidate.maxAttempts,
      workerRuntimeVersion := scope.workerRuntimeVersion,
      workerRuntimeSha256 := scope.workerRuntimeSha256, enqueuedAt := now }
  state := .pending
  dispatchAttempts := 0
  lastError := none
  dispatchedAt := none
  createdAt := now
  updatedAt := now

/-- A pending dispatch goes to the queue, and its row says whether the queue took it. -/
def dispatchOne (deps : Dependencies) (storage : Storage) (repository : RepositoryState)
    (dispatch : BacktestDispatch) (now : Int) : RepositoryState :=
  if dispatch.state ≠ .pending then repository
  else
    match deps.enqueue dispatch.job with
    | .ok () => storage.markDispatchDispatched repository dispatch.jobId now
    | .error error => storage.markDispatchFailed repository dispatch.jobId error now

/-- Everything `submit` checks, up to the record it stores. -/
def prepareSubmission (policyHash : NormalizedPolicy → String) (deps : Dependencies)
    (scopes : ScopeTable) (command : StartBacktestCommand) (request : SubmissionRequest) :
    Except String (StoredBenchmarkScope × StoredCandidate) := do
  let scope ← findScope scopes command.leaderboardScopeId (some request.ownerUserId)
  let references ← validateStrategyReferences deps.strategy request.ownerUserId command
  let warmupCandles := references.requirements.warmupCandles
  throwIf (scope.warmupCapacityCandles < warmupCandles) "SNAPSHOT_INCOMPLETE"
  let candles ← deps.snapshot scope.datasetSnapshotId
  throwIf ((candles.filter (·.isClosed)).length < warmupCandles) "SNAPSHOT_INCOMPLETE"
  let _ ← loadSentiment deps scope candles references.requirements.requiresSentiment
  let executionPolicy ←
    normalizeExecutionPolicy policyHash command.executionPolicy (some warmupCandles) scope.riskPolicy
  let candidate ← candidateRecord request scope command references executionPolicy
  return (scope, candidate)

structure BacktestSubmissionAccepted where
  candidateId : String
  jobId : String
  status : CandidateStatus
deriving DecidableEq, Repr

def StoredCandidate.accepted (candidate : StoredCandidate) : BacktestSubmissionAccepted :=
  ⟨candidate.candidateId, candidate.queueJobId, candidate.status⟩

/-- The candidate already submitted under the owner's key; an empty key is no key. -/
def alreadySubmitted (storage : Storage) (repository : RepositoryState)
    (request : SubmissionRequest) : Option StoredCandidate :=
  (request.submissionIdempotencyKey.filter (!·.isEmpty)).bind
    (storage.findCandidateBySubmission repository request.ownerUserId)

def submit (policyHash : NormalizedPolicy → String) (deps : Dependencies) (storage : Storage)
    (scopes : ScopeTable) (repository : RepositoryState) (command : StartBacktestCommand)
    (request : SubmissionRequest) : RepositoryState × Except String BacktestSubmissionAccepted :=
  match alreadySubmitted storage repository request with
  | some existing => (repository, .ok existing.accepted)
  | none =>
    match prepareSubmission policyHash deps scopes command request with
    | .error error => (repository, .error error)
    | .ok (scope, candidate) =>
      let dispatch := dispatchRecord candidate scope request.now
      match storage.createQueuedSubmission repository candidate dispatch
          request.submissionIdempotencyKey with
      | (created, .error error) => (created, .error error)
      | (created, .ok saved) =>
        let persistedDispatch :=
          if saved.candidateId = candidate.candidateId then some dispatch
          else created.dispatches.get? saved.queueJobId
        let dispatched := match persistedDispatch with
          | some dispatch => dispatchOne deps storage created dispatch request.now
          | none => created
        (dispatched, .ok saved.accepted)

end Cryptox.Backtesting
