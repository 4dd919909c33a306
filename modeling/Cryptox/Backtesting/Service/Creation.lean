import Cryptox.Backtesting.Service.SearchCandidates

/-!
# Creating candidates and scopes under a key

`submit` and `createBenchmarkScope` as the state machines of their awaits. Any number of calls run
at once, between the operations of workers, users and the watchdog. The generated id names its call.
-/
namespace Cryptox.Backtesting

open Cryptox.Library

structure CreateLeaderboardScopeCommand where
  name : String
  datasetSnapshotId : String
  sentimentDatasetSnapshot : Option SentimentDatasetSnapshotRef
  /-- A sentiment snapshot is to be created. -/
  sentimentCreate : Bool
  initialCapital : JsNumber
  feeRatePercent : JsNumber
  slippageBps : JsNumber
  warmupCapacityCandles : Option JsNumber
  scoreFormulaId : String
  riskPolicy : Option RiskPolicy
  workerRuntimeVersion : String
  workerRuntimeSha256 : String
  evaluationRuntimeSha256 : String
deriving DecidableEq, Repr

def defaultWarmupCapacityCandles : JsNumber := .ofInt 500

namespace CreateLeaderboardScopeCommand

variable (command : CreateLeaderboardScopeCommand)

def warmupCapacity : JsNumber := command.warmupCapacityCandles.getD defaultWarmupCapacityCandles

def validateScope : Except String Unit := do
  throwIf (isBlank command.name || isBlank command.scoreFormulaId
    || !command.initialCapital.isFinite || command.initialCapital.le (.ofInt 0)
    || !command.feeRatePercent.isFinite || command.feeRatePercent.lt (.ofInt 0)
    || !command.slippageBps.isInteger || command.slippageBps.lt (.ofInt 0)
    || !command.warmupCapacity.isInteger || command.warmupCapacity.lt (.ofInt 0)
    || maxWarmupCandles.lt command.warmupCapacity) "INVALID_BENCHMARK_SCOPE"
  throwIf (!isSha256 command.workerRuntimeSha256 || !isSha256 command.evaluationRuntimeSha256)
    "INVALID_BENCHMARK_SCOPE"
  throwIf (command.sentimentDatasetSnapshot.isSome && command.sentimentCreate)
    "INVALID_SENTIMENT_SELECTION"

end CreateLeaderboardScopeCommand

/-- The snapshot of candles that is captured for a scope. -/
structure CapturedSnapshot where
  id : String
  pair : String
  pairMetadata : MarketPairMetadata
  timeframe : Timeframe
deriving DecidableEq, Repr

/-- Who creates a scope, under which key, and the id generated for it. -/
structure ScopeRequest where
  ownerUserId : String
  scopeIdempotencyKey : String
  scopeId : String
deriving DecidableEq, Repr

def benchmarkScope (request : ScopeRequest) (command : CreateLeaderboardScopeCommand)
    (captured : CapturedSnapshot) (sentimentDatasetSnapshot : Option SentimentDatasetSnapshotRef) :
    StoredBenchmarkScope where
  id := request.scopeId
  ownerUserId := request.ownerUserId
  datasetSnapshotId := captured.id
  pairMetadata := captured.pairMetadata
  sentimentDatasetSnapshot
  workerRuntimeVersion := command.workerRuntimeVersion
  workerRuntimeSha256 := command.workerRuntimeSha256
  pair := captured.pair
  timeframe := captured.timeframe
  warmupCapacityCandles := command.warmupCapacity.toNat
  initialCapital := command.initialCapital
  feeRatePercent := command.feeRatePercent
  slippageBps := command.slippageBps
  riskPolicy := command.riskPolicy
  scoreFormulaId := command.scoreFormulaId

/-- The scope an owner's key stands for. -/
structure ScopeKey where
  ownerUserId : String
  key : String
  scopeId : String
deriving DecidableEq, Repr

def ScopeKey.ofOwner (row : ScopeKey) : String × String := (row.ownerUserId, row.key)

structure ScopeStore where
  scopes : ScopeTable
  scopeIdempotency : Table ScopeKey.ofOwner

namespace ScopeStore

def empty : ScopeStore := ⟨.empty, .empty⟩

variable (store : ScopeStore)

def findScopeByIdempotency (ownerUserId key : String) : Option StoredBenchmarkScope :=
  (store.scopeIdempotency.get? (ownerUserId, key)).bind fun row => store.scopes.get? row.scopeId

def put (scope : StoredBenchmarkScope) (key : String) : ScopeStore where
  scopes := store.scopes.put scope
  scopeIdempotency := store.scopeIdempotency.put ⟨scope.ownerUserId, key, scope.id⟩

end ScopeStore

def InMemory.createScope (store : ScopeStore) (scope : StoredBenchmarkScope) (key : String) :
    ScopeStore × Except String StoredBenchmarkScope :=
  (store.put scope key, .ok scope)

/-- The id is the primary key, and an owner's key is unique. -/
def Postgres.createScope (store : ScopeStore) (scope : StoredBenchmarkScope) (key : String) :
    ScopeStore × Except String StoredBenchmarkScope :=
  if (store.scopes.get? scope.id).isSome
      || (store.scopeIdempotency.get? (scope.ownerUserId, key)).isSome then
    (store, .error uniqueViolation)
  else (store.put scope key, .ok scope)

def Storage.createScope : Storage → ScopeStore → StoredBenchmarkScope → String →
    ScopeStore × Except String StoredBenchmarkScope
  | inMemory => InMemory.createScope
  | postgres => Postgres.createScope

/-- Where a call of `submit` waits. -/
inductive SubmissionPhase where
  | started
  | lookedUp
  | prepared (candidate : StoredCandidate) (dispatch : BacktestDispatch)
  /-- In memory: the repository's own look-up has found nothing. -/
  | rechecked (candidate : StoredCandidate) (dispatch : BacktestDispatch)
  /-- In memory: the candidate is stored, its dispatch is not. -/
  | created (candidate : StoredCandidate) (dispatch : BacktestDispatch)
  /-- `createQueuedSubmission` has answered. -/
  | saved (saved : StoredCandidate) (dispatch : BacktestDispatch)
  | dispatching (saved : StoredCandidate) (dispatch : Option BacktestDispatch)
  | returned (answer : Except String BacktestSubmissionAccepted)

structure SubmissionCall where
  request : SubmissionRequest
  command : StartBacktestCommand
  phase : SubmissionPhase

def SubmissionCall.candidateId (call : SubmissionCall) : String := call.request.candidateId

/-- One await of `submit`. -/
inductive SubmissionMove where
  | lookUp
  | prepare (deps : Dependencies)
  | recheck
  | create
  | queue
  | readDispatch
  | dispatchOne (deps : Dependencies) (now : Int)
  /-- The await rejects. -/
  | fail (error : String)

/-- Where a call of `createBenchmarkScope` waits. -/
inductive ScopePhase where
  | started
  | lookedUp
  | captured (scope : StoredBenchmarkScope)
  /-- `createScope` has answered. -/
  | created (scope : StoredBenchmarkScope)
  | returned (answer : Except String StoredBenchmarkScope)

structure ScopeCall where
  request : ScopeRequest
  command : CreateLeaderboardScopeCommand
  phase : ScopePhase

def ScopeCall.scopeId (call : ScopeCall) : String := call.request.scopeId

/-- One await of `createBenchmarkScope`; the market data and the sentiment module answer what they
like. -/
inductive ScopeMove where
  | lookUp
  | capture (captured : CapturedSnapshot)
      (sentimentDatasetSnapshot : Option SentimentDatasetSnapshotRef)
  | create
  | answer
  | fail (error : String)

namespace SubmissionCall

variable (policyHash : NormalizedPolicy → String) (storage : Storage) (scopes : ScopeTable)
  (repository : RepositoryState) (call : SubmissionCall)

def afterLookUp : SubmissionPhase :=
  if isBlank call.request.ownerUserId then .returned (.error "INVALID_AUTH_CONTEXT")
  else
    match alreadySubmitted storage repository call.request with
    | some existing => .returned (.ok existing.accepted)
    | none => .lookedUp

def afterPrepare (deps : Dependencies) : SubmissionPhase :=
  match prepareSubmission policyHash deps scopes call.command call.request with
  | .ok (scope, candidate) => .prepared candidate (dispatchRecord candidate scope call.request.now)
  | .error error => .returned (.error error)

/-- The look-ups at the head of the in-memory `createQueuedSubmission`. -/
def afterRecheck (candidate : StoredCandidate) (dispatch : BacktestDispatch) : SubmissionPhase :=
  match InMemory.findIteration repository candidate with
  | some existing => .saved existing dispatch
  | none =>
    match (call.request.submissionIdempotencyKey.filter (!·.isEmpty)).bind
        (InMemory.findCandidateBySubmission repository candidate.ownerUserId) with
    | some existing => .saved existing dispatch
    | none => .rechecked candidate dispatch

/-- The whole `createQueuedSubmission` of the database, which is one transaction. -/
def afterInsert (candidate : StoredCandidate) (dispatch : BacktestDispatch) :
    RepositoryState × SubmissionPhase :=
  match Postgres.createQueuedSubmission repository candidate dispatch
      call.request.submissionIdempotencyKey with
  | (created, .ok saved) => (created, .saved saved dispatch)
  | (created, .error error) => (created, .returned (.error error))

/-- What a move leaves and where the call goes on; `none` where it does not wait for this move. -/
def advance : SubmissionMove → Option (RepositoryState × SubmissionPhase)
  | .lookUp =>
    match call.phase with
    | .started => some (repository, call.afterLookUp storage repository)
    | _ => none
  | .prepare deps =>
    match call.phase with
    | .lookedUp => some (repository, call.afterPrepare policyHash scopes deps)
    | _ => none
  | .recheck =>
    match storage, call.phase with
    | .inMemory, .prepared candidate dispatch =>
      some (repository, call.afterRecheck repository candidate dispatch)
    | _, _ => none
  | .create =>
    match storage, call.phase with
    | .inMemory, .rechecked candidate dispatch =>
      some (InMemory.createCandidate repository candidate call.request.submissionIdempotencyKey,
        .created candidate dispatch)
    | .postgres, .prepared candidate dispatch =>
      some (call.afterInsert repository candidate dispatch)
    | _, _ => none
  | .queue =>
    match call.phase with
    | .created candidate dispatch =>
      some (repository.putDispatch dispatch, .saved candidate dispatch)
    | _ => none
  | .readDispatch =>
    match call.phase with
    | .saved saved dispatch =>
      some (repository, .dispatching saved
        (if saved.candidateId = call.candidateId then some dispatch
        else repository.dispatches.get? saved.queueJobId))
    | _ => none
  | .dispatchOne deps now =>
    match call.phase with
    | .dispatching saved dispatch =>
      some (dispatch.elim repository
          fun dispatch => Cryptox.Backtesting.dispatchOne deps storage repository dispatch now,
        .returned (.ok saved.accepted))
    | _ => none
  | .fail error =>
    match call.phase with
    | .returned _ => none
    | _ => some (repository, .returned (.error error))

end SubmissionCall

namespace ScopeCall

variable (storage : Storage) (store : ScopeStore) (call : ScopeCall)

def afterLookUp : ScopePhase :=
  if isBlank call.request.ownerUserId then .returned (.error "INVALID_AUTH_CONTEXT")
  else if isBlank call.request.scopeIdempotencyKey then .returned (.error "INVALID_BENCHMARK_SCOPE")
  else
    match store.findScopeByIdempotency call.request.ownerUserId call.request.scopeIdempotencyKey with
    | some existing => .returned (.ok existing)
    | none =>
      match call.command.validateScope with
      | .ok () => .lookedUp
      | .error error => .returned (.error error)

def afterCreate (scope : StoredBenchmarkScope) : ScopeStore × ScopePhase :=
  match storage.createScope store scope call.request.scopeIdempotencyKey with
  | (stored, .ok scope) => (stored, .created scope)
  | (stored, .error error) => (stored, .returned (.error error))

def advance : ScopeMove → Option (ScopeStore × ScopePhase)
  | .lookUp =>
    match call.phase with
    | .started => some (store, call.afterLookUp store)
    | _ => none
  | .capture captured sentimentDatasetSnapshot =>
    match call.phase with
    | .lookedUp =>
      some (store,
        .captured (benchmarkScope call.request call.command captured sentimentDatasetSnapshot))
    | _ => none
  | .create =>
    match call.phase with
    | .captured scope => some (call.afterCreate storage store scope)
    | _ => none
  | .answer =>
    match call.phase with
    | .created scope => some (store, .returned (.ok scope))
    | _ => none
  | .fail error =>
    match call.phase with
    | .returned _ => none
    | _ => some (store, .returned (.error error))

end ScopeCall

structure CreationWorld where
  world : World
  scopes : ScopeStore
  submissions : Table SubmissionCall.candidateId
  creations : Table ScopeCall.scopeId

inductive CreationStep where
  /-- An operation of a worker, a user or the watchdog. -/
  | operation (step : Step)
  | submit (request : SubmissionRequest) (command : StartBacktestCommand)
  | submission (candidateId : String) (move : SubmissionMove)
  | createBenchmarkScope (request : ScopeRequest) (command : CreateLeaderboardScopeCommand)
  | creation (scopeId : String) (move : ScopeMove)

namespace CreationWorld

def start : CreationWorld := ⟨World.start, .empty, .empty, .empty⟩

variable (policyHash : NormalizedPolicy → String) (storage : Storage) (w : CreationWorld)

def repository : RepositoryState := w.world.repository

/-- What the move of a submitting call leaves and where the call goes on. -/
def advanceSubmission (candidateId : String) (move : SubmissionMove) :
    Option (SubmissionCall × RepositoryState × SubmissionPhase) :=
  (w.submissions.get? candidateId).bind fun call =>
    (call.advance policyHash storage w.scopes.scopes w.repository move).map (call, ·)

def advanceCreation (scopeId : String) (move : ScopeMove) :
    Option (ScopeCall × ScopeStore × ScopePhase) :=
  (w.creations.get? scopeId).bind fun call =>
    (call.advance storage w.scopes move).map (call, ·)

def submissionMoved (call : SubmissionCall) (repository : RepositoryState) (phase : SubmissionPhase) :
    CreationWorld :=
  { w with
    world := { w.world with repository }
    submissions := w.submissions.put { call with phase } }

def creationMoved (call : ScopeCall) (scopes : ScopeStore) (phase : ScopePhase) : CreationWorld :=
  { w with scopes, creations := w.creations.put { call with phase } }

/-- Ids are generated, and the search submits without a key. -/
def enabled : CreationStep → Prop
  | .operation step => step.isSubmit = false ∧ w.world.enabled step
  | .submit request _ => (w.submissions.get? request.candidateId).isNone
      ∧ (request.origin = .search → request.submissionIdempotencyKey = none)
  | .submission candidateId move =>
    (w.advanceSubmission policyHash storage candidateId move).isSome
  | .createBenchmarkScope request _ => (w.creations.get? request.scopeId).isNone
  | .creation scopeId move => (w.advanceCreation storage scopeId move).isSome

instance : ∀ step, Decidable (w.enabled policyHash storage step)
  | .operation _ => inferInstanceAs (Decidable (_ ∧ _))
  | .submit .. => inferInstanceAs (Decidable (_ = true ∧ (_ → _)))
  | .submission .. | .createBenchmarkScope .. | .creation .. =>
    inferInstanceAs (Decidable (_ = true))

def next : CreationStep → CreationWorld
  | .operation step => { w with world := storage.next w.world step }
  | .submit request command => { w with submissions := w.submissions.put ⟨request, command, .started⟩ }
  | .submission candidateId move =>
    match w.advanceSubmission policyHash storage candidateId move with
    | none => w
    | some (call, repository, phase) => w.submissionMoved call repository phase
  | .createBenchmarkScope request command =>
    { w with creations := w.creations.put ⟨request, command, .started⟩ }
  | .creation scopeId move =>
    match w.advanceCreation storage scopeId move with
    | none => w
    | some (call, scopes, phase) => w.creationMoved call scopes phase

def system : GuardedSystem CreationWorld CreationStep where
  enabled := enabled policyHash storage
  next := next policyHash storage

instance (step : CreationStep) : Decidable ((system policyHash storage).enabled w step) :=
  inferInstanceAs (Decidable (w.enabled policyHash storage step))

/-- What is stored, and where the calls are, after a run from nothing. -/
def after (steps : List CreationStep) : CreationWorld := (system policyHash storage).run start steps

end CreationWorld

end Cryptox.Backtesting
