import Cryptox.Backtesting.Repository.State

/-!
# The in-memory repository

Each operation returns the state it leaves and what it answers or throws.
-/
namespace Cryptox.Backtesting.InMemory

def findCandidateBySubmission (state : RepositoryState) (ownerUserId key : String) :
    Option StoredCandidate :=
  (state.candidateIdempotency.get? (ownerUserId, key)).bind fun row =>
    state.candidates.get? row.candidateId

/-- The candidate already stored for the same iteration of the same search run. -/
def findIteration (state : RepositoryState) (candidate : StoredCandidate) : Option StoredCandidate :=
  if candidate.searchRunId.isSome && candidate.iterationNumber.isSome then
    state.candidates.rows.find? fun stored =>
      stored.searchRunId == candidate.searchRunId && stored.iterationNumber == candidate.iterationNumber
  else none

/-- An empty key is no key. -/
def createCandidate (state : RepositoryState) (candidate : StoredCandidate) (key : Option String) :
    RepositoryState :=
  { state.putCandidate candidate with
    candidateIdempotency :=
      state.candidateIdempotency.putOption ((key.filter (!·.isEmpty)).map fun key =>
        ⟨candidate.ownerUserId, key, candidate.candidateId⟩) }

def createQueuedSubmission (state : RepositoryState) (candidate : StoredCandidate)
    (dispatch : BacktestDispatch) (key : Option String) :
    RepositoryState × Except String StoredCandidate :=
  match findIteration state candidate with
  | some existing => (state, .ok existing)
  | none =>
    match (key.filter (!·.isEmpty)).bind
        (findCandidateBySubmission state candidate.ownerUserId) with
    | some existing => (state, .ok existing)
    | none =>
      ((createCandidate state candidate key).putDispatch dispatch, .ok candidate)

def updateCandidate (state : RepositoryState) (candidate : StoredCandidate) : RepositoryState :=
  state.putCandidate candidate

def markDispatchDispatched (state : RepositoryState) (jobId : String) (dispatchedAt : Int) :
    RepositoryState :=
  match state.dispatches.get? jobId with
  | none => state
  | some dispatch =>
    if dispatch.state = .cancelled then state else state.putDispatch (dispatch.sent dispatchedAt)

def markDispatchFailed (state : RepositoryState) (jobId error : String) (now : Int) :
    RepositoryState :=
  match state.dispatches.get? jobId with
  | none => state
  | some dispatch =>
    if dispatch.state = .cancelled then state else state.putDispatch (dispatch.unsent error now)

def markDispatchCancelled (state : RepositoryState) (jobId : String) (now : Int) : RepositoryState :=
  match state.dispatches.get? jobId with
  | none => state
  | some dispatch => state.putDispatch { dispatch with state := .cancelled, updatedAt := now }

/-- The running attempt, the one of the active number first. -/
def runningAttempt (state : RepositoryState) (candidate : StoredCandidate) :
    Option BacktestAttemptAudit :=
  let attempts := state.attemptsOf candidate.candidateId
  (attempts.find? fun attempt =>
    attempt.status == .running && some attempt.attemptNumber == candidate.activeAttemptNumber).or
    (attempts.find? fun attempt => attempt.status == .running)

def redispatch (state : RepositoryState) (jobId : String) (now : Int) (error : String) :
    RepositoryState :=
  match state.dispatches.get? jobId with
  | none => state
  | some dispatch =>
    if dispatch.state = .cancelled then state
    else
      state.putDispatch
        { dispatch with state := .pending, lastError := some error, updatedAt := now }

def recoverAbandonedAttempt (state : RepositoryState) (candidateId : String) (now : Int)
    (error : String) : RepositoryState × Except String Bool :=
  match state.candidates.get? candidateId with
  | none => (state, .ok false)
  | some candidate =>
    if candidate.status = .backtesting ∧ candidate.activeLeaseExpiresAt.any (· ≤ now) then
      let running := runningAttempt state candidate
      let failed := state.failRunning candidate running now error
      let firstRunning := (state.attemptsOf candidateId).find? fun attempt => attempt.status == .running
      let attemptNumber := candidate.activeAttemptNumber.getD
        ((firstRunning.map (·.attemptNumber)).getD candidate.maxAttempts)
      let retrying : Bool := attemptNumber < candidate.maxAttempts
      let updated := failed.putCandidate (candidate.recovered retrying now error)
      (if retrying then redispatch updated candidate.queueJobId now error else updated, .ok true)
    else (state, .ok false)

/-- The statuses in which a worker may claim, an expired lease in `BACKTESTING` included. -/
def claimable (candidate : StoredCandidate) (now : Int) : Bool :=
  match candidate.status with
  | .queued | .retryWait => true
  | .backtesting => !candidate.activeLeaseExpiresAt.any fun lease => now < lease
  | _ => false

def claimWorkerAttempt (state : RepositoryState) (input : WorkerClaimInput) :
    RepositoryState × Except String (Option WorkerAttemptClaim) :=
  match state.candidates.get? input.candidateId with
  | none => (state, .ok none)
  | some candidate =>
    if candidate.queueJobId = input.queueJobId ∧ claimable candidate input.now then
      let attempt := (state.attempts.get? input.attemptId).getD input.newAttempt
      let claimed := attempt.claimed input
      let updated := candidate.claimed input
      ((state.putAttempt claimed).putCandidate updated,
        .ok (some ⟨⟨updated, []⟩, claimed, input.fenceToken⟩))
    else (state, .ok none)

def failWorkerAttempt (state : RepositoryState) (input : WorkerFailureInput) :
    RepositoryState × Except String Unit :=
  match state.candidates.get? input.candidateId, state.attempts.get? input.attemptId with
  | some candidate, some attempt =>
    if candidate.activeFenceToken = some input.fenceToken ∧
        attempt.fenceToken = some input.fenceToken then
      let cancelled : Bool := candidate.status = .cancelled
      let failed := attempt.failedAs
        (if cancelled then .cancelledAudit else if input.retrying then .retryable else .infrastructure)
        input.now input.error
      let updated :=
        if cancelled then candidate.released input.now
        else candidate.workerFailed input.retrying input.now input.error
      ((state.putAttempt failed).putCandidate updated, .ok ())
    else (state, .error "BACKTEST_FENCE_LOST")
  | _, _ => (state, .error "BACKTEST_FENCE_LOST")

def repairTerminalQueueFailure (state : RepositoryState) (candidateId error : String) (now : Int) :
    RepositoryState × Except String Unit :=
  match state.candidates.get? candidateId with
  | none => (state, .ok ())
  | some candidate =>
    if terminal candidate.status ∨ candidate.status = .terminalFailurePending then (state, .ok ())
    else
      let running := (state.attemptsOf candidateId).find? fun attempt => attempt.status == .running
      let failed := state.failRunning candidate running now error
      (failed.putCandidate (candidate.repaired now error), .ok ())

def persistWorkerSuccess (state : RepositoryState) (input : WorkerSuccessInput) :
    RepositoryState × Except String Unit :=
  match state.candidates.get? input.candidateId, state.attempts.get? input.attemptId with
  | some candidate, some attempt =>
    if candidate.activeFenceToken = some input.fenceToken ∧
        attempt.fenceToken = some input.fenceToken then
      let auditOnly : Bool := candidate.status = .cancelled
      let completed := attempt.completed auditOnly input.trades.length input.completedAt
      let pending :=
        if candidate.status = .cancelled then candidate.released input.completedAt
        else candidate.persisted input.completedAt
      (((state.putAttempt completed).putTrades completed.attemptId input.trades).putCandidate pending,
        .ok ())
    else (state, .error "BACKTEST_FENCE_LOST")
  | _, _ => (state, .error "BACKTEST_FENCE_LOST")

def claimCompletion (state : RepositoryState) (candidateId claimToken : String)
    (now leaseExpiresAt : Int) : RepositoryState × Except String (Option CompletionProcessingClaim) :=
  match state.candidates.get? candidateId with
  | none => (state, .ok none)
  | some candidate =>
    if candidate.completionDue now ∧
        candidate.completionAttemptCount < candidate.completionMaxAttempts then
      let claimed := candidate.completionClaimed claimToken now leaseExpiresAt
      (state.putCandidate claimed, .ok (some ⟨⟨claimed, []⟩, claimToken⟩))
    else (state, .ok none)

/-- The completions to claim next, the row written longest ago first. The sort is stable. -/
def listDueCompletions (state : RepositoryState) (now : Int) (limit : Nat) : List String :=
  (((state.candidates.rows.filter fun candidate => candidate.completionDue now).insertionSort
    fun left right => left.updatedAt ≤ right.updatedAt).take limit).map (·.candidateId)

def readLatestCompletedAttempt (state : RepositoryState) (candidateId : String) :
    Option BacktestAttemptAudit :=
  (((state.attemptsOf candidateId).filter fun attempt => attempt.status == .completed).insertionSort
    fun left right => right.attemptNumber ≤ left.attemptNumber).head?

def finalizeCompletion (state : RepositoryState) (copy : StoredCandidate)
    (experimentId claimToken : String) (now : Int) : RepositoryState × Except String Unit :=
  state.fencedWrite copy claimToken now (· == .processingResult)
    fun candidate => candidate.completionFinalized experimentId now

def finalizeTerminalFailure (state : RepositoryState) (copy : StoredCandidate) (claimToken : String)
    (now : Int) : RepositoryState × Except String Unit :=
  state.fencedWrite copy claimToken now (· == .terminalFailurePending)
    fun candidate => candidate.terminalFailureFinalized now

/-- No status is required here. -/
def failCompletion (state : RepositoryState) (copy : StoredCandidate) (claimToken : String)
    (retryAt : Option Int) (now : Int) (error : String) : RepositoryState × Except String Unit :=
  state.fencedWrite copy claimToken now (fun _ => true)
    fun candidate => candidate.completionFailed candidate retryAt now error

end Cryptox.Backtesting.InMemory
