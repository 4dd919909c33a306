import Cryptox.Backtesting.Repository.State

/-!
# The PostgreSQL repository

Each operation is one transaction: it throws and leaves the state as it was, or it commits. The
error of a broken unique constraint is the server's.
-/
namespace Cryptox.Backtesting.Postgres

/-- The order in which the server delivers the rows of a table. `ORDER BY` leaves those that agree in
its column in this order, and nothing determines it. -/
structure ScanOrder where
  candidates : List StoredCandidate → List StoredCandidate
  candidates_perm : ∀ rows, (candidates rows).Perm rows
  dispatches : List BacktestDispatch → List BacktestDispatch
  dispatches_perm : ∀ rows, (dispatches rows).Perm rows

/-- Every table in the order of its insertions. -/
def ScanOrder.inserted : ScanOrder := ⟨id, .refl, id, .refl⟩

def uniqueViolation : String := "duplicate key value violates unique constraint"

/-- The row an `INSERT` makes of a submitted candidate: the columns it leaves out take their
defaults. -/
def insertedRow (candidate : StoredCandidate) : StoredCandidate :=
  { candidate with
    activeAttemptNumber := none
    completionNextRetryAt := none
    experimentResultId := none
    failureKind := none
    failureCode := none
    lastError := none
    executionGeneration := 0
    activeFenceToken := none
    activeLeaseExpiresAt := none
    completionGeneration := 0
    activeCompletionClaimToken := none
    activeCompletionLeaseExpiresAt := none }

def findCandidateBySubmission (state : RepositoryState) (ownerUserId key : String) :
    Option StoredCandidate :=
  (state.candidateIdempotency.get? (ownerUserId, key)).bind fun row =>
    state.candidates.get? row.candidateId

def findIteration (state : RepositoryState) (candidate : StoredCandidate) : Option StoredCandidate :=
  if candidate.searchRunId.isSome && candidate.iterationNumber.isSome then
    state.candidates.rows.find? fun stored =>
      stored.searchRunId == candidate.searchRunId && stored.iterationNumber == candidate.iterationNumber
  else none

def createQueuedSubmission (state : RepositoryState) (candidate : StoredCandidate)
    (dispatch : BacktestDispatch) (key : Option String) :
    RepositoryState × Except String StoredCandidate :=
  match findIteration state candidate with
  | some existing => (state, .ok existing)
  | none =>
    if (state.candidates.get? candidate.candidateId).isSome
        || key.any (fun key => (state.candidateIdempotency.get? (candidate.ownerUserId, key)).isSome)
        || (state.dispatches.get? dispatch.jobId).isSome then
      (state, .error uniqueViolation)
    else
      let created := state.putCandidate (insertedRow candidate)
      let keyed := match key with
        | none => created
        | some key =>
          { created with
            candidateIdempotency :=
              created.candidateIdempotency.put ⟨candidate.ownerUserId, key, candidate.candidateId⟩ }
      (keyed.putDispatch dispatch, .ok candidate)

/-- The columns an `UPDATE` of a candidate names; the others keep what is stored. -/
def overwritten (stored candidate : StoredCandidate) : StoredCandidate :=
  { stored with
    status := candidate.status
    activeAttemptNumber := candidate.activeAttemptNumber
    completionAttemptCount := candidate.completionAttemptCount
    completionMaxAttempts := candidate.completionMaxAttempts
    completionNextRetryAt := candidate.completionNextRetryAt
    completionGeneration := candidate.completionGeneration
    activeCompletionClaimToken := candidate.activeCompletionClaimToken
    activeCompletionLeaseExpiresAt := candidate.activeCompletionLeaseExpiresAt
    experimentResultId := candidate.experimentResultId
    failureKind := candidate.failureKind
    failureCode := candidate.failureCode
    lastError := candidate.lastError
    executionGeneration := candidate.executionGeneration
    activeFenceToken := candidate.activeFenceToken
    activeLeaseExpiresAt := candidate.activeLeaseExpiresAt
    updatedAt := candidate.updatedAt }

def updateCandidate (state : RepositoryState) (candidate : StoredCandidate) : RepositoryState :=
  match state.candidates.get? candidate.candidateId with
  | none => state
  | some stored => state.putCandidate (overwritten stored candidate)

def markDispatchDispatched (state : RepositoryState) (jobId : String) (dispatchedAt : Int) :
    RepositoryState :=
  match state.dispatches.get? jobId with
  | none => state
  | some dispatch =>
    if dispatch.state = .cancelled then state else state.putDispatch (dispatch.sent dispatchedAt)

def markDispatchFailed (state : RepositoryState) (jobId error : String) (now : Int) :
    RepositoryState :=
  match state.dispatches.get? jobId with
  | none => state
  | some dispatch =>
    if dispatch.state = .cancelled then state else state.putDispatch (dispatch.unsent error now)

def markDispatchCancelled (state : RepositoryState) (jobId : String) (now : Int) : RepositoryState :=
  match state.dispatches.get? jobId with
  | none => state
  | some dispatch => state.putDispatch { dispatch with state := .cancelled, updatedAt := now }

/-- The running attempt with the highest number. -/
def runningAttempt (state : RepositoryState) (candidateId : String) : Option BacktestAttemptAudit :=
  (((state.attemptsOf candidateId).filter fun attempt => attempt.status == .running).insertionSort
    fun left right => right.attemptNumber ≤ left.attemptNumber).head?

def redispatch (state : RepositoryState) (candidateId : String) (now : Int) (error : String) :
    RepositoryState :=
  match state.dispatches.rows.find? fun dispatch => dispatch.candidateId == candidateId with
  | none => state
  | some dispatch =>
    if dispatch.state = .cancelled then state
    else
      state.putDispatch
        { dispatch with state := .pending, lastError := some error, updatedAt := now }

def recoverAbandonedAttempt (state : RepositoryState) (candidateId : String) (now : Int)
    (error : String) : RepositoryState × Except String Bool :=
  match state.candidates.get? candidateId with
  | none => (state, .ok false)
  | some candidate =>
    if candidate.status = .backtesting ∧ candidate.activeLeaseExpiresAt.any (· ≤ now) then
      let running := runningAttempt state candidateId
      let failed := state.failRunning candidate running now error
      let attemptNumber := candidate.activeAttemptNumber.getD
        ((running.map (·.attemptNumber)).getD candidate.maxAttempts)
      let retrying : Bool := attemptNumber < candidate.maxAttempts
      let updated := failed.putCandidate (candidate.recovered retrying now error)
      (if retrying then redispatch updated candidateId now error else updated, .ok true)
    else (state, .ok false)

/-- The statuses in which a worker may claim; in `BACKTESTING` there must be a lease, and it must
have run out. -/
def claimable (candidate : StoredCandidate) (now : Int) : Bool :=
  match candidate.status with
  | .queued | .retryWait => true
  | .backtesting => candidate.activeLeaseExpiresAt.any fun lease => lease ≤ now
  | _ => false

/-- The attempt row in conflict with an insertion for this candidate and delivery number. -/
def attemptNumbered (state : RepositoryState) (candidateId : String) (attemptNumber : Nat) :
    Option BacktestAttemptAudit :=
  (state.attemptsOf candidateId).find? fun attempt => attempt.attemptNumber == attemptNumber

/-- The numbers of a candidate's attempts are unique. -/
def listAttempts (state : RepositoryState) (candidateId : String) : List BacktestAttemptAudit :=
  (state.attemptsOf candidateId).insertionSort fun left right =>
    left.attemptNumber ≤ right.attemptNumber

def candidateFrom (state : RepositoryState) (row : StoredCandidate) : ReadCandidate :=
  ⟨row, listAttempts state row.candidateId⟩

/-- The claim that is answered once the candidate and its attempt are written. -/
def workerClaimed (state : RepositoryState) (candidate : StoredCandidate)
    (attempt : BacktestAttemptAudit) (fenceToken : String) :
    RepositoryState × Except String (Option WorkerAttemptClaim) :=
  let claimed := (state.putAttempt attempt).putCandidate candidate
  (claimed, .ok (some ⟨candidateFrom claimed candidate, attempt, fenceToken⟩))

def claimWorkerAttempt (state : RepositoryState) (input : WorkerClaimInput) :
    RepositoryState × Except String (Option WorkerAttemptClaim) :=
  match state.candidates.get? input.candidateId with
  | none => (state, .ok none)
  | some candidate =>
    if candidate.queueJobId = input.queueJobId ∧ claimable candidate input.now then
      let updated := candidate.claimed input
      match attemptNumbered state input.candidateId input.deliveryAttempt with
      | some attempt => workerClaimed state updated (attempt.claimed input) input.fenceToken
      | none =>
        if (state.attempts.get? input.attemptId).isSome then (state, .error uniqueViolation)
        else workerClaimed state updated (input.newAttempt.claimed input) input.fenceToken
    else (state, .ok none)

/-- The statuses that the worker writes of this repository accept. -/
def workerWritable (status : CandidateStatus) : Bool :=
  status == .backtesting || status == .cancelled

/-- The candidate and the attempt a worker write may change: both carry the token, the attempt is
running and the candidate is running or cancelled. -/
def fenced (state : RepositoryState) (candidateId : String) (attemptId : AttemptId)
    (fenceToken : String) : Option (StoredCandidate × BacktestAttemptAudit) :=
  match state.candidates.get? candidateId, state.attempts.get? attemptId with
  | some candidate, some attempt =>
    if candidate.activeFenceToken = some fenceToken ∧ attempt.fenceToken = some fenceToken
        ∧ attempt.status = .running ∧ workerWritable candidate.status then some (candidate, attempt)
    else none
  | _, _ => none

def failWorkerAttempt (state : RepositoryState) (input : WorkerFailureInput) :
    RepositoryState × Except String Unit :=
  match fenced state input.candidateId input.attemptId input.fenceToken with
  | none => (state, .error "BACKTEST_FENCE_LOST")
  | some (candidate, attempt) =>
    let cancelled : Bool := candidate.status = .cancelled
    let failed := attempt.failedAs
      (if cancelled then .cancelledAudit else if input.retrying then .retryable else .infrastructure)
      input.now input.error
    let updated :=
      if cancelled then
        { candidate.released input.now with
          failureKind := none, failureCode := none, lastError := none }
      else candidate.workerFailed input.retrying input.now input.error
    ((state.putAttempt failed).putCandidate updated, .ok ())

def repairTerminalQueueFailure (state : RepositoryState) (candidateId error : String) (now : Int) :
    RepositoryState × Except String Unit :=
  match state.candidates.get? candidateId with
  | none => (state, .ok ())
  | some candidate =>
    if terminal candidate.status ∨ candidate.status = .terminalFailurePending then (state, .ok ())
    else
      let failed := state.failRunning candidate (runningAttempt state candidateId) now error
      -- the candidate itself is updated in the statuses before the result only
      if candidate.status = .queued ∨ candidate.status = .backtesting ∨
          candidate.status = .retryWait then
        (failed.putCandidate (candidate.repaired now error), .ok ())
      else (failed, .ok ())

/-- A protective price is missing or positive. -/
def validRiskField : Option Decimal → Bool
  | none => true
  | some price => 0 < price.units

/-- The rows of an attempt after the trades of a result are inserted one by one. Trade ids are made
of the attempt's id, so only trades of one attempt can clash. -/
def saveTrades (stored : List Trade) : List Trade → Except String (List Trade)
  | [] => .ok stored
  | trade :: rest =>
    if !validRiskField trade.stopLoss || !validRiskField trade.takeProfit then
      .error "BACKTEST_INVALID_TRADE_RISK_FIELD"
    else if stored.any fun old => old.sequence == trade.sequence || old.id == trade.id then
      .error uniqueViolation
    else saveTrades (stored ++ [trade]) rest

/-- The trades table after the insertions; without trades there is no row. -/
def insertTrades (state : RepositoryState) (attemptId : AttemptId) (trades : List Trade) :
    Except String RepositoryState :=
  if trades.isEmpty then .ok state
  else do
    let rows ← saveTrades (((state.trades.get? attemptId).map (·.trades)).getD []) trades
    return state.putTrades attemptId rows

def persistWorkerSuccess (state : RepositoryState) (input : WorkerSuccessInput) :
    RepositoryState × Except String Unit :=
  match fenced state input.candidateId input.attemptId input.fenceToken with
  | none => (state, .error "BACKTEST_FENCE_LOST")
  | some (candidate, attempt) =>
    let auditOnly : Bool := candidate.status = .cancelled
    let completed := attempt.completed auditOnly input.trades.length input.completedAt
    match insertTrades (state.putAttempt completed) input.attemptId input.trades with
    | .error error => (state, .error error)
    | .ok inserted =>
      let pending :=
        if candidate.status = .cancelled then
          { candidate.released input.completedAt with completionNextRetryAt := none }
        else candidate.persisted input.completedAt
      (inserted.putCandidate pending, .ok ())

def claimCompletion (state : RepositoryState) (candidateId claimToken : String)
    (now leaseExpiresAt : Int) : RepositoryState × Except String (Option CompletionProcessingClaim) :=
  match state.candidates.get? candidateId with
  | none => (state, .ok none)
  | some candidate =>
    if candidate.completionDue now ∧
        candidate.completionAttemptCount < candidate.completionMaxAttempts then
      let claimed := candidate.completionClaimed claimToken now leaseExpiresAt
      let after := state.putCandidate claimed
      (after, .ok (some ⟨candidateFrom after claimed, claimToken⟩))
    else (state, .ok none)

/-- The row written longest ago comes first; of rows written at one instant, any may. -/
def listDueCompletions (scan : ScanOrder) (state : RepositoryState) (now : Int) (limit : Nat) :
    List String :=
  ((((scan.candidates state.candidates.rows).filter fun candidate => candidate.completionDue now
      && decide (candidate.completionAttemptCount < candidate.completionMaxAttempts)).insertionSort
    fun left right => left.updatedAt ≤ right.updatedAt).take limit).map (·.candidateId)

def readLatestCompletedAttempt (state : RepositoryState) (candidateId : String) :
    Option BacktestAttemptAudit :=
  (((state.attemptsOf candidateId).filter fun attempt => attempt.status == .completed).insertionSort
    fun left right => right.attemptNumber ≤ left.attemptNumber).head?

def findExperimentByCandidate (state : RepositoryState) (candidateId : String) :
    Option StoredExperiment :=
  state.experiments.rows.find? fun stored => stored.candidateId == candidateId

/-- The experiment to go on with, and whether this insert made it. A conflict on the candidate does
nothing; the id and the attempt are unique as well. -/
def stageCompletionExperiment (state : RepositoryState) (experiment : StoredExperiment) :
    Except String (StoredExperiment × Bool) :=
  match findExperimentByCandidate state experiment.candidateId with
  | some existing => .ok (existing, false)
  | none =>
    if (state.experiments.get? experiment.id).isSome
        || (state.experiments.rows.any fun stored =>
          stored.backtestAttemptId == experiment.backtestAttemptId) then
      .error uniqueViolation
    else .ok (experiment, true)

def finalizeCompletion (state : RepositoryState) (copy : StoredCandidate)
    (experimentId claimToken : String) (now : Int) : RepositoryState × Except String Unit :=
  state.fencedWrite copy claimToken now (· == .processingResult)
    fun candidate => candidate.completionFinalized experimentId now

def finalizeTerminalFailure (state : RepositoryState) (copy : StoredCandidate) (claimToken : String)
    (now : Int) : RepositoryState × Except String Unit :=
  state.fencedWrite copy claimToken now (· == .terminalFailurePending)
    fun candidate => candidate.terminalFailureFinalized now

/-- No status is required here, and the budget and the kind are those of the caller's copy. -/
def failCompletion (state : RepositoryState) (copy : StoredCandidate) (claimToken : String)
    (retryAt : Option Int) (now : Int) (error : String) : RepositoryState × Except String Unit :=
  state.fencedWrite copy claimToken now (fun _ => true)
    fun candidate => candidate.completionFailed copy retryAt now error

end Cryptox.Backtesting.Postgres
