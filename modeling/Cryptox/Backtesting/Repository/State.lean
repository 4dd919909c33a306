import Mathlib.Data.List.Sort
import Cryptox.Library.Table
import Cryptox.Backtesting.Contracts

/-!
# What a backtesting repository stores

Candidates, attempts, trades, dispatches and experiments, and the row updates the operations
share. Instants are milliseconds; the source keeps the ISO text of the same instant.
-/
namespace Cryptox.Backtesting

open Cryptox.Library (Table)

inductive CandidateStatus where
  | created | queued | backtesting | retryWait | processingResult | terminalFailurePending
  | completed | failed | cancelled
deriving DecidableEq, Repr

def terminal : CandidateStatus → Bool
  | .completed | .failed | .cancelled => true
  | _ => false

inductive Origin where
  | manual | search
deriving DecidableEq, Repr

inductive FailureKind where
  | retryExhausted | infrastructure | completionProcessing
deriving DecidableEq, Repr

inductive AttemptStatus where
  | queued | running | retryWait | completed | failed | cancelled
deriving DecidableEq, Repr

inductive FailureCategory where
  | retryable | infrastructure | cancelledAudit
deriving DecidableEq, Repr

inductive DispatchState where
  | pending | dispatched | cancelled
deriving DecidableEq, Repr

/-- The sealed policy of a submission. The identifiers other than the two percentages and the
warm-up are constants of the source. -/
structure ExecutionPolicySnapshot where
  policyId : String
  positionPolicyId : String
  sizingPolicyId : String
  fillPolicyId : String
  oppositeSignalPolicyId : String
  stopLossPercent : Option JsNumber
  takeProfitPercent : Option JsNumber
  warmupCandles : Nat
  sha256 : String
deriving DecidableEq, Repr

structure StoredCandidate where
  candidateId : String
  ownerUserId : String
  origin : Origin
  searchRunId : Option String
  iterationNumber : Option Nat
  leaderboardScopeId : String
  status : CandidateStatus
  maxAttempts : Nat
  activeAttemptNumber : Option Nat
  completionAttemptCount : Nat
  completionMaxAttempts : Nat
  completionNextRetryAt : Option Int
  experimentResultId : Option String
  failureKind : Option FailureKind
  failureCode : Option String
  lastError : Option String
  warmupCandles : Nat
  executionPolicy : Option ExecutionPolicySnapshot
  strategyDefinitions : List StrategyDefinition
  compositeDefinition : CompositeStrategyDefinition
  queueJobId : String
  executionGeneration : Nat
  activeFenceToken : Option String
  activeLeaseExpiresAt : Option Int
  completionGeneration : Nat
  activeCompletionClaimToken : Option String
  activeCompletionLeaseExpiresAt : Option Int
  createdAt : Int
  updatedAt : Int
deriving DecidableEq, Repr

/-- Attempt ids are built from the candidate's id: one for each delivery number, and one for the
attempt that recovery makes up. Candidate ids are generated, so no two of the texts collide. -/
inductive AttemptId where
  | delivery (candidateId : String) (number : Nat)
  | recovery (candidateId : String)
deriving DecidableEq, Repr

namespace AttemptId

def text : AttemptId → String
  | delivery candidateId number => candidateId ++ ":attempt:" ++ toString number
  | recovery candidateId => candidateId ++ ":recovery:attempt:1"

def candidateId : AttemptId → String
  | delivery candidateId _ => candidateId
  | recovery candidateId => candidateId

def number : AttemptId → Nat
  | delivery _ number => number
  | recovery _ => 1

end AttemptId

structure BacktestAttemptAudit where
  attemptId : AttemptId
  candidateId : String
  queueJobId : String
  attemptNumber : Nat
  workerRuntimeVersion : String
  workerRuntimeSha256 : String
  status : AttemptStatus
  tradeCount : Nat
  auditOnly : Bool
  deliveryAttemptCount : Option Nat
  fenceToken : Option String
  leaseExpiresAt : Option Int
  failureCategory : Option FailureCategory
  failureCode : Option String
  errorMessage : Option String
  startedAt : Int
  completedAt : Option Int
deriving DecidableEq, Repr

structure BacktestQueueJob where
  jobId : String
  candidateId : String
  leaderboardScopeId : String
  maxAttempts : Nat
  workerRuntimeVersion : String
  workerRuntimeSha256 : String
  enqueuedAt : Int
deriving DecidableEq, Repr

structure BacktestDispatch where
  job : BacktestQueueJob
  state : DispatchState
  dispatchAttempts : Nat
  lastError : Option String
  dispatchedAt : Option Int
  createdAt : Int
  updatedAt : Int
deriving DecidableEq, Repr

namespace BacktestDispatch

def jobId (dispatch : BacktestDispatch) : String := dispatch.job.jobId

def candidateId (dispatch : BacktestDispatch) : String := dispatch.job.candidateId

def sent (dispatch : BacktestDispatch) (dispatchedAt : Int) : BacktestDispatch :=
  { dispatch with
    state := .dispatched
    dispatchAttempts := dispatch.dispatchAttempts + 1
    dispatchedAt := some dispatchedAt
    lastError := none
    updatedAt := dispatchedAt }

def unsent (dispatch : BacktestDispatch) (error : String) (now : Int) : BacktestDispatch :=
  { dispatch with
    state := .pending
    dispatchAttempts := dispatch.dispatchAttempts + 1
    lastError := some error
    updatedAt := now }

end BacktestDispatch

structure StoredExperiment where
  id : String
  ownerUserId : String
  candidateId : String
  searchRunId : Option String
  leaderboardScopeId : String
  scoreFormulaId : String
  overallScore : JsNumber
  rankEligible : Bool
  backtestAttemptId : AttemptId
  createdAt : Int
deriving DecidableEq, Repr

/-- The candidate an owner's submission key stands for. -/
structure SubmissionKey where
  ownerUserId : String
  key : String
  candidateId : String
deriving DecidableEq, Repr

def SubmissionKey.ofOwner (row : SubmissionKey) : String × String := (row.ownerUserId, row.key)

/-- The trades stored for one attempt. -/
structure AttemptTrades where
  attemptId : AttemptId
  trades : List Trade
deriving Repr

structure RepositoryState where
  candidates : Table StoredCandidate.candidateId
  candidateIdempotency : Table SubmissionKey.ofOwner
  attempts : Table BacktestAttemptAudit.attemptId
  trades : Table AttemptTrades.attemptId
  dispatches : Table BacktestDispatch.jobId
  experiments : Table StoredExperiment.id

namespace RepositoryState

def empty : RepositoryState := ⟨.empty, .empty, .empty, .empty, .empty, .empty⟩

variable (state : RepositoryState)

/-- The attempts of a candidate, in insertion order. -/
def attemptsOf (candidateId : String) : List BacktestAttemptAudit :=
  state.attempts.rows.filter fun attempt => attempt.candidateId == candidateId

def putCandidate (candidate : StoredCandidate) : RepositoryState :=
  { state with candidates := state.candidates.put candidate }

def putAttempt (attempt : BacktestAttemptAudit) : RepositoryState :=
  { state with attempts := state.attempts.put attempt }

def putTrades (attemptId : AttemptId) (trades : List Trade) : RepositoryState :=
  { state with trades := state.trades.put ⟨attemptId, trades⟩ }

def putDispatch (dispatch : BacktestDispatch) : RepositoryState :=
  { state with dispatches := state.dispatches.put dispatch }

end RepositoryState

structure WorkerClaimInput where
  candidateId : String
  queueJobId : String
  deliveryAttempt : Nat
  attemptId : AttemptId
  fenceToken : String
  now : Int
  leaseExpiresAt : Int
  workerRuntimeVersion : String
  workerRuntimeSha256 : String
deriving DecidableEq, Repr

/-- A candidate as a claim answers with it. The list of attempts belongs to the answer: the record in
memory keeps the empty one it was submitted with, and the table has no column for it. -/
structure ReadCandidate extends StoredCandidate where
  attempts : List BacktestAttemptAudit
deriving DecidableEq, Repr

structure WorkerAttemptClaim where
  candidate : ReadCandidate
  attempt : BacktestAttemptAudit
  fenceToken : String
deriving DecidableEq, Repr

/-- Of the candidate and the attempt it is handed, the write reads only the ids. -/
structure WorkerSuccessInput where
  candidateId : String
  attemptId : AttemptId
  fenceToken : String
  completedAt : Int
  trades : List Trade
deriving Repr

structure WorkerFailureInput where
  candidateId : String
  attemptId : AttemptId
  fenceToken : String
  retrying : Bool
  now : Int
  error : String
deriving DecidableEq, Repr

structure CompletionProcessingClaim where
  candidate : ReadCandidate
  claimToken : String
deriving DecidableEq, Repr

namespace StoredCandidate

variable (candidate : StoredCandidate)

/-- No worker holds the candidate any more. -/
def released (now : Int) : StoredCandidate :=
  { candidate with
    activeAttemptNumber := none
    activeFenceToken := none
    activeLeaseExpiresAt := none
    updatedAt := now }

def claimed (input : WorkerClaimInput) : StoredCandidate :=
  { candidate with
    status := .backtesting
    activeAttemptNumber := some input.deliveryAttempt
    executionGeneration := candidate.executionGeneration + 1
    activeFenceToken := some input.fenceToken
    activeLeaseExpiresAt := some input.leaseExpiresAt
    updatedAt := input.now }

def persisted (completedAt : Int) : StoredCandidate :=
  { candidate.released completedAt with
    status := .processingResult
    completionNextRetryAt := some completedAt }

def workerFailed (retrying : Bool) (now : Int) (error : String) : StoredCandidate :=
  { candidate.released now with
    status := if retrying then .retryWait else .terminalFailurePending
    failureKind := if retrying then none else some .retryExhausted
    failureCode := some error
    lastError := some error }

def recovered (retrying : Bool) (now : Int) (error : String) : StoredCandidate :=
  { candidate.released now with
    status := if retrying then .retryWait else .terminalFailurePending
    failureKind := if retrying then none else some .infrastructure
    failureCode := if retrying then none else some error
    lastError := if retrying then none else some error }

def repaired (now : Int) (error : String) : StoredCandidate :=
  { candidate.released now with
    status := .terminalFailurePending
    failureKind := some .infrastructure
    failureCode := some error
    lastError := some error }

def completionClaimed (claimToken : String) (now leaseExpiresAt : Int) : StoredCandidate :=
  { candidate with
    completionAttemptCount := candidate.completionAttemptCount + 1
    completionGeneration := candidate.completionGeneration + 1
    activeCompletionClaimToken := some claimToken
    activeCompletionLeaseExpiresAt := some leaseExpiresAt
    completionNextRetryAt := none
    updatedAt := now }

/-- The completion claim is given up and the candidate moves to `status`. -/
def completionReleased (status : CandidateStatus) (now : Int) : StoredCandidate :=
  { candidate with
    status
    activeCompletionClaimToken := none
    activeCompletionLeaseExpiresAt := none
    completionNextRetryAt := none
    updatedAt := now }

def completionFinalized (experimentId : String) (now : Int) : StoredCandidate :=
  { candidate.completionReleased .completed now with experimentResultId := some experimentId }

def terminalFailureFinalized (now : Int) : StoredCandidate :=
  candidate.completionReleased .failed now

/-- `failCompletion`, where `exhausted`, the kind and the code come from `source`: the stored row
in memory, the caller's copy in the database. -/
def completionFailed (source : StoredCandidate) (retryAt : Option Int) (now : Int)
    (error : String) : StoredCandidate :=
  let exhausted : Bool := source.completionMaxAttempts ≤ source.completionAttemptCount
  { candidate with
    status := if exhausted then .failed else .processingResult
    activeCompletionClaimToken := none
    activeCompletionLeaseExpiresAt := none
    completionNextRetryAt := if exhausted then none else retryAt
    failureKind := if exhausted then some .completionProcessing else source.failureKind
    failureCode := if exhausted then some "COMPLETION_PROCESSING_FAILED" else source.failureCode
    lastError := some error
    updatedAt := now }

/-- What the cancelling service makes of the row it read: the fence stays only where a worker was
running. -/
def cancelledAt (now : Int) : StoredCandidate :=
  { candidate with
    status := .cancelled
    activeFenceToken := if candidate.status = .backtesting then candidate.activeFenceToken else none
    activeLeaseExpiresAt := none
    updatedAt := now }

/-- The completion writers' fence: token, generation and an unexpired lease. -/
def completionFence (copy : StoredCandidate) (claimToken : String) (now : Int) : Bool :=
  candidate.activeCompletionClaimToken == some claimToken
    && candidate.completionGeneration == copy.completionGeneration
    && candidate.activeCompletionLeaseExpiresAt.any fun lease => now < lease

end StoredCandidate

namespace BacktestAttemptAudit

variable (attempt : BacktestAttemptAudit)

def claimed (input : WorkerClaimInput) : BacktestAttemptAudit :=
  { attempt with
    status := .running
    completedAt := none
    deliveryAttemptCount := some input.deliveryAttempt
    fenceToken := some input.fenceToken
    leaseExpiresAt := some input.leaseExpiresAt
    failureCategory := none
    failureCode := none
    errorMessage := none }

def completed (auditOnly : Bool) (tradeCount : Nat) (completedAt : Int) : BacktestAttemptAudit :=
  { attempt with
    status := .completed
    completedAt := some completedAt
    tradeCount
    auditOnly
    leaseExpiresAt := none }

def failedAs (category : FailureCategory) (now : Int) (error : String) : BacktestAttemptAudit :=
  { attempt with
    status := .failed
    completedAt := some now
    leaseExpiresAt := none
    failureCategory := some category
    failureCode := some error
    errorMessage := some error }

end BacktestAttemptAudit

/-- The record a first claim of a delivery number starts from. -/
def WorkerClaimInput.newAttempt (input : WorkerClaimInput) : BacktestAttemptAudit where
  attemptId := input.attemptId
  candidateId := input.candidateId
  queueJobId := input.queueJobId
  attemptNumber := input.deliveryAttempt
  workerRuntimeVersion := input.workerRuntimeVersion
  workerRuntimeSha256 := input.workerRuntimeSha256
  status := .queued
  tradeCount := 0
  auditOnly := false
  deliveryAttemptCount := none
  fenceToken := none
  leaseExpiresAt := none
  failureCategory := none
  failureCode := none
  errorMessage := none
  startedAt := input.now
  completedAt := none

def recoveryRuntimeVersion : String := "RECOVERY_SYNTHETIC_V1"

/-- The sha256 of `recoveryRuntimeVersion`. -/
def recoveryRuntimeSha256 : String := "49fa534db6cb715af20d755851ea8e01d2530b1007595142adb5231d02b46ec5"

/-- The failed attempt that recovery makes up for a candidate without attempts. -/
def recoveryAttempt (candidate : StoredCandidate) (now : Int) (error : String) :
    BacktestAttemptAudit where
  attemptId := .recovery candidate.candidateId
  candidateId := candidate.candidateId
  queueJobId := candidate.queueJobId
  attemptNumber := 1
  workerRuntimeVersion := recoveryRuntimeVersion
  workerRuntimeSha256 := recoveryRuntimeSha256
  status := .failed
  tradeCount := 0
  auditOnly := false
  deliveryAttemptCount := some 0
  fenceToken := none
  leaseExpiresAt := none
  failureCategory := some .infrastructure
  failureCode := some error
  errorMessage := some error
  startedAt := now
  completedAt := some now

/-- The attempts once recovery or repair has failed what was running. -/
def RepositoryState.failRunning (state : RepositoryState) (candidate : StoredCandidate)
    (running : Option BacktestAttemptAudit) (now : Int) (error : String) : RepositoryState :=
  match running with
  | some attempt => state.putAttempt (attempt.failedAs .infrastructure now error)
  | none =>
    if (state.attemptsOf candidate.candidateId).isEmpty then
      state.putAttempt (recoveryAttempt candidate now error)
    else state

/-- The statuses of the completion lane. -/
def completing (status : CandidateStatus) : Bool :=
  status == .processingResult || status == .terminalFailurePending

def StoredCandidate.completionDue (candidate : StoredCandidate) (now : Int) : Bool :=
  completing candidate.status
    && (!candidate.completionNextRetryAt.any fun retry => now < retry)
    && (!candidate.activeCompletionLeaseExpiresAt.any fun lease => now < lease)

/-- A completion write replaces the stored row if the fence holds on it. -/
def RepositoryState.fencedWrite (state : RepositoryState) (copy : StoredCandidate)
    (claimToken : String) (now : Int)
    (allowed : CandidateStatus → Bool) (write : StoredCandidate → StoredCandidate) :
    RepositoryState × Except String Unit :=
  match state.candidates.get? copy.candidateId with
  | some candidate =>
    if allowed candidate.status ∧ candidate.completionFence copy claimToken now then
      (state.putCandidate (write candidate), .ok ())
    else (state, .error "BACKTEST_COMPLETION_FENCE_LOST")
  | none => (state, .error "BACKTEST_COMPLETION_FENCE_LOST")

end Cryptox.Backtesting
