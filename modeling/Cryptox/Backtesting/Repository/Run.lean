import Cryptox.Library.GuardedSystem
import Cryptox.Backtesting.Repository.InMemory
import Cryptox.Backtesting.Repository.Postgres

/-!
# Interleaved runs of the repository operations

Workers, completion processors, the watchdog, queue signals and users share one repository. A
step is one operation by one of them, with the arguments its caller computed; a run is any list
of steps. Beside the repository the state keeps the latest instant seen, the candidate rows that
were read so far, and the worker claims that were granted.
-/
namespace Cryptox.Backtesting

open Cryptox.Library

inductive Storage where
  | inMemory | postgres
deriving DecidableEq, Repr

inductive Step where
  | tick (now : Int)
  | submit (candidate : StoredCandidate) (dispatch : BacktestDispatch) (key : Option String)
  | read (candidateId : String)
  | claimWorkerAttempt (input : WorkerClaimInput)
  | persistWorkerSuccess (input : WorkerSuccessInput)
  | failWorkerAttempt (input : WorkerFailureInput)
  | recoverAbandonedAttempt (candidateId : String) (now : Int) (error : String)
  | repairTerminalQueueFailure (candidateId error : String) (now : Int)
  | claimCompletion (candidateId claimToken : String) (now leaseExpiresAt : Int)
  | finalizeCompletion (copy : StoredCandidate) (experimentId claimToken : String) (now : Int)
  | finalizeTerminalFailure (copy : StoredCandidate) (claimToken : String) (now : Int)
  | failCompletion (copy : StoredCandidate) (claimToken : String) (retryAt : Option Int) (now : Int)
      (error : String)
  | cancel (copy : StoredCandidate) (now : Int)
  | markDispatchCancelled (jobId : String) (now : Int)

def Step.isSubmit : Step → Bool
  | submit .. => true
  | _ => false

/-- The record of a submission: what `candidateRecord` sets whatever the command. -/
def StoredCandidate.submitted (candidate : StoredCandidate) : StoredCandidate :=
  { candidate with
    status := .queued
    activeAttemptNumber := none
    completionAttemptCount := 0
    completionMaxAttempts := 5
    completionNextRetryAt := none
    experimentResultId := none
    failureKind := none
    failureCode := none
    lastError := none
    queueJobId := candidate.candidateId
    executionGeneration := 0
    activeFenceToken := none
    activeLeaseExpiresAt := none
    completionGeneration := 0
    activeCompletionClaimToken := none
    activeCompletionLeaseExpiresAt := none }

namespace Storage

def createQueuedSubmission : Storage → RepositoryState → StoredCandidate → BacktestDispatch →
    Option String → RepositoryState × Except String StoredCandidate
  | inMemory => InMemory.createQueuedSubmission
  | postgres => Postgres.createQueuedSubmission

def findCandidateBySubmission : Storage → RepositoryState → String → String →
    Option StoredCandidate
  | inMemory => InMemory.findCandidateBySubmission
  | postgres => Postgres.findCandidateBySubmission

def updateCandidate : Storage → RepositoryState → StoredCandidate → RepositoryState
  | inMemory => InMemory.updateCandidate
  | postgres => Postgres.updateCandidate

def markDispatchDispatched : Storage → RepositoryState → String → Int → RepositoryState
  | inMemory => InMemory.markDispatchDispatched
  | postgres => Postgres.markDispatchDispatched

def markDispatchFailed : Storage → RepositoryState → String → String → Int → RepositoryState
  | inMemory => InMemory.markDispatchFailed
  | postgres => Postgres.markDispatchFailed

def markDispatchCancelled : Storage → RepositoryState → String → Int → RepositoryState
  | inMemory => InMemory.markDispatchCancelled
  | postgres => Postgres.markDispatchCancelled

def recoverAbandonedAttempt : Storage → RepositoryState → String → Int → String →
    RepositoryState × Except String Bool
  | inMemory => InMemory.recoverAbandonedAttempt
  | postgres => Postgres.recoverAbandonedAttempt

def claimable : Storage → StoredCandidate → Int → Bool
  | inMemory => InMemory.claimable
  | postgres => Postgres.claimable

def claimWorkerAttempt : Storage → RepositoryState → WorkerClaimInput →
    RepositoryState × Except String (Option WorkerAttemptClaim)
  | inMemory => InMemory.claimWorkerAttempt
  | postgres => Postgres.claimWorkerAttempt

def failWorkerAttempt : Storage → RepositoryState → WorkerFailureInput →
    RepositoryState × Except String Unit
  | inMemory => InMemory.failWorkerAttempt
  | postgres => Postgres.failWorkerAttempt

def repairTerminalQueueFailure : Storage → RepositoryState → String → String → Int →
    RepositoryState × Except String Unit
  | inMemory => InMemory.repairTerminalQueueFailure
  | postgres => Postgres.repairTerminalQueueFailure

def persistWorkerSuccess : Storage → RepositoryState → WorkerSuccessInput →
    RepositoryState × Except String Unit
  | inMemory => InMemory.persistWorkerSuccess
  | postgres => Postgres.persistWorkerSuccess

def claimCompletion : Storage → RepositoryState → String → String → Int → Int →
    RepositoryState × Except String (Option CompletionProcessingClaim)
  | inMemory => InMemory.claimCompletion
  | postgres => Postgres.claimCompletion

def finalizeCompletion : Storage → RepositoryState → StoredCandidate → String → String → Int →
    RepositoryState × Except String Unit
  | inMemory => InMemory.finalizeCompletion
  | postgres => Postgres.finalizeCompletion

def finalizeTerminalFailure : Storage → RepositoryState → StoredCandidate → String → Int →
    RepositoryState × Except String Unit
  | inMemory => InMemory.finalizeTerminalFailure
  | postgres => Postgres.finalizeTerminalFailure

def failCompletion : Storage → RepositoryState → StoredCandidate → String → Option Int → Int →
    String → RepositoryState × Except String Unit
  | inMemory => InMemory.failCompletion
  | postgres => Postgres.failCompletion

def readLatestCompletedAttempt : Storage → RepositoryState → String →
    Option BacktestAttemptAudit
  | inMemory => InMemory.readLatestCompletedAttempt
  | postgres => Postgres.readLatestCompletedAttempt

def listDueCompletions : Storage → Postgres.ScanOrder → RepositoryState → Int → Nat → List String
  | inMemory, _ => InMemory.listDueCompletions
  | postgres, scan => Postgres.listDueCompletions scan

variable (storage : Storage)

/-- The repository after a step. A cancellation writes back the row it read. -/
def apply (state : RepositoryState) : Step → RepositoryState
  | .tick _ | .read _ => state
  | .submit candidate dispatch key =>
    (storage.createQueuedSubmission state candidate.submitted dispatch key).1
  | .claimWorkerAttempt input => (storage.claimWorkerAttempt state input).1
  | .persistWorkerSuccess input => (storage.persistWorkerSuccess state input).1
  | .failWorkerAttempt input => (storage.failWorkerAttempt state input).1
  | .recoverAbandonedAttempt candidateId now error =>
    (storage.recoverAbandonedAttempt state candidateId now error).1
  | .repairTerminalQueueFailure candidateId error now =>
    (storage.repairTerminalQueueFailure state candidateId error now).1
  | .claimCompletion candidateId claimToken now leaseExpiresAt =>
    (storage.claimCompletion state candidateId claimToken now leaseExpiresAt).1
  | .finalizeCompletion copy experimentId claimToken now =>
    (storage.finalizeCompletion state copy experimentId claimToken now).1
  | .finalizeTerminalFailure copy claimToken now =>
    (storage.finalizeTerminalFailure state copy claimToken now).1
  | .failCompletion copy claimToken retryAt now error =>
    (storage.failCompletion state copy claimToken retryAt now error).1
  | .cancel copy now => storage.updateCandidate state (copy.cancelledAt now)
  | .markDispatchCancelled jobId now => storage.markDispatchCancelled state jobId now

/-- The worker claim that a step is granted: the candidate and the fence token. -/
def granted (state : RepositoryState) : Step → Option (String × String)
  | .claimWorkerAttempt input =>
    match (storage.claimWorkerAttempt state input).2 with
    | .ok (some _) => some (input.candidateId, input.fenceToken)
    | _ => none
  | _ => none

end Storage

/-- The latest instant seen, once a step with its own instant is done. -/
def Step.clock (clock : Int) : Step → Int
  | submit .. | read .. => clock
  | tick now | recoverAbandonedAttempt _ now _ | repairTerminalQueueFailure _ _ now
  | claimCompletion _ _ now _ | finalizeCompletion _ _ _ now | finalizeTerminalFailure _ _ now
  | failCompletion _ _ _ now _ | cancel _ now | markDispatchCancelled _ now => max clock now
  | claimWorkerAttempt input => max clock input.now
  | persistWorkerSuccess input => max clock input.completedAt
  | failWorkerAttempt input => max clock input.now

structure World where
  repository : RepositoryState
  clock : Int
  /-- The rows read so far, whoever read them. -/
  copies : List StoredCandidate
  /-- The worker claims granted so far, the latest first. -/
  granted : List (String × String)

namespace World

def start : World := ⟨.empty, 0, [], []⟩

/-- The row a candidate has now. -/
def stored (world : World) (candidateId : String) : Option StoredCandidate :=
  world.repository.candidates.get? candidateId

/-- The fence token of the latest claim granted for a candidate. -/
def latestToken (world : World) (candidateId : String) : Option String :=
  (world.granted.find? fun claim => claim.1 == candidateId).map (·.2)

/-- What a step adds to the rows read so far. -/
def seen (world : World) : Step → List StoredCandidate
  | .read candidateId => (world.stored candidateId).toList
  | _ => []

/-- What a caller guarantees: candidate ids are generated, a worker claims under the attempt id of
its delivery, hands back an attempt of its candidate and trades of that attempt, completion writes
and cancellations use a row that was read, and the services cancel no terminal row. -/
def enabled (world : World) : Step → Prop
  | .submit candidate dispatch _ =>
    (world.stored candidate.candidateId).isNone ∧ dispatch.jobId = candidate.candidateId
      ∧ dispatch.candidateId = candidate.candidateId
  | .claimWorkerAttempt input => input.attemptId = .delivery input.candidateId input.deliveryAttempt
  | .persistWorkerSuccess input => input.attemptId.candidateId = input.candidateId
      ∧ ∀ trade ∈ input.trades, trade.backtestAttemptId = input.attemptId.text
  | .failWorkerAttempt input => input.attemptId.candidateId = input.candidateId
  | .finalizeCompletion copy .. | .finalizeTerminalFailure copy .. | .failCompletion copy .. =>
    copy ∈ world.copies
  | .cancel copy _ => copy ∈ world.copies ∧ terminal copy.status = false
  | _ => True

instance (world : World) : ∀ step, Decidable (world.enabled step)
  | .submit .. => inferInstanceAs (Decidable (_ ∧ _))
  | .claimWorkerAttempt input => inferInstanceAs (Decidable (input.attemptId = _))
  | .persistWorkerSuccess input => inferInstanceAs (Decidable (_ ∧ ∀ trade ∈ input.trades, _))
  | .failWorkerAttempt input => inferInstanceAs (Decidable (input.attemptId.candidateId = _))
  | .finalizeCompletion copy .. | .finalizeTerminalFailure copy .. | .failCompletion copy .. =>
    inferInstanceAs (Decidable (copy ∈ world.copies))
  | .cancel copy _ => inferInstanceAs (Decidable (copy ∈ world.copies ∧ _))
  | .tick _ | .read _ | .recoverAbandonedAttempt .. | .repairTerminalQueueFailure ..
  | .claimCompletion .. | .markDispatchCancelled .. =>
    inferInstanceAs (Decidable True)

end World

namespace Storage

variable (storage : Storage)

def next (world : World) (step : Step) : World where
  repository := storage.apply world.repository step
  clock := step.clock world.clock
  copies := world.seen step ++ world.copies
  granted := (storage.granted world.repository step).toList ++ world.granted

def system : GuardedSystem World Step where
  enabled := World.enabled
  next := storage.next

instance (world : World) (step : Step) : Decidable (storage.system.enabled world step) :=
  inferInstanceAs (Decidable (world.enabled step))

/-- The world after a run from the empty repository. -/
def after (steps : List Step) : World := storage.system.run World.start steps

theorem after_append (steps later : List Step) :
    storage.after (steps ++ later) = storage.system.run (storage.after steps) later :=
  GuardedSystem.run_append World.start steps later

end Storage

/-! One submitted candidate and its deliveries, for the concrete runs. -/
namespace Sample

def candidate : StoredCandidate :=
  StoredCandidate.submitted
    { candidateId := "c", ownerUserId := "u", origin := .manual, searchRunId := none,
      iterationNumber := none, leaderboardScopeId := "s", status := .queued, maxAttempts := 3,
      activeAttemptNumber := none, completionAttemptCount := 0, completionMaxAttempts := 5,
      completionNextRetryAt := none, experimentResultId := none, failureKind := none,
      failureCode := none, lastError := none, warmupCandles := 0, executionPolicy := none,
      strategyDefinitions := [], compositeDefinition := ⟨"composite", .majorityVote, [], none⟩,
      queueJobId := "c", executionGeneration := 0, activeFenceToken := none,
      activeLeaseExpiresAt := none, completionGeneration := 0, activeCompletionClaimToken := none,
      activeCompletionLeaseExpiresAt := none, createdAt := 0, updatedAt := 0 }

def dispatch : BacktestDispatch where
  job := ⟨"c", "c", "s", 3, "1.0.0", "ab", 0⟩
  state := .pending
  dispatchAttempts := 0
  lastError := none
  dispatchedAt := none
  createdAt := 0
  updatedAt := 0

/-- A delivery claims the candidate for a minute. -/
def delivery (number : Nat) (fenceToken : String) (now : Int) : WorkerClaimInput where
  candidateId := "c"
  queueJobId := "c"
  deliveryAttempt := number
  attemptId := .delivery "c" number
  fenceToken
  now
  leaseExpiresAt := now + 60000
  workerRuntimeVersion := "1.0.0"
  workerRuntimeSha256 := "ab"

def success (number : Nat) (fenceToken : String) (completedAt : Int) : WorkerSuccessInput :=
  ⟨"c", .delivery "c" number, fenceToken, completedAt, []⟩

def failure (number : Nat) (fenceToken : String) (retrying : Bool) (now : Int) :
    WorkerFailureInput :=
  ⟨"c", .delivery "c" number, fenceToken, retrying, now, "BACKTEST_EXECUTION_FAILED"⟩

end Sample

end Cryptox.Backtesting
