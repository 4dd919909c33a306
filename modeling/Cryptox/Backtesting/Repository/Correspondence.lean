import Cryptox.Library.StableSort
import Cryptox.Backtesting.Repository.Running

/-!
# One port, two repositories

The calls of the port that workers and completion processors make, what each repository answers to
them, and the correspondence of the records of the one with the rows of the other. From
corresponding states the two do the same on a call exactly when `SameBranch` holds of it.
-/
namespace Cryptox.Backtesting

open Cryptox.Library

inductive RepositoryCall where
  | claimWorkerAttempt (input : WorkerClaimInput)
  | failWorkerAttempt (input : WorkerFailureInput)
  | persistWorkerSuccess (input : WorkerSuccessInput)
  | recoverAbandonedAttempt (candidateId : String) (now : Int) (error : String)
  | repairTerminalQueueFailure (candidateId error : String) (now : Int)
  | claimCompletion (candidateId claimToken : String) (now leaseExpiresAt : Int)
  | listDueCompletions (now : Int) (limit : Nat)
  | finalizeCompletion (copy : StoredCandidate) (experimentId claimToken : String) (now : Int)
  | finalizeTerminalFailure (copy : StoredCandidate) (claimToken : String) (now : Int)
  | failCompletion (copy : StoredCandidate) (claimToken : String) (retryAt : Option Int) (now : Int)
      (error : String)
  | readLatestCompletedAttempt (candidateId : String)

inductive RepositoryAnswer where
  | done
  | workerClaim (claim : Option WorkerAttemptClaim)
  | recovered (recovered : Bool)
  | completionClaim (claim : Option CompletionProcessingClaim)
  | due (candidateIds : List String)
  | attempt (attempt : Option BacktestAttemptAudit)
deriving DecidableEq, Repr

/-- The answer but for the attempts of a claimed candidate. -/
def RepositoryAnswer.withoutAttempts : RepositoryAnswer → RepositoryAnswer
  | workerClaim claim =>
    .workerClaim (claim.map fun claim => { claim with candidate := ⟨claim.candidate.1, []⟩ })
  | completionClaim claim =>
    .completionClaim (claim.map fun claim => { claim with candidate := ⟨claim.candidate.1, []⟩ })
  | answer => answer

/-- The state a call leaves, and what it answers or throws. -/
abbrev Answered := RepositoryState × Except String RepositoryAnswer

def answered {α : Type} (answer : α → RepositoryAnswer) (result : RepositoryState × Except String α) :
    Answered :=
  (result.1, result.2.map answer)

namespace RepositoryCall

/-- The step of a run that the call is; the two that only read leave everything as it is. -/
def step : RepositoryCall → Step
  | claimWorkerAttempt input => .claimWorkerAttempt input
  | failWorkerAttempt input => .failWorkerAttempt input
  | persistWorkerSuccess input => .persistWorkerSuccess input
  | recoverAbandonedAttempt candidateId now error => .recoverAbandonedAttempt candidateId now error
  | repairTerminalQueueFailure candidateId error now =>
    .repairTerminalQueueFailure candidateId error now
  | claimCompletion candidateId claimToken now leaseExpiresAt =>
    .claimCompletion candidateId claimToken now leaseExpiresAt
  | listDueCompletions now _ => .tick now
  | finalizeCompletion copy experimentId claimToken now =>
    .finalizeCompletion copy experimentId claimToken now
  | finalizeTerminalFailure copy claimToken now => .finalizeTerminalFailure copy claimToken now
  | failCompletion copy claimToken retryAt now error =>
    .failCompletion copy claimToken retryAt now error
  | readLatestCompletedAttempt candidateId => .read candidateId

def isClaim : RepositoryCall → Bool
  | claimWorkerAttempt _ | claimCompletion .. => true
  | _ => false

/-- The order of the rows matters to the listing of a database alone. -/
def run (storage : Storage) (scan : Postgres.ScanOrder) (state : RepositoryState) :
    RepositoryCall → Answered
  | claimWorkerAttempt input => answered .workerClaim (storage.claimWorkerAttempt state input)
  | failWorkerAttempt input => answered (fun _ => .done) (storage.failWorkerAttempt state input)
  | persistWorkerSuccess input =>
    answered (fun _ => .done) (storage.persistWorkerSuccess state input)
  | recoverAbandonedAttempt candidateId now error =>
    answered .recovered (storage.recoverAbandonedAttempt state candidateId now error)
  | repairTerminalQueueFailure candidateId error now =>
    answered (fun _ => .done) (storage.repairTerminalQueueFailure state candidateId error now)
  | claimCompletion candidateId claimToken now leaseExpiresAt =>
    answered .completionClaim
      (storage.claimCompletion state candidateId claimToken now leaseExpiresAt)
  | listDueCompletions now limit =>
    (state, .ok (.due (storage.listDueCompletions scan state now limit)))
  | finalizeCompletion copy experimentId claimToken now =>
    answered (fun _ => .done) (storage.finalizeCompletion state copy experimentId claimToken now)
  | finalizeTerminalFailure copy claimToken now =>
    answered (fun _ => .done) (storage.finalizeTerminalFailure state copy claimToken now)
  | failCompletion copy claimToken retryAt now error =>
    answered (fun _ => .done) (storage.failCompletion state copy claimToken retryAt now error)
  | readLatestCompletedAttempt candidateId =>
    (state, .ok (.attempt (storage.readLatestCompletedAttempt state candidateId)))

end RepositoryCall

/-- The records of the repository in memory are the rows of the database. An attempt with an empty
list of trades and one without trades are the same there. -/
structure Related (memory database : RepositoryState) : Prop where
  candidates : memory.candidates = database.candidates
  candidateIdempotency : memory.candidateIdempotency = database.candidateIdempotency
  attempts : memory.attempts = database.attempts
  trades : ∀ attemptId, listTrades memory attemptId = listTrades database attemptId
  dispatches : memory.dispatches = database.dispatches
  experiments : memory.experiments = database.experiments

/-- Both return the same, or both throw. -/
def SameAnswer : Except String RepositoryAnswer → Except String RepositoryAnswer → Prop
  | .ok answer, .ok answer' => answer = answer'
  | .error _, .error _ => True
  | _, _ => False

def Agree (memory database : Answered) : Prop :=
  SameAnswer memory.2 database.2 ∧ Related memory.1 database.1

namespace RepositoryState

variable (state : RepositoryState)

/-- The candidate and the attempt that a worker's fence token is on. -/
def FenceOn (candidateId : String) (attemptId : AttemptId) (fenceToken : String)
    (candidate : StoredCandidate) (attempt : BacktestAttemptAudit) : Prop :=
  state.candidates.get? candidateId = some candidate ∧
    state.attempts.get? attemptId = some attempt ∧
    candidate.activeFenceToken = some fenceToken ∧ attempt.fenceToken = some fenceToken

/-- No running attempt of the candidate has a number above this one. -/
def RunsUpTo (candidateId : String) (number : Nat) : Prop :=
  ∀ attempt ∈ state.attemptsOf candidateId, attempt.status = .running →
    attempt.attemptNumber ≤ number

/-- The completions that are due, the row written longest ago first. -/
def dueCompletions (now : Int) : List StoredCandidate :=
  (state.candidates.rows.filter fun candidate => candidate.completionDue now).insertionSort
    fun left right => left.updatedAt ≤ right.updatedAt

end RepositoryState

/-- Trades that the trades table takes: valid risk fields, and no sequence or id twice. -/
def Storable (trades : List Trade) : Prop :=
  (∀ trade ∈ trades, Postgres.validRiskField trade.stopLoss = true ∧
    Postgres.validRiskField trade.takeProfit = true) ∧
  trades.Pairwise fun trade later => trade.sequence ≠ later.sequence ∧ trade.id ≠ later.id

namespace StoredCandidate

/-- The completion budget is used up. -/
def Exhausted (candidate : StoredCandidate) : Prop :=
  candidate.completionMaxAttempts ≤ candidate.completionAttemptCount

instance (candidate : StoredCandidate) : Decidable candidate.Exhausted :=
  inferInstanceAs (Decidable (_ ≤ _))

end StoredCandidate

/-- What has to hold of the state before a call for both repositories to take the same branch and to
answer alike, in whatever order the database delivers rows that tie. A granted claim never qualifies
if its candidate has attempts, as only the database answers with them. -/
def SameBranch (state : RepositoryState) : RepositoryCall → Prop
  | .finalizeCompletion .. | .finalizeTerminalFailure .. | .readLatestCompletedAttempt _ => True
  | .claimWorkerAttempt input => ∀ candidate,
    state.candidates.get? input.candidateId = some candidate →
      candidate.queueJobId = input.queueJobId → InMemory.claimable candidate input.now = false
  | .failWorkerAttempt input => ∀ candidate attempt,
    state.FenceOn input.candidateId input.attemptId input.fenceToken candidate attempt →
      attempt.status = .running ∧ (candidate.status = .cancelled →
        candidate.failureKind = none ∧ candidate.failureCode = none ∧ candidate.lastError = none)
  | .persistWorkerSuccess input => ∀ candidate attempt,
    state.FenceOn input.candidateId input.attemptId input.fenceToken candidate attempt →
      attempt.status = .running ∧
      (candidate.status = .cancelled → candidate.completionNextRetryAt = none) ∧
      Storable input.trades
  | .recoverAbandonedAttempt candidateId now _ => ∀ candidate number,
    state.candidates.get? candidateId = some candidate → candidate.status = .backtesting →
      candidate.activeLeaseExpiresAt.any (· ≤ now) = true →
      candidate.activeAttemptNumber = some number → state.RunsUpTo candidateId number
  | .repairTerminalQueueFailure candidateId _ _ => ∀ candidate,
    state.candidates.get? candidateId = some candidate → terminal candidate.status = false →
      candidate.status ≠ .terminalFailurePending →
      early candidate.status = true ∧
      ∀ first, (state.attemptsOf candidateId).find? (·.status == .running) = some first →
        state.RunsUpTo candidateId first.attemptNumber
  | .claimCompletion candidateId _ now _ => ∀ candidate,
    state.candidates.get? candidateId = some candidate → candidate.completionDue now = true →
      ¬ candidate.Exhausted → state.attemptsOf candidateId = []
  | .listDueCompletions now limit => ∀ candidate ∈ (state.dueCompletions now).take limit,
    ¬ candidate.Exhausted ∧ ∀ other ∈ state.dueCompletions now, ¬ other.Exhausted →
      candidate.updatedAt = other.updatedAt → candidate = other
  | .failCompletion copy claimToken _ now _ => ∀ candidate,
    state.candidates.get? copy.candidateId = some candidate →
      candidate.completionFence copy claimToken now = true →
      (candidate.Exhausted ↔ copy.Exhausted) ∧ (¬ candidate.Exhausted →
        candidate.failureKind = copy.failureKind ∧ candidate.failureCode = copy.failureCode)

end Cryptox.Backtesting
