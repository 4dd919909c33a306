import Cryptox.Leaderboard.Submission
import Cryptox.Backtesting.Repository.Workers
import Cryptox.Backtesting.Service.Contracts

/-!
# Completing a candidate

`processCompletion` as the state machine of its awaits, over the database. Any number of calls run
at once, between the operations of workers, users and the watchdog. What a unit of work writes is
kept with its call until the commit; until then a unique key or a row it has written makes every
other writer of that key or row wait.
-/
namespace Cryptox.Backtesting

open Cryptox.Library
open Cryptox.Leaderboard

/-- What the score service answers. -/
structure Scored where
  scoreFormulaId : String
  overallScore : JsNumber
  rankEligible : Bool
deriving DecidableEq, Repr

/-- The experiment that `processCompletion` stages for a claimed candidate. -/
def completionExperiment (candidate : StoredCandidate) (scope : StoredBenchmarkScope)
    (attempt : BacktestAttemptAudit) (scored : Scored) (id : String) (createdAt : Int) :
    StoredExperiment where
  id
  ownerUserId := candidate.ownerUserId
  candidateId := candidate.candidateId
  searchRunId := candidate.searchRunId
  leaderboardScopeId := scope.id
  scoreFormulaId := scored.scoreFormulaId
  overallScore := scored.overallScore
  rankEligible := scored.rankEligible
  backtestAttemptId := attempt.attemptId
  createdAt

/-- How far a unit of work has come: the experiment is staged; the leaderboard has no entry of it;
it is admitted, evicting an entry or none; the eviction is written; the leaderboard is done; the
candidate's row is finalized. -/
inductive Point where
  | staged | unlisted | admitted (evicting : Option String) | evicted | submitted | finalized
deriving DecidableEq, Repr

/-- An open unit of work: the candidate's row as it was read, the experiment it goes on with, and
what it has written. -/
structure UnitOfWork where
  candidate : StoredCandidate
  experiment : StoredExperiment
  /-- The experiment was inserted by this unit of work, not found. -/
  inserted : Bool
  deactivated : Option String
  entry : Option LeaderboardEntry
  row : Option StoredCandidate
  point : Point
deriving DecidableEq, Repr

/-- Everything read before the unit of work begins. -/
structure CompletionInputs where
  candidate : StoredCandidate
  attempt : BacktestAttemptAudit
  scope : StoredBenchmarkScope
  scored : Scored
deriving DecidableEq, Repr

/-- Where a call waits. -/
inductive Phase where
  | claimed
  | started (candidate : StoredCandidate)
  | attempted (candidate : StoredCandidate) (attempt : BacktestAttemptAudit)
  | scored (inputs : CompletionInputs)
  | searched (inputs : CompletionInputs) (existing : Option StoredExperiment)
  | begun (inputs : CompletionInputs) (existing : Option StoredExperiment)
  | writing (unit : UnitOfWork)
  | failing (candidate : StoredCandidate) (error : String)
  | finished
deriving DecidableEq, Repr

/-- A call of `processCompletion`, by the claim token it generated. -/
structure Call where
  token : String
  candidateId : String
  phase : Phase
deriving DecidableEq, Repr

namespace Call

variable (call : Call)

/-- The row the call goes on with, once it is read back. -/
def candidate? : Option StoredCandidate :=
  match call.phase with
  | .claimed | .finished => none
  | .started candidate | .attempted candidate _ | .failing candidate _ => some candidate
  | .scored inputs | .searched inputs _ | .begun inputs _ => some inputs.candidate
  | .writing unit => some unit.candidate

def existing? : Option StoredExperiment :=
  match call.phase with
  | .searched _ existing | .begun _ existing => existing
  | _ => none

def unit? : Option UnitOfWork :=
  match call.phase with
  | .writing unit => some unit
  | _ => none

/-- The entry that is to make room. -/
def evicting? : Option String :=
  call.unit?.bind fun unit =>
    match unit.point with
    | .admitted evicting => evicting
    | _ => none

/-- The experiment that the open unit of work has inserted. -/
def stagedExperiment : Option StoredExperiment :=
  call.unit?.bind fun unit => if unit.inserted then some unit.experiment else none

def stagedEntry : Option LeaderboardEntry := call.unit?.bind (·.entry)

/-- The keys and rows that the unit of work holds until it ends. -/
def holdsCandidate : Option String := call.stagedExperiment.map (·.candidateId)
def holdsExperimentId : Option String := call.stagedExperiment.map (·.id)
def holdsRanked : Option String := call.stagedEntry.map (·.experimentResultId)
def holdsEntryId : Option String := call.stagedEntry.map (·.id)
def holdsRow : Option String := call.unit?.bind fun unit => unit.row.map (·.candidateId)
def holdsEntryRow : Option String := call.unit?.bind (·.deactivated)

end Call

structure CompletionWorld where
  world : World
  entries : EntryTable
  calls : Table Call.token

namespace CompletionWorld

def start : CompletionWorld := ⟨World.start, .empty, .empty⟩

variable (w : CompletionWorld)

def repository : RepositoryState := w.world.repository

def setPhase (call : Call) (phase : Phase) : CompletionWorld :=
  { w with calls := w.calls.put { call with phase } }

/-- No call other than `token` holds the key. -/
def Free {κ : Type} (holds : Call → Option κ) (token : String) (key : κ) : Prop :=
  ∀ call ∈ w.calls.rows, call.token ≠ token → holds call ≠ some key

instance {κ : Type} [DecidableEq κ] (holds : Call → Option κ) (token : String) (key : κ) :
    Decidable (w.Free holds token key) :=
  inferInstanceAs (Decidable (∀ call ∈ w.calls.rows, _ → _))

end CompletionWorld

/-- One await of a call. -/
inductive Move where
  | readBack
  | finalizeTerminalFailure (now : Int)
  | readAttempt
  | score (scope : StoredBenchmarkScope) (scored : Scored)
  | findExperiment
  | begin
  | stage (experimentId : String) (createdAt : Int)
  | lookUp (scopeFound : Bool)
  | rank
  | evict
  | insertEntry (entryId : String) (addedAt : Int)
  | finalize (now : Int)
  /-- A commit, of which the answer may be lost. -/
  | commit (answered : Bool)
  /-- The await rejects; an open unit of work is rolled back. -/
  | fail (error : String)
  | failCompletion (retryAt : Option Int) (now : Int)
  /-- The process ends; the database rolls an open unit of work back. -/
  | crash

inductive CompletionStep where
  /-- An operation of a worker, a user or the watchdog. -/
  | operation (step : Step)
  | claim (token candidateId : String) (now leaseExpiresAt : Int)
  | move (token : String) (move : Move)

/-- The row an operation writes, so that it waits while the row is locked. -/
def Step.row : Step → Option String
  | tick _ | read _ | markDispatchCancelled .. => none
  | step => some step.target

namespace CompletionWorld

variable (w : CompletionWorld)

/-- The source's `existing ?? await stageCompletionExperiment(…)`. -/
def stage (inputs : CompletionInputs) (existing : Option StoredExperiment) (experimentId : String)
    (createdAt : Int) : Except String (StoredExperiment × Bool) :=
  match existing with
  | some experiment => .ok (experiment, false)
  | none =>
    Postgres.stageCompletionExperiment w.repository
      (completionExperiment inputs.candidate inputs.scope inputs.attempt inputs.scored experimentId
        createdAt)

def begunUnit (candidate : StoredCandidate) (staged : StoredExperiment × Bool) : UnitOfWork :=
  ⟨candidate, staged.1, staged.2, none, none, none, .staged⟩

/-- The leaderboard's first reads. A manual candidate is not submitted at all. -/
def lookUp (unit : UnitOfWork) (scopeFound : Bool) : Except String Point :=
  if unit.candidate.origin ≠ .search ∨ (unit.candidate.searchRunId.getD "").isEmpty then
    .ok .submitted
  else
    match submitCheck unit.experiment scopeFound with
    | .error error => .error error
    | .ok false => .ok .submitted
    | .ok true =>
      if (getByExperimentResultId w.entries unit.experiment.id).isSome then .ok .submitted
      else .ok .unlisted

def rank (unit : UnitOfWork) : Point :=
  match admission (getActiveTopK w.repository w.entries unit.experiment.leaderboardScopeId)
      unit.experiment with
  | some evicting => .admitted evicting
  | none => .submitted

def insertEntry (unit : UnitOfWork) (entryId : String) (addedAt : Int) :
    Except String LeaderboardEntry :=
  if (w.entries.get? entryId).isSome
      || (getByExperimentResultId w.entries unit.experiment.id).isSome then
    .error Postgres.uniqueViolation
  else .ok (insertedEntry unit.experiment entryId addedAt)

/-- The new version of the row, if the update finds the row under its fence. -/
def finalizedRow (unit : UnitOfWork) (token : String) (now : Int) :
    Except String (Option StoredCandidate) :=
  match Postgres.finalizeCompletion w.repository unit.candidate unit.experiment.id token now with
  | (state, .ok ()) => .ok (state.candidates.get? unit.candidate.candidateId)
  | (_, .error error) => .error error

/-- Where the call goes on from where it waits; `none` where it does not wait for this step. -/
def phaseAfter (call : Call) : Move → Option Phase
  | .readBack =>
    match call.phase with
    | .claimed => some ((w.world.stored call.candidateId).elim .finished .started)
    | _ => none
  | .finalizeTerminalFailure now =>
    match call.phase with
    | .started candidate =>
      if candidate.status = .terminalFailurePending then
        match (Postgres.finalizeTerminalFailure w.repository candidate call.token now).2 with
        | .ok () => some .finished
        | .error error => some (.failing candidate error)
      else none
    | _ => none
  | .readAttempt =>
    match call.phase with
    | .started candidate =>
      if candidate.status = .terminalFailurePending then none
      else
        match Postgres.readLatestCompletedAttempt w.repository call.candidateId with
        | some attempt => some (.attempted candidate attempt)
        | none => some (.failing candidate "BACKTEST_COMPLETION_ATTEMPT_NOT_FOUND")
    | _ => none
  | .score scope scored =>
    match call.phase with
    | .attempted candidate attempt =>
      if scope.id = candidate.leaderboardScopeId then
        some (.scored ⟨candidate, attempt, scope, scored⟩)
      else none
    | _ => none
  | .findExperiment =>
    match call.phase with
    | .scored inputs =>
      some (.searched inputs (Postgres.findExperimentByCandidate w.repository call.candidateId))
    | _ => none
  | .begin =>
    match call.phase with
    | .searched inputs existing => some (.begun inputs existing)
    | _ => none
  | .stage experimentId createdAt =>
    match call.phase with
    | .begun inputs existing =>
      match w.stage inputs existing experimentId createdAt with
      | .ok staged => some (.writing (begunUnit inputs.candidate staged))
      | .error error => some (.failing inputs.candidate error)
    | _ => none
  | .lookUp scopeFound =>
    match call.phase with
    | .writing unit =>
      if unit.point = .staged then
        match w.lookUp unit scopeFound with
        | .ok point => some (.writing { unit with point })
        | .error error => some (.failing unit.candidate error)
      else none
    | _ => none
  | .rank =>
    match call.phase with
    | .writing unit =>
      if unit.point = .unlisted then some (.writing { unit with point := w.rank unit }) else none
    | _ => none
  | .evict =>
    match call.phase with
    | .writing unit =>
      match unit.point with
      | .admitted evicting =>
        some (.writing { unit with deactivated := evicting, point := .evicted })
      | _ => none
    | _ => none
  | .insertEntry entryId addedAt =>
    match call.phase with
    | .writing unit =>
      if unit.point = .evicted then
        match w.insertEntry unit entryId addedAt with
        | .ok entry => some (.writing { unit with entry := some entry, point := .submitted })
        | .error error => some (.failing unit.candidate error)
      else none
    | _ => none
  | .finalize now =>
    match call.phase with
    | .writing unit =>
      if unit.point = .submitted then
        match w.finalizedRow unit call.token now with
        | .ok row => some (.writing { unit with row, point := .finalized })
        | .error error => some (.failing unit.candidate error)
      else none
    | _ => none
  | .commit answered =>
    match call.phase with
    | .writing unit =>
      if unit.point = .finalized then
        some (if answered then .finished else .failing unit.candidate "connection terminated")
      else none
    | _ => none
  | .fail error =>
    match call.phase with
    | .failing .. => none
    | _ => call.candidate?.map fun candidate => .failing candidate error
  | .failCompletion .. =>
    match call.phase with
    | .failing .. => some .finished
    | _ => none
  | .crash => some .finished

end CompletionWorld

namespace CompletionWorld

variable (w : CompletionWorld)

/-- The repository's own operations that a step of a call runs at once. -/
def operationOf (call : Call) : Move → Option Step
  | .finalizeTerminalFailure now =>
    call.candidate?.map fun candidate => .finalizeTerminalFailure candidate call.token now
  | .failCompletion retryAt now =>
    match call.phase with
    | .failing candidate error => some (.failCompletion candidate call.token retryAt now error)
    | _ => none
  | _ => none

/-- What a commit makes visible. -/
def committed (unit : UnitOfWork) : CompletionWorld :=
  let repository := w.repository
  { w with
    world :=
      { w.world with
        repository :=
          { repository with
            experiments :=
              repository.experiments.putOption (if unit.inserted then some unit.experiment else none)
            candidates := repository.candidates.putOption unit.row } }
    entries := (unit.deactivated.elim w.entries (deactivate w.entries)).putOption unit.entry }

/-- What the step of a call changes for everyone. -/
def effect (call : Call) (move : Move) : CompletionWorld :=
  match move, call.phase with
  | .commit _, .writing unit => w.committed unit
  | _, _ =>
    match operationOf call move with
    | some operation => { w with world := Storage.postgres.next w.world operation }
    | none => w

/-- A granted claim starts a call. -/
def claimed (token candidateId : String) (now leaseExpiresAt : Int) : CompletionWorld :=
  let next := { w with
    world := Storage.postgres.next w.world (.claimCompletion candidateId token now leaseExpiresAt) }
  match (Postgres.claimCompletion w.repository candidateId token now leaseExpiresAt).2 with
  | .ok (some _) => { next with calls := w.calls.put ⟨token, candidateId, .claimed⟩ }
  | _ => next

def next : CompletionStep → CompletionWorld
  | .operation step => { w with world := Storage.postgres.next w.world step }
  | .claim token candidateId now leaseExpiresAt => w.claimed token candidateId now leaseExpiresAt
  | .move token move =>
    match w.calls.get? token with
    | none => w
    | some call =>
      match w.phaseAfter call move with
      | none => w
      | some phase => (w.effect call move).setPhase call phase

/-- The keys and rows that a move has to wait for. Ids are generated. -/
def Unblocked (call : Call) : Move → Prop
  | .finalizeTerminalFailure _ | .failCompletion .. | .finalize _ =>
    w.Free Call.holdsRow call.token call.candidateId
  | .stage experimentId _ =>
    w.Free Call.holdsCandidate call.token call.candidateId
      ∧ w.Free Call.holdsExperimentId call.token experimentId
  | .evict => ∀ entryId ∈ call.evicting?, w.Free Call.holdsEntryRow call.token entryId
  | .insertEntry entryId _ => w.Free Call.holdsEntryId call.token entryId
      ∧ ∀ unit ∈ call.unit?, w.Free Call.holdsRanked call.token unit.experiment.id
  | _ => True

instance (call : Call) : ∀ move, Decidable (w.Unblocked call move)
  | .finalizeTerminalFailure _ | .failCompletion .. | .finalize _ =>
    inferInstanceAs (Decidable (w.Free Call.holdsRow call.token call.candidateId))
  | .stage .. => inferInstanceAs (Decidable (_ ∧ _))
  | .evict => inferInstanceAs (Decidable (∀ entryId ∈ call.evicting?, _))
  | .insertEntry .. => inferInstanceAs (Decidable (_ ∧ ∀ unit ∈ call.unit?, _))
  | .readBack | .readAttempt | .score .. | .findExperiment | .begin | .lookUp _ | .rank | .commit _
  | .fail _ | .crash => inferInstanceAs (Decidable True)

/-- No call holds the row of the candidate. -/
def Unlocked (candidateId : String) : Prop :=
  ∀ call ∈ w.calls.rows, call.holdsRow ≠ some candidateId

instance (candidateId : String) : Decidable (w.Unlocked candidateId) :=
  inferInstanceAs (Decidable (∀ call ∈ w.calls.rows, _))

def enabled : CompletionStep → Prop
  | .operation step => step.ofWorkers = true ∧ w.world.enabled step
      ∧ ∀ candidateId ∈ step.row, w.Unlocked candidateId
  | .claim token candidateId _ _ => (w.calls.get? token).isNone ∧ w.Unlocked candidateId
  | .move token move => ∃ call ∈ w.calls.get? token,
      (w.phaseAfter call move).isSome ∧ w.Unblocked call move

instance : ∀ step, Decidable (w.enabled step)
  | .operation step => inferInstanceAs (Decidable (_ ∧ _ ∧ ∀ candidateId ∈ step.row, _))
  | .claim .. => inferInstanceAs (Decidable (_ = true ∧ _))
  | .move token _ => inferInstanceAs (Decidable (∃ call ∈ w.calls.get? token, _ ∧ _))

/-- Completions of the candidates of one database. -/
def system : GuardedSystem CompletionWorld CompletionStep where
  enabled := enabled
  next := next

instance (step : CompletionStep) : Decidable (system.enabled w step) :=
  inferInstanceAs (Decidable (w.enabled step))

/-- The database after a run from nothing stored. -/
def after (steps : List CompletionStep) : CompletionWorld := system.run start steps

end CompletionWorld

end Cryptox.Backtesting
