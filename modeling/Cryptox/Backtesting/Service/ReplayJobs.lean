import Cryptox.Library.LeasedJobs
import Cryptox.Library.Simulation
import Cryptox.Backtesting.Service.ReplayStore

/-!
# Replay verification jobs

`startReplayVerification` stores a job; the queue hands a worker any job at any time and any number
of times, and `processReplayVerification` claims it for a minute, verifies the experiment and
completes the job. Calls are interleaved where they await something, and a worker may stop anywhere.
-/
namespace Cryptox.Backtesting

open Cryptox.Library
open Cryptox.Evaluation (EvaluationMetrics)

/-- What a repository does with replay jobs. -/
structure ReplayStore (σ : Type) where
  empty : σ
  create : σ → ReplayRecord → ReplayRecord × σ
  read : ExperimentTable → σ → String → Option String → Except String (Option ReplayRecord)
  claim : ExperimentTable → σ → ReplayClaim → Except String (Option ReplayRecord) × σ
  complete : σ → ReplayCompletion → Except String Unit × σ
  list : σ → Int → Nat → List String

def InMemory.replayStore : ReplayStore ReplayRecordTable where
  empty := Table.empty
  create := createReplayVerification
  read _ replays replayJobId ownerUserId := .ok (readReplayVerification replays replayJobId ownerUserId)
  claim _ replays claim := (claimReplayVerification replays claim).map .ok id
  complete := completeReplayVerification
  list replays := listReplayVerificationRecovery replays.stored

def Postgres.replayStore : ReplayStore ReplayRowTable where
  empty := Table.empty
  create := createReplayVerification
  read := readReplayVerification
  claim := claimReplayVerification
  complete := completeReplayVerification
  list := listReplayRows

abbrev Storage.Replays : Storage → Type
  | inMemory => ReplayRecordTable
  | postgres => ReplayRowTable

def Storage.replayStore : (storage : Storage) → ReplayStore storage.Replays
  | inMemory => InMemory.replayStore
  | postgres => Postgres.replayStore

def replayMismatchSampleLimit : Nat := 50

def replayMismatchSampleMax : Nat := 500

def replayLeaseMs : Int := 60000

/-- The failure that an error's message stands for. -/
def replayFailureCode (message : String) : ReplayFailureCode :=
  if message == "BACKTEST_DATASET_NOT_FOUND" || message == "SNAPSHOT_INCOMPLETE" then .missingSnapshot
  else if message == "IMPLEMENTATION_ARTIFACT_UNAVAILABLE" then .implementationArtifactUnavailable
  else .replayArtifactExpired

/-- What is stored for an answer of `verifyReplay`. -/
def replayOutcome (mismatchSampleLimit : Nat) :
    Except String LegacyReplayVerificationResult → ReplayOutcome
  | .ok replay =>
    let mismatches := replay.mismatches.take (min mismatchSampleLimit replayMismatchSampleMax)
    match replay.status with
    | .mismatched => .mismatched replay.comparedTradeCount mismatches replay.totalMismatchCount
        (mismatches.length < replay.totalMismatchCount)
    | .matched => .matched replay.comparedTradeCount
  | .error message => .nonReplayable (replayFailureCode message)

/-- The completion of a claimed job, whose record carries its token. -/
def ReplayRecord.completion (claimed : ReplayRecord)
    (answer : Except String LegacyReplayVerificationResult) (now : Int) : ReplayCompletion where
  replayJobId := claimed.replayJobId
  claimToken := claimed.activeClaimToken.getD ""
  now
  experimentId := match answer with
    | .ok replay => replay.experimentId
    | .error _ => claimed.experimentId
  sourceAttemptId := match answer with
    | .ok replay => replay.sourceAttemptId
    | .error _ => claimed.sourceAttemptId
  outcome := replayOutcome claimed.mismatchSampleLimit answer

/-- Where a call of `processReplayVerification` stands. -/
inductive ReplayPhase where
  | verifying (claimed : ReplayRecord)
  | completing (claimed : ReplayRecord) (answer : Except String LegacyReplayVerificationResult)
  | returned (answer : Except String Unit)
  | stopped

structure ReplayCall where
  callId : Nat
  phase : ReplayPhase

/-- The experiments, the jobs and the calls, with the claims granted and the results accepted. -/
structure ReplayWorld (σ : Type) where
  experiments : ExperimentTable
  replays : σ
  calls : Table ReplayCall.callId
  grants : List (Grant String String)
  acceptances : List (Acceptance String String ReplayOutcome)

inductive ReplayStep where
  | stored (experiment : ExperimentRecord)
  | start (userId experimentId replayJobId : String) (requestedAt : Int)
  | claim (callId : Nat) (replayJobId claimToken : String) (now : Int)
  | verify (callId : Nat) (scopes : ScopeTable) (repository : RepositoryState)
  | complete (callId : Nat) (now : Int)
  | stop (callId : Nat)

namespace ReplayWorld

variable {σ : Type}

def start (store : ReplayStore σ) : ReplayWorld σ := ⟨Table.empty, store.empty, Table.empty, [], []⟩

def phase (w : ReplayWorld σ) (callId : Nat) : Option ReplayPhase :=
  (w.calls.get? callId).map ReplayCall.phase

def setPhase (w : ReplayWorld σ) (callId : Nat) (phase : ReplayPhase) : ReplayWorld σ :=
  { w with calls := w.calls.put ⟨callId, phase⟩ }

/-- The record that `startReplayVerification` hands to the repository. -/
def startReplayVerification (w : ReplayWorld σ) (userId experimentId replayJobId : String)
    (requestedAt : Int) : Except String ReplayRecord := do
  throwIf (isBlank userId) "INVALID_AUTH_CONTEXT"
  match (w.experiments.get? experimentId).filter (·.ownerUserId == userId) with
  | none => .error "EXPERIMENT_NOT_FOUND"
  | some experiment =>
    return .requested replayJobId experimentId experiment.backtestAttemptId userId
      replayMismatchSampleLimit requestedAt

section

variable (policyHash : NormalizedPolicy → String) (deps : Dependencies)
  (evaluate : CompletedBacktestResult → Except String EvaluationMetrics) (store : ReplayStore σ)

/-- Ids of experiments and of calls are new; a call goes on where it stands. -/
def enabled (w : ReplayWorld σ) : ReplayStep → Prop
  | .stored experiment => w.experiments.get? experiment.id = none
  | .start .. => True
  | .claim callId .. => w.phase callId = none
  | .verify callId .. => ∃ claimed, w.phase callId = some (.verifying claimed)
  | .complete callId _ => ∃ claimed answer, w.phase callId = some (.completing claimed answer)
  | .stop callId => (w.phase callId).isSome

def startStep (w : ReplayWorld σ) (userId experimentId replayJobId : String) (requestedAt : Int) :
    ReplayWorld σ :=
  match w.startReplayVerification userId experimentId replayJobId requestedAt with
  | .error _ => w
  | .ok replay => { w with replays := (store.create w.replays replay).2 }

def claimStep (w : ReplayWorld σ) (callId : Nat) (claim : ReplayClaim) : ReplayWorld σ :=
  let (answer, replays) := store.claim w.experiments w.replays claim
  match answer with
  | .error message => { w with replays }.setPhase callId (.returned (.error message))
  | .ok none => { w with replays }.setPhase callId (.returned (.ok ()))
  | .ok (some claimed) =>
    { w with
      replays
      grants := ⟨claim.replayJobId, claim.claimToken, claim.now, claim.leaseExpiresAt⟩ :: w.grants
    }.setPhase callId (.verifying claimed)

def completeStep (w : ReplayWorld σ) (callId : Nat) (completion : ReplayCompletion) :
    ReplayWorld σ :=
  let (answer, replays) := store.complete w.replays completion
  match answer with
  | .error message => { w with replays }.setPhase callId (.returned (.error message))
  | .ok () =>
    { w with
      replays
      acceptances := ⟨completion.replayJobId, completion.claimToken, completion.now,
        completion.outcome⟩ :: w.acceptances
    }.setPhase callId (.returned (.ok ()))

def next (w : ReplayWorld σ) : ReplayStep → ReplayWorld σ
  | .stored experiment => { w with experiments := w.experiments.put experiment }
  | .start userId experimentId replayJobId requestedAt =>
    w.startStep store userId experimentId replayJobId requestedAt
  | .claim callId replayJobId claimToken now =>
    w.claimStep store callId ⟨replayJobId, claimToken, now, now + replayLeaseMs⟩
  | .verify callId scopes repository =>
    match w.phase callId with
    | some (.verifying claimed) => w.setPhase callId (.completing claimed (verifyReplay policyHash deps
        evaluate ⟨scopes, repository, w.experiments⟩ claimed.ownerUserId claimed.experimentId))
    | _ => w
  | .complete callId now =>
    match w.phase callId with
    | some (.completing claimed answer) => w.completeStep store callId (claimed.completion answer now)
    | _ => w
  | .stop callId => w.setPhase callId .stopped

def system : GuardedSystem (ReplayWorld σ) ReplayStep :=
  ⟨enabled, next policyHash deps evaluate store⟩

end

end ReplayWorld

end Cryptox.Backtesting
