import Cryptox.Backtesting.Repository.Writes
import Cryptox.Backtesting.Service.Execution

/-!
# Runs of the service

Beside the repository's own operations a run creates scopes and submits commands. The state keeps
the worker claims that were granted, and of every submission that made a candidate of its own the
command and the scope it was resolved against.
-/
namespace Cryptox.Backtesting

open Cryptox.Library

/-- A submission that made the candidate: what it asked for, against which scope. -/
structure Submission where
  candidateId : String
  command : StartBacktestCommand
  scope : StoredBenchmarkScope
  warmupCandles : Nat
deriving DecidableEq, Repr

structure ServiceWorld where
  world : World
  scopes : ScopeTable
  /-- The worker claims granted so far. -/
  claims : List WorkerAttemptClaim
  /-- The submissions that made a candidate, the latest first. -/
  submissions : List Submission

namespace ServiceWorld

def start : ServiceWorld := ⟨World.start, .empty, [], []⟩

def repository (service : ServiceWorld) : RepositoryState := service.world.repository

end ServiceWorld

inductive ServiceStep where
  | createScope (scope : StoredBenchmarkScope)
  | submit (deps : Dependencies) (command : StartBacktestCommand) (request : SubmissionRequest)
  | operation (step : Step)

namespace ServiceWorld

/-- Scope and candidate ids are generated; candidates come from submissions only. -/
def enabled (service : ServiceWorld) : ServiceStep → Prop
  | .createScope scope => (service.scopes.get? scope.id).isNone
  | .submit _ _ request => ∀ made ∈ service.submissions, made.candidateId ≠ request.candidateId
  | .operation step => step.isSubmit = false ∧ service.world.enabled step

instance (service : ServiceWorld) : ∀ step, Decidable (service.enabled step)
  | .createScope scope => inferInstanceAs (Decidable ((service.scopes.get? scope.id).isNone = true))
  | .submit _ _ request =>
    inferInstanceAs (Decidable (∀ made ∈ service.submissions, made.candidateId ≠ request.candidateId))
  | .operation step => inferInstanceAs (Decidable (step.isSubmit = false ∧ _))

end ServiceWorld

variable (policyHash : NormalizedPolicy → String) (storage : Storage)

/-- What an answered submission adds to the submissions that made a candidate. -/
def submissionMade (deps : Dependencies) (service : ServiceWorld) (command : StartBacktestCommand)
    (request : SubmissionRequest) : List Submission :=
  match (submit policyHash deps storage service.scopes service.repository command request).2,
      prepareSubmission policyHash deps service.scopes command request with
  | .ok accepted, .ok (scope, candidate) =>
    if accepted.candidateId = request.candidateId then
      [⟨request.candidateId, command, scope, candidate.warmupCandles⟩]
    else []
  | _, _ => []

/-- The claim that a step is answered with. -/
def claimAnswered (repository : RepositoryState) : Step → Option WorkerAttemptClaim
  | .claimWorkerAttempt input =>
    match (storage.claimWorkerAttempt repository input).2 with
    | .ok claim => claim
    | .error _ => none
  | _ => none

def serviceNext (service : ServiceWorld) : ServiceStep → ServiceWorld
  | .createScope scope => { service with scopes := service.scopes.put scope }
  | .submit deps command request =>
    { service with
      world :=
        { service.world with
          repository :=
            (submit policyHash deps storage service.scopes service.repository command request).1 }
      submissions := submissionMade policyHash storage deps service command request
        ++ service.submissions }
  | .operation step =>
    { service with
      world := storage.next service.world step
      claims := (claimAnswered storage service.repository step).toList ++ service.claims }

def serviceSystem : GuardedSystem ServiceWorld ServiceStep where
  enabled := ServiceWorld.enabled
  next := serviceNext policyHash storage

instance (service : ServiceWorld) (step : ServiceStep) :
    Decidable ((serviceSystem policyHash storage).enabled service step) :=
  inferInstanceAs (Decidable (service.enabled step))

/-- The service after a run from nothing stored. -/
def serviceAfter (steps : List ServiceStep) : ServiceWorld :=
  (serviceSystem policyHash storage).run ServiceWorld.start steps

variable {policyHash} {storage}

/-- The record of a submission is what every submitted record looks like. -/
theorem prepareSubmission_submitted {deps : Dependencies} {scopes : ScopeTable}
    {command : StartBacktestCommand} {request : SubmissionRequest} {scope : StoredBenchmarkScope}
    {candidate : StoredCandidate}
    (h : prepareSubmission policyHash deps scopes command request = .ok (scope, candidate)) :
    candidate.submitted = candidate := by
  simp only [prepareSubmission, bind_eq_ok, pure_eq_ok] at h
  obtain ⟨scope', -, references, -, _, -, candles, -, _, -, _, -, policy, -, record, hrecord,
    hpair⟩ := h
  obtain ⟨rfl, rfl⟩ := Prod.mk.inj hpair
  simp only [candidateRecord, bind_eq_ok, pure_eq_ok] at hrecord
  obtain ⟨_, -, rfl⟩ := hrecord
  rfl

/-! A scope with a risk policy, and a submission that sets the take profit only. -/
namespace Sample

def definition : StrategyDefinition := ⟨"d", "hold", "1.0.0", "ab", []⟩

def composite : CompositeStrategyDefinition := ⟨"m", .majorityVote, [⟨"d", .ofInt 1⟩], none⟩

def deps : Dependencies where
  calendar := ⟨compare, fun _ => none, fun _ => .error "Invalid time value"⟩
  isoText := fun _ => "1970-01-01T00:00:00.000Z"
  strategy :=
    { listStrategies := none
      resolveStrategy := fun _ => .ok ⟨fun _ => .ok "HOLD"⟩
      combineSignals := fun _ _ => .ok "HOLD"
      readDefinitions := fun _ _ => .ok [definition]
      readComposite := fun _ _ => .ok composite }
  sentiment := none
  readInputSnapshot := fun _ => some []
  enqueue := fun _ => .ok ()

def scope : StoredBenchmarkScope where
  id := "s"
  ownerUserId := "u"
  datasetSnapshotId := "snapshot"
  pairMetadata := ⟨"BTC", "USDT", "USDT"⟩
  sentimentDatasetSnapshot := none
  workerRuntimeVersion := "1.0.0"
  workerRuntimeSha256 := "ab"
  pair := "BTCUSDT"
  timeframe := .h1
  warmupCapacityCandles := 500
  initialCapital := .ofInt 1000
  feeRatePercent := .ofInt 0
  slippageBps := .ofInt 0
  riskPolicy := some ⟨some (.ofInt 2), some (.ofInt 4)⟩
  scoreFormulaId := "MVP_MANUAL_V1"

def command : StartBacktestCommand where
  leaderboardScopeId := "s"
  strategyDefinitions := none
  compositeDefinition := none
  strategyDefinitionIds := some ["d"]
  compositeDefinitionId := some "m"
  executionPolicy := some (.ofPercents none (some (.ofInt 5)))
  maxAttempts := .ofInt 3
  searchRunId := none
  iterationNumber := none

/-- The hash of what `command` normalizes to. -/
def commandSha256 : String :=
  "7f770974397e636cf818319e2439b6e67883bb98d86dd854cd149c03fb09ec07"

def request : SubmissionRequest := ⟨"u", .manual, none, "c", 0⟩

/-- The scope is created, the command submitted, and the candidate claimed by a worker. -/
def submitted : List ServiceStep :=
  [.createScope scope, .submit deps command request,
    .operation (.claimWorkerAttempt (delivery 1 "f" 0))]

def submission : Submission := ⟨"c", command, scope, 0⟩

def policy : ExecutionPolicySnapshot :=
  ⟨positionPolicyId, positionPolicyId, sizingPolicyId, fillPolicyId, oppositeSignalPolicyId,
    none, some (.ofInt 5), 0, commandSha256⟩

end Sample

end Cryptox.Backtesting
