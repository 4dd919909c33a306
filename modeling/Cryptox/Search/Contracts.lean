import Cryptox.Backtesting.Contracts

/-!
# Search runs

The row of a search run, what its owner asks for, and what a generator answers. A run is read with
its counts at zero; a fill writes them into its own copy.
-/
namespace Cryptox.Search

open Cryptox.Backtesting (JsNumber StrategyDefinition)

inductive GeneratorType where
  | random | domainGuided | genetic
deriving DecidableEq, Repr

inductive SearchRunState where
  | created | running | paused | completed | cancelled | failed
deriving DecidableEq, Repr

/-- The states a run does not leave. -/
def ended : SearchRunState → Bool
  | .completed | .cancelled | .failed => true
  | _ => false

inductive StopReason where
  | maxCandidates | maxDuration | noImprovement | userCancelled | error
deriving DecidableEq, Repr

structure StopCondition where
  maxCandidates : Option Nat
  maxDurationSeconds : Option Nat
  noImprovementAfterIterations : Option Nat
deriving DecidableEq, Repr

def validateStopCondition (condition : StopCondition) : Except String Unit :=
  let values := [condition.maxCandidates, condition.maxDurationSeconds,
    condition.noImprovementAfterIterations].filterMap id
  if values.isEmpty || values.any (· == 0) then .error "INVALID_STOP_CONDITION" else .ok ()

/-- What the generators draw from. Only the fingerprints change in the course of a run. -/
structure SearchSpace where
  availableStrategies : List StrategyDefinition
  generatedFingerprints : List String
deriving DecidableEq, Repr

structure SearchConfig where
  searchSpace : SearchSpace
  stopCondition : StopCondition
  generatorType : GeneratorType
  leaderboardScopeId : String
  maxInFlight : Nat
deriving DecidableEq, Repr

structure SearchRun where
  searchRunId : String
  ownerUserId : String
  leaderboardScopeId : String
  generatorType : GeneratorType
  searchSpace : SearchSpace
  stopCondition : StopCondition
  maxInFlight : Nat
  state : SearchRunState
  nextIteration : Nat
  activeDurationMs : Int
  activeSince : Option Int
  bestScore : Option JsNumber
  lastImprovementAtCandidates : Option Nat
  createdAt : Int
  startedAt : Option Int
  updatedAt : Int
  endedAt : Option Int
  stopReason : Option StopReason
  lastError : Option String
  queuedCount : Nat
  runningCount : Nat
  candidatesTested : Nat
deriving DecidableEq, Repr

/-- Of a generated candidate the run itself keeps the fingerprint only. -/
structure GeneratedCandidate where
  fingerprint : String
deriving DecidableEq, Repr

structure GeneratorContext where
  searchRunId : String
  iterationNumber : Nat
deriving DecidableEq, Repr

/-- The generators by type: deterministic in the search space and the context. -/
abbrev Generators :=
  GeneratorType → Option (SearchSpace → GeneratorContext → Except String GeneratedCandidate)

def createRun (searchRunId : String) (config : SearchConfig) (ownerUserId : String) (now : Int) :
    SearchRun where
  searchRunId
  ownerUserId
  leaderboardScopeId := config.leaderboardScopeId
  generatorType := config.generatorType
  searchSpace :=
    { config.searchSpace with
      generatedFingerprints := config.searchSpace.generatedFingerprints.eraseDups }
  stopCondition := config.stopCondition
  maxInFlight := config.maxInFlight
  state := .running
  nextIteration := 1
  activeDurationMs := 0
  activeSince := some now
  bestScore := none
  lastImprovementAtCandidates := none
  createdAt := now
  startedAt := some now
  updatedAt := now
  endedAt := none
  stopReason := none
  lastError := none
  queuedCount := 0
  runningCount := 0
  candidatesTested := 0

/-- The run that `start` inserts, or why it does not. -/
def start (searchRunId : String) (config : SearchConfig) (ownerUserId : String) (now : Int) :
    Except String SearchRun := do
  validateStopCondition config.stopCondition
  if config.maxInFlight = 0 ∨ config.leaderboardScopeId.isEmpty
      ∨ config.searchSpace.availableStrategies.isEmpty then
    throw "INVALID_SEARCH_CONFIG"
  return createRun searchRunId config ownerUserId now

namespace SearchRun

/-- The columns an `UPDATE` of a run names; the others keep what is stored, and no counts are
kept. -/
def overwritten (stored run : SearchRun) : SearchRun :=
  { stored with
    state := run.state
    searchSpace := run.searchSpace
    nextIteration := run.nextIteration
    activeDurationMs := run.activeDurationMs
    activeSince := run.activeSince
    bestScore := run.bestScore
    lastImprovementAtCandidates := run.lastImprovementAtCandidates
    updatedAt := run.updatedAt
    endedAt := run.endedAt
    stopReason := run.stopReason
    lastError := run.lastError
    queuedCount := 0
    runningCount := 0
    candidatesTested := 0 }

variable (run : SearchRun)

/-- What `pause` writes of the run it read. -/
def pausedAt (now : Int) : SearchRun :=
  { run with
    state := .paused
    activeDurationMs := run.activeDurationMs + run.activeSince.elim 0 (now - ·)
    activeSince := none
    updatedAt := now }

/-- What `resume` writes of the run it read. -/
def resumedAt (now : Int) : SearchRun :=
  { run with state := .running, activeSince := some now, updatedAt := now }

/-- What the error handler of a fill writes of the run it read. -/
def failedAt (error : String) (now : Int) : SearchRun :=
  { run with
    state := .failed
    stopReason := some .error
    lastError := some error
    endedAt := some now
    updatedAt := now }

/-- What `cancel` writes of the run it locked. -/
def cancelledAt (now : Int) : SearchRun :=
  { run with
    state := .cancelled
    stopReason := some .userCancelled
    endedAt := some now
    activeSince := none
    updatedAt := now }

end SearchRun

end Cryptox.Search
