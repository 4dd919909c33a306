import Cryptox.Backtesting.Service.SealedPolicy
import Cryptox.Search.Contracts

/-!
# Filling the slots of a run

`fill` works on its own copy of the run, under the run's row lock. It waits for the summary and the
ranking, submits candidate after candidate, refreshes its copy once more and saves it; each of its
waits is a phase.
-/
namespace Cryptox.Search

open Cryptox.Library
open Cryptox.Backtesting (JsNumber SearchCandidateSummary StoredCandidate StartBacktestCommand
  SuppliedPolicy NormalizedPolicy Dependencies ScopeTable SubmissionRequest StoredBenchmarkScope
  prepareSubmission candidateRecord findScope_eq_ok)

def inFlight (run : SearchRun) : Nat := run.queuedCount + run.runningCount

/-- The source's `refresh`: the counts, and the best score if the ranking's first one beats it. -/
def refresh (run : SearchRun) (summary : SearchCandidateSummary) (topScore : Option JsNumber)
    (now : Int) : SearchRun :=
  let projected :=
    { run with
      queuedCount := summary.queuedCount
      runningCount := summary.runningCount
      candidatesTested := summary.candidatesTested
      updatedAt := now }
  match topScore with
  | none => projected
  | some score =>
    if run.bestScore.all fun best => best.lt score then
      { projected with
        bestScore := some score, lastImprovementAtCandidates := some summary.candidatesTested }
    else projected

/-- The candidates and iterations that are spoken for. -/
def reserved (run : SearchRun) : Nat :=
  max (run.candidatesTested + inFlight run) (run.nextIteration - 1)

def stopReason (run : SearchRun) (now : Int) : Option StopReason :=
  let elapsedMilliseconds := run.activeDurationMs + run.activeSince.elim 0 (now - ·)
  if run.stopCondition.maxDurationSeconds.any fun (seconds : Nat) =>
      (seconds : Int) * 1000 ≤ elapsedMilliseconds then
    some .maxDuration
  else if run.stopCondition.maxCandidates.any (· ≤ reserved run) then some .maxCandidates
  else if run.stopCondition.noImprovementAfterIterations.any fun iterations =>
      run.bestScore.isSome && run.lastImprovementAtCandidates.any fun last =>
        iterations + last ≤ run.candidatesTested then
    some .noImprovement
  else none

/-- How many candidates a fill may submit. -/
def openSlots (run : SearchRun) : Nat :=
  let budget := match run.stopCondition.maxCandidates with
    | none => run.maxInFlight
    | some maxCandidates => maxCandidates - reserved run
  min (run.maxInFlight - inFlight run) budget

def maxAttempts (slots : Nat) : Nat := max (slots * 4) (slots + 1)

/-- A met stop condition ends the run once nothing is in flight. -/
def completeIfDrained (run : SearchRun) (met : Option StopReason) (now : Int) : SearchRun :=
  match met with
  | none => run
  | some reason =>
    if inFlight run = 0 then
      { run with state := .completed, stopReason := some reason, endedAt := some now }
    else run

/-- A submitted candidate is recorded in the run. -/
def recordSubmission (run : SearchRun) (candidate : GeneratedCandidate) : SearchRun :=
  { run with
    searchSpace :=
      { run.searchSpace with
        generatedFingerprints :=
          (run.searchSpace.generatedFingerprints ++ [candidate.fingerprint]).eraseDups }
    nextIteration := run.nextIteration + 1 }

/-- What a fill waits for. The flag tells the second refresh from the first. -/
inductive Phase where
  | summarizing (again : Bool)
  | ranking (again : Bool) (summary : SearchCandidateSummary)
  | looping
  /-- A submission is under way. -/
  | submitting (candidate : GeneratedCandidate)
  /-- The submission is stored, or was, and has yet to be answered. -/
  | stored (candidate : GeneratedCandidate)
  | saving
  /-- The run was not running: there is nothing to save. -/
  | returning
  | throwing (error : String)
deriving DecidableEq, Repr

structure Fill where
  run : SearchRun
  slots : Nat
  submitted : Nat
  attempts : Nat
  phase : Phase
deriving DecidableEq, Repr

/-- The fill of a run that has just been locked and read. -/
def Fill.ofRun (run : SearchRun) : Fill :=
  ⟨run, 0, 0, 0, if run.state = .running then .summarizing false else .returning⟩

namespace Fill

variable (fill : Fill)

def summarized (again : Bool) (answer : Except String SearchCandidateSummary) : Fill :=
  match answer with
  | .ok summary => { fill with phase := .ranking again summary }
  | .error error => { fill with phase := .throwing error }

/-- The first refresh decides how many slots there are. -/
def planned (generators : Generators) (run : SearchRun) (now : Int) : Fill :=
  match stopReason run now with
  | some met => { fill with run := completeIfDrained run (some met) now, phase := .saving }
  | none =>
    match generators run.generatorType with
    | none => { fill with run, phase := .throwing "UNSUPPORTED_GENERATOR" }
    | some _ =>
      { fill with run, slots := openSlots run, submitted := 0, attempts := 0, phase := .looping }

/-- The second one only whether the run is over. -/
def finished (run : SearchRun) (now : Int) : Fill :=
  { fill with
    run := { completeIfDrained run (stopReason run now) now with updatedAt := now }
    phase := .saving }

def ranked (generators : Generators) (again : Bool) (summary : SearchCandidateSummary)
    (topScore : Option JsNumber) (now : Int) : Fill :=
  let run := refresh fill.run summary topScore now
  if again then fill.finished run now else fill.planned generators run now

/-- An error inside the loop is thrown on at the last attempt only. -/
def retried (error : String) : Fill :=
  if maxAttempts fill.slots ≤ fill.attempts then { fill with phase := .throwing error }
  else { fill with phase := .looping }

/-- What follows the last round. -/
def exited : Fill :=
  if 0 < fill.slots ∧ fill.submitted = 0 then
    { fill with phase := .throwing "SEARCH_GENERATION_EXHAUSTED" }
  else { fill with phase := .summarizing true }

/-- The loop's head: a fingerprint that is not recorded yet is submitted. -/
def generated (generators : Generators) : Fill :=
  if fill.submitted < fill.slots ∧ fill.attempts < maxAttempts fill.slots then
    let trying := { fill with attempts := fill.attempts + 1 }
    let context : GeneratorContext :=
      ⟨fill.run.searchRunId, fill.run.nextIteration + trying.attempts - 1⟩
    match generators fill.run.generatorType with
    | none => { trying with phase := .throwing "UNSUPPORTED_GENERATOR" }
    | some generate =>
      match generate fill.run.searchSpace context with
      | .error error => trying.retried error
      | .ok candidate =>
        if candidate.fingerprint ∈ fill.run.searchSpace.generatedFingerprints then trying
        else { trying with phase := .submitting candidate }
  else fill.exited

def accepted (candidate : GeneratedCandidate) : Fill :=
  { fill with
    run := recordSubmission fill.run candidate
    submitted := fill.submitted + 1
    phase := .looping }

end Fill

/-- The record that a submission of the run asks Backtesting to store. -/
def Requested (run : SearchRun) (candidate : StoredCandidate) : Prop :=
  candidate.origin = .search ∧ candidate.searchRunId = some run.searchRunId
    ∧ candidate.iterationNumber = some run.nextIteration ∧ candidate.ownerUserId = run.ownerUserId
    ∧ candidate.leaderboardScopeId = run.leaderboardScopeId ∧ candidate.maxAttempts = 1

instance (run : SearchRun) (candidate : StoredCandidate) : Decidable (Requested run candidate) :=
  inferInstanceAs (Decidable (_ ∧ _))

end Cryptox.Search
