import Mathlib.Data.List.Sort
import Cryptox.Library.Table
import Cryptox.Backtesting.Repository.State
import Cryptox.Backtesting.Simulator

/-!
# Admission to a leaderboard

What `submit` of the leaderboard decides between its reads and its writes.
-/
namespace Cryptox.Leaderboard

open Cryptox.Backtesting
open Cryptox.Library (Table)

structure LeaderboardEntry where
  id : String
  experimentResultId : String
  leaderboardScopeId : String
  scoreFormulaId : String
  score : JsNumber
  addedAt : Int
  active : Bool
deriving DecidableEq, Repr

abbrev EntryTable := Table LeaderboardEntry.id

def topK : Nat := 10

/-- The order of `rankEntries`. Entry ids are lower-case text, which compares alike everywhere. -/
def ranksBefore (left right : LeaderboardEntry) : Bool :=
  right.score.lt left.score
    || (!left.score.lt right.score
      && (left.addedAt < right.addedAt || (left.addedAt == right.addedAt && left.id ≤ right.id)))

def rankEntries (entries : List LeaderboardEntry) : List LeaderboardEntry :=
  entries.insertionSort fun left right => ranksBefore left right = true

/-- The entry of a search candidate: the only ones a ranking counts. -/
def ofSearch (repository : RepositoryState) (entry : LeaderboardEntry) : Bool :=
  ((repository.experiments.get? entry.experimentResultId).bind fun experiment =>
    repository.candidates.get? experiment.candidateId).any fun candidate =>
      candidate.origin == .search && candidate.searchRunId.isSome

def getActiveTopK (repository : RepositoryState) (entries : EntryTable) (scopeId : String) :
    List LeaderboardEntry :=
  (rankEntries (entries.rows.filter fun entry =>
    entry.leaderboardScopeId == scopeId && entry.active && ofSearch repository entry)).take topK

def getByExperimentResultId (entries : EntryTable) (experimentResultId : String) :
    Option LeaderboardEntry :=
  entries.rows.find? fun entry => entry.experimentResultId == experimentResultId

/-- What `submit` checks before it reads the entries: whether the experiment is ranked at all. -/
def submitCheck (experiment : StoredExperiment) (scopeFound : Bool) : Except String Bool :=
  if (experiment.searchRunId.getD "").isEmpty || !experiment.rankEligible then .ok false
  else if !experiment.overallScore.isFinite then .error "INVALID_SCORE"
  else if isBlank experiment.ownerUserId then .error "EXPERIMENT_OWNER_REQUIRED"
  else if !scopeFound then .error "SCOPE_NOT_FOUND"
  else .ok true

/-- Whether an experiment is admitted beside the active entries, and the entry it evicts. -/
def admission (activeEntries : List LeaderboardEntry) (experiment : StoredExperiment) :
    Option (Option String) :=
  if activeEntries.length = topK then
    match activeEntries.getLast? with
    | some lowest =>
      if experiment.overallScore.le lowest.score then none else some (some lowest.id)
    | none => some none
  else some none

def insertedEntry (experiment : StoredExperiment) (id : String) (addedAt : Int) :
    LeaderboardEntry where
  id
  experimentResultId := experiment.id
  leaderboardScopeId := experiment.leaderboardScopeId
  scoreFormulaId := experiment.scoreFormulaId
  score := experiment.overallScore
  addedAt
  active := true

def deactivate (entries : EntryTable) (entryId : String) : EntryTable :=
  match entries.get? entryId with
  | some entry => entries.put { entry with active := false }
  | none => entries

end Cryptox.Leaderboard
