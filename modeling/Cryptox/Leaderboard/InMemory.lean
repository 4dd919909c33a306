import Cryptox.Leaderboard.Ranking

/-!
# The leaderboard over its in-memory repositories

`entries` maps an experiment to its entry, which keeps its place in the map when it is deactivated.
Scopes and formulas are given: `submit` and `topK` only look them up.
-/
namespace Cryptox.Leaderboard

open Cryptox.Backtesting
open Cryptox.Library (Table)

structure LeaderboardScope where
  id : String
  userId : String
  scoreFormulaId : String
deriving DecidableEq, Repr

structure EntryRepository where
  entries : Table LeaderboardEntry.experimentResultId
  sequence : Nat

namespace EntryRepository

variable (repository : EntryRepository)

/-- The active entries of a scope, in the order of the map. -/
def active (scopeId : String) : List LeaderboardEntry :=
  repository.entries.rows.filter fun entry => entry.active && entry.leaderboardScopeId == scopeId

def getActiveTopK (scopeId : String) (limit : Nat) : List LeaderboardEntry :=
  (rankEntries (repository.active scopeId)).take limit

def getByExperimentResultId (experimentResultId : String) : Option LeaderboardEntry :=
  repository.entries.get? experimentResultId

def entryId (sequence : Nat) : String := "leaderboard-entry-" ++ toString sequence

def insert (experiment : StoredExperiment) (addedAt : Int) : EntryRepository × LeaderboardEntry :=
  let created := insertedEntry experiment (entryId (repository.sequence + 1)) addedAt
  (⟨repository.entries.put created, repository.sequence + 1⟩, created)

def deactivated (entryId : String) (entry : LeaderboardEntry) : LeaderboardEntry :=
  if entry.id = entryId then { entry with active := false } else entry

def deactivate (entryId : String) : EntryRepository :=
  { repository with
    entries := repository.entries.modify (deactivated entryId) fun entry => by
      rw [deactivated]
      split <;> rfl }

end EntryRepository

/-- An entry with its place in a ranking, counted from one; nought outside of any. -/
structure RankedEntry where
  rank : Nat
  entry : LeaderboardEntry
deriving DecidableEq, Repr

def withRanks (entries : List LeaderboardEntry) : List RankedEntry :=
  entries.mapIdx fun index entry => ⟨index + 1, entry⟩

structure LeaderboardSubmissionResult where
  admitted : Bool
  entry : Option RankedEntry
  evictedExperimentResultId : Option String
deriving DecidableEq, Repr

structure Runtime where
  scopes : Table LeaderboardScope.id
  /-- The ids of the formulas that are cached or stored. -/
  formulas : List String
  repository : EntryRepository

namespace Runtime

variable (runtime : Runtime)

def getById (userId id : String) : Option LeaderboardScope :=
  (runtime.scopes.get? id).filter fun scope => scope.userId == userId

def cacheScopeAndFormula (scope : LeaderboardScope) : Except String Unit :=
  if runtime.formulas.contains scope.scoreFormulaId then .ok ()
  else .error "SCORE_FORMULA_NOT_FOUND"

/-- The owner and scope checks of `topK`. -/
def readScope (userId leaderboardScopeId : String) : Except String Unit :=
  if isBlank userId then .error "INVALID_AUTH_CONTEXT"
  else
    match runtime.getById userId leaderboardScopeId with
    | none => .error "SCOPE_NOT_FOUND"
    | some scope => runtime.cacheScopeAndFormula scope

def topK (userId leaderboardScopeId : String) : Except String (List RankedEntry) := do
  runtime.readScope userId leaderboardScopeId
  return withRanks (rankEntries
    (runtime.repository.getActiveTopK leaderboardScopeId Leaderboard.topK))

/-- What `submit` checks before it reads the entries. -/
def check (experiment : StoredExperiment) : Except String Bool := do
  let scope := runtime.getById experiment.ownerUserId experiment.leaderboardScopeId
  let ranked ← submitCheck experiment scope.isSome
  if ranked then
    (scope.elim (.ok ()) runtime.cacheScopeAndFormula)
    return true
  else return false

/-- The entry as the active ranking shows it, if it is there. -/
def shown (repository : EntryRepository) (entry : LeaderboardEntry) : RankedEntry :=
  ((withRanks (rankEntries
    (repository.getActiveTopK entry.leaderboardScopeId Leaderboard.topK))).find?
      fun ranked => ranked.entry.id == entry.id).getD ⟨0, entry⟩

def submit (experiment : StoredExperiment) (now : Int) :
    Runtime × Except String LeaderboardSubmissionResult :=
  match runtime.check experiment with
  | .error error => (runtime, .error error)
  | .ok false => (runtime, .ok ⟨false, none, none⟩)
  | .ok true =>
    match runtime.repository.getByExperimentResultId experiment.id with
    | some existing =>
      if existing.leaderboardScopeId = experiment.leaderboardScopeId then
        (runtime, .ok ⟨true, some ⟨0, existing⟩, none⟩)
      else (runtime, .ok ⟨false, none, none⟩)
    | none =>
      let activeEntries := rankEntries
        (runtime.repository.getActiveTopK experiment.leaderboardScopeId Leaderboard.topK)
      match admission activeEntries experiment with
      | none => (runtime, .ok ⟨false, none, none⟩)
      | some evicted =>
        let remaining := evicted.elim runtime.repository runtime.repository.deactivate
        let (repository, inserted) := remaining.insert experiment now
        ({ runtime with repository },
          .ok ⟨true, some (shown repository inserted),
            activeEntries.getLast?.map (·.experimentResultId)⟩)

section Congr

variable {runtime} {other : Runtime} (hscopes : other.scopes = runtime.scopes)
  (hformulas : other.formulas = runtime.formulas)

include hscopes hformulas

/-- The checks look at the scopes and the formulas only. -/
theorem check_congr (experiment : StoredExperiment) :
    other.check experiment = runtime.check experiment := by
  have hcache : other.cacheScopeAndFormula = runtime.cacheScopeAndFormula := by
    funext scope
    simp only [cacheScopeAndFormula, hformulas]
  simp only [check, getById, hcache, hscopes]

theorem readScope_congr (userId leaderboardScopeId : String) :
    other.readScope userId leaderboardScopeId = runtime.readScope userId leaderboardScopeId := by
  simp only [readScope, getById, cacheScopeAndFormula, hscopes, hformulas]

end Congr

end Runtime

end Cryptox.Leaderboard
