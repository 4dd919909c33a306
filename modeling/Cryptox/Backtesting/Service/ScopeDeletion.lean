import Cryptox.Backtesting.Repository.Replays
import Cryptox.Backtesting.Service.Runs
import Cryptox.Backtesting.Service.Creation
import Cryptox.Leaderboard.Submission
import Cryptox.Search.Contracts

/-!
# Deleting a scope

`deleteScope` of both repositories over everything that may belong to a scope. Ownership decides
before the first deletion in memory, and only at the last statement of the transaction in Postgres.
-/
namespace Cryptox.Backtesting

open Cryptox.Library (Table)
open Cryptox.Library.Table
open Cryptox.Leaderboard (LeaderboardEntry EntryTable)
open Cryptox.Search (SearchRun)

/-- Everything that is stored under a scope, of both repositories and their neighbours. -/
structure BenchmarkStore where
  scopes : ScopeStore
  repository : RepositoryState
  replays : ReplayTable
  leaderboardEntries : EntryTable
  searchRuns : Table SearchRun.searchRunId

namespace BenchmarkStore

def empty : BenchmarkStore := ⟨.empty, .empty, .empty, .empty, .empty⟩

section Belonging

variable (store : BenchmarkStore) (scopeId : String)

/-- The candidate is one of the scope. -/
def candidateOf (candidateId : String) : Bool :=
  (store.repository.candidates.get? candidateId).any fun candidate =>
    candidate.leaderboardScopeId == scopeId

/-- The attempt is one of a candidate of the scope. -/
def attemptOf (attemptId : AttemptId) : Bool :=
  (store.repository.attempts.get? attemptId).any fun attempt =>
    store.candidateOf scopeId attempt.candidateId

def experimentOf (experimentId : String) : Bool :=
  (store.repository.experiments.get? experimentId).any fun experiment =>
    experiment.leaderboardScopeId == scopeId

end Belonging

section Statements

variable (store : BenchmarkStore) (scopeId : String)

def deleteLeaderboardEntries : BenchmarkStore :=
  { store with
    leaderboardEntries := store.leaderboardEntries.remove fun entry =>
      entry.leaderboardScopeId == scopeId }

def deleteReplayVerifications : BenchmarkStore :=
  { store with
    replays := store.replays.remove fun replay => store.experimentOf scopeId replay.experimentId }

def deleteTrades : BenchmarkStore :=
  { store with
    repository.trades := store.repository.trades.remove fun trades =>
      store.attemptOf scopeId trades.attemptId }

def deleteExperiments : BenchmarkStore :=
  { store with
    repository.experiments := store.repository.experiments.remove fun experiment =>
      experiment.leaderboardScopeId == scopeId }

def deleteAttempts : BenchmarkStore :=
  { store with
    repository.attempts := store.repository.attempts.remove fun attempt =>
      store.candidateOf scopeId attempt.candidateId }

def deleteDispatches : BenchmarkStore :=
  { store with
    repository.dispatches := store.repository.dispatches.remove fun dispatch =>
      store.candidateOf scopeId dispatch.candidateId }

/-- In Postgres a submission key is a column of its candidate. -/
def deleteSubmissionKeys : BenchmarkStore :=
  { store with
    repository.candidateIdempotency := store.repository.candidateIdempotency.remove fun row =>
      store.candidateOf scopeId row.candidateId }

def deleteCandidates : BenchmarkStore :=
  { store with
    repository.candidates := store.repository.candidates.remove fun candidate =>
      candidate.leaderboardScopeId == scopeId }

def deleteSearchRuns : BenchmarkStore :=
  { store with
    searchRuns := store.searchRuns.remove fun run => run.leaderboardScopeId == scopeId }

/-- The scope goes together with the keys that stand for it. -/
def removeScope : BenchmarkStore :=
  { store with
    scopes :=
      { scopes := store.scopes.scopes.remove fun scope => scope.id == scopeId
        scopeIdempotency := store.scopes.scopeIdempotency.remove fun row => row.scopeId == scopeId } }

end Statements

/-- The scope is stored, and under this owner. -/
def owns (store : BenchmarkStore) (scopeId ownerUserId : String) : Bool :=
  (readScope store.scopes.scopes scopeId (some ownerUserId)).isSome

end BenchmarkStore

def InMemory.deleteScope (store : BenchmarkStore) (scopeId ownerUserId : String) :
    BenchmarkStore × Bool :=
  if store.owns scopeId ownerUserId then ((store.deleteCandidates scopeId).removeScope scopeId, true)
  else (store, false)

/-- One transaction: it commits whatever the last statement has found. -/
def Postgres.deleteScope (store : BenchmarkStore) (scopeId ownerUserId : String) :
    BenchmarkStore × Bool :=
  let store := store.deleteLeaderboardEntries scopeId
  let store := store.deleteReplayVerifications scopeId
  let store := store.deleteTrades scopeId
  let store := store.deleteExperiments scopeId
  let store := store.deleteAttempts scopeId
  let store := store.deleteDispatches scopeId
  let store := (store.deleteSubmissionKeys scopeId).deleteCandidates scopeId
  let store := store.deleteSearchRuns scopeId
  if store.owns scopeId ownerUserId then (store.removeScope scopeId, true) else (store, false)

def Storage.deleteScope : Storage → BenchmarkStore → String → String → BenchmarkStore × Bool
  | inMemory => InMemory.deleteScope
  | postgres => Postgres.deleteScope

/-- `deleteBenchmarkScope` of the service: only a scope that its owner can read is deleted. -/
def deleteBenchmarkScope (storage : Storage) (store : BenchmarkStore) (userId scopeId : String) :
    BenchmarkStore × Except String Bool :=
  if isBlank userId then (store, .error "INVALID_AUTH_CONTEXT")
  else
    match findScope store.scopes.scopes scopeId (some userId) with
    | .error error => (store, .error error)
    | .ok existing =>
      let (after, deleted) := storage.deleteScope store existing.id userId
      (after, if deleted then .ok true else .error "BACKTEST_SCOPE_NOT_FOUND")

/-- What a complete deletion of the scope leaves. -/
structure ScopeDeleted (before after : BenchmarkStore) (scopeId : String) : Prop where
  candidates : Removed before.repository.candidates after.repository.candidates fun candidate =>
    candidate.leaderboardScopeId == scopeId
  dispatches : Removed before.repository.dispatches after.repository.dispatches fun dispatch =>
    before.candidateOf scopeId dispatch.candidateId
  attempts : Removed before.repository.attempts after.repository.attempts fun attempt =>
    before.candidateOf scopeId attempt.candidateId
  trades : Removed before.repository.trades after.repository.trades fun trades =>
    before.attemptOf scopeId trades.attemptId
  experiments : Removed before.repository.experiments after.repository.experiments fun experiment =>
    experiment.leaderboardScopeId == scopeId
  replays : Removed before.replays after.replays fun replay =>
    before.experimentOf scopeId replay.experimentId
  scopes : Removed before.scopes.scopes after.scopes.scopes fun scope => scope.id == scopeId
  scopeKeys : Kept before.scopes.scopeIdempotency after.scopes.scopeIdempotency fun row =>
    row.scopeId == scopeId
  submissionKeys : Kept before.repository.candidateIdempotency after.repository.candidateIdempotency
    fun row => before.candidateOf scopeId row.candidateId
  leaderboardEntries : Kept before.leaderboardEntries after.leaderboardEntries fun entry =>
    entry.leaderboardScopeId == scopeId
  searchRuns : Kept before.searchRuns after.searchRuns fun run => run.leaderboardScopeId == scopeId

/-- A deletion answers `true` after deleting all, and `false` after nothing. -/
structure AllOrNothing (before : BenchmarkStore) (scopeId : String) (result : BenchmarkStore × Bool) :
    Prop where
  nothing : result.2 = false → result.1 = before
  complete : result.2 = true → ScopeDeleted before result.1 scopeId

namespace BenchmarkStore

variable (store : BenchmarkStore) (scopeId : String)

/-- Besides candidates the repository keeps nothing of the scope. Then it has no trades and no
replays of it either: these hang on an attempt and an experiment. -/
structure OnlyCandidates : Prop where
  dispatches : ∀ dispatch ∈ store.repository.dispatches.rows,
    store.candidateOf scopeId dispatch.candidateId = false
  attempts : ∀ attempt ∈ store.repository.attempts.rows,
    store.candidateOf scopeId attempt.candidateId = false
  experiments : ∀ experiment ∈ store.repository.experiments.rows,
    (experiment.leaderboardScopeId == scopeId) = false

/-- No row names the scope. -/
structure Unused : Prop where
  candidates : ∀ candidate ∈ store.repository.candidates.rows,
    (candidate.leaderboardScopeId == scopeId) = false
  experiments : ∀ experiment ∈ store.repository.experiments.rows,
    (experiment.leaderboardScopeId == scopeId) = false
  leaderboardEntries : ∀ entry ∈ store.leaderboardEntries.rows,
    (entry.leaderboardScopeId == scopeId) = false
  searchRuns : ∀ run ∈ store.searchRuns.rows, (run.leaderboardScopeId == scopeId) = false

variable {store scopeId}

theorem experimentOf_eq_false
    (h : ∀ experiment ∈ store.repository.experiments.rows,
      (experiment.leaderboardScopeId == scopeId) = false) (experimentId : String) :
    store.experimentOf scopeId experimentId = false :=
  any_get?_eq_false h experimentId

theorem attemptOf_eq_false
    (h : ∀ attempt ∈ store.repository.attempts.rows,
      store.candidateOf scopeId attempt.candidateId = false) (attemptId : AttemptId) :
    store.attemptOf scopeId attemptId = false :=
  any_get?_eq_false h attemptId

theorem Unused.candidateOf (h : store.Unused scopeId) (candidateId : String) :
    store.candidateOf scopeId candidateId = false :=
  any_get?_eq_false h.candidates candidateId

variable (store scopeId)

/-- The transaction before its last statement, each table being read before it is written. -/
def withoutDependents : BenchmarkStore where
  scopes := store.scopes
  repository :=
    { candidates := store.repository.candidates.remove fun candidate =>
        candidate.leaderboardScopeId == scopeId
      candidateIdempotency := store.repository.candidateIdempotency.remove fun row =>
        store.candidateOf scopeId row.candidateId
      attempts := store.repository.attempts.remove fun attempt =>
        store.candidateOf scopeId attempt.candidateId
      trades := store.repository.trades.remove fun trades =>
        store.attemptOf scopeId trades.attemptId
      dispatches := store.repository.dispatches.remove fun dispatch =>
        store.candidateOf scopeId dispatch.candidateId
      experiments := store.repository.experiments.remove fun experiment =>
        experiment.leaderboardScopeId == scopeId }
  replays := store.replays.remove fun replay => store.experimentOf scopeId replay.experimentId
  leaderboardEntries := store.leaderboardEntries.remove fun entry =>
    entry.leaderboardScopeId == scopeId
  searchRuns := store.searchRuns.remove fun run => run.leaderboardScopeId == scopeId

end BenchmarkStore

theorem Postgres.deleteScope_eq (store : BenchmarkStore) (scopeId ownerUserId : String) :
    Postgres.deleteScope store scopeId ownerUserId =
      if store.owns scopeId ownerUserId then
        ((store.withoutDependents scopeId).removeScope scopeId, true)
      else (store.withoutDependents scopeId, false) :=
  rfl

theorem scopeDeleted_withoutDependents (store : BenchmarkStore) (scopeId : String) :
    ScopeDeleted store ((store.withoutDependents scopeId).removeScope scopeId) scopeId where
  candidates := removed_remove _ _
  dispatches := removed_remove _ _
  attempts := removed_remove _ _
  trades := removed_remove _ _
  experiments := removed_remove _ _
  replays := removed_remove _ _
  scopes := removed_remove _ _
  scopeKeys := kept_remove _ _
  submissionKeys := kept_remove _ _
  leaderboardEntries := kept_remove _ _
  searchRuns := kept_remove _ _

/-- The transaction leaves the store as it was exactly when no row names the scope. -/
theorem withoutDependents_eq_self_iff {store : BenchmarkStore} {scopeId : String} :
    store.withoutDependents scopeId = store ↔ store.Unused scopeId := by
  constructor
  · intro h
    have hrepository := congrArg BenchmarkStore.repository h
    exact {
      candidates := remove_eq_self_iff.mp (congrArg RepositoryState.candidates hrepository)
      experiments := remove_eq_self_iff.mp (congrArg RepositoryState.experiments hrepository)
      leaderboardEntries :=
        remove_eq_self_iff.mp (congrArg BenchmarkStore.leaderboardEntries h)
      searchRuns := remove_eq_self_iff.mp (congrArg BenchmarkStore.searchRuns h) }
  · intro h
    have hkeys : ∀ row ∈ store.repository.candidateIdempotency.rows,
        store.candidateOf scopeId row.candidateId = false :=
      fun row _ => h.candidateOf row.candidateId
    have hdispatches : ∀ dispatch ∈ store.repository.dispatches.rows,
        store.candidateOf scopeId dispatch.candidateId = false :=
      fun dispatch _ => h.candidateOf dispatch.candidateId
    have hattempts : ∀ attempt ∈ store.repository.attempts.rows,
        store.candidateOf scopeId attempt.candidateId = false :=
      fun attempt _ => h.candidateOf attempt.candidateId
    have htrades : ∀ trades ∈ store.repository.trades.rows,
        store.attemptOf scopeId trades.attemptId = false :=
      fun trades _ => BenchmarkStore.attemptOf_eq_false hattempts trades.attemptId
    have hreplays : ∀ replay ∈ store.replays.rows,
        store.experimentOf scopeId replay.experimentId = false :=
      fun replay _ => BenchmarkStore.experimentOf_eq_false h.experiments replay.experimentId
    rw [BenchmarkStore.withoutDependents, remove_eq_self_iff.mpr h.candidates,
      remove_eq_self_iff.mpr hkeys, remove_eq_self_iff.mpr hattempts,
      remove_eq_self_iff.mpr htrades, remove_eq_self_iff.mpr hdispatches,
      remove_eq_self_iff.mpr h.experiments, remove_eq_self_iff.mpr hreplays,
      remove_eq_self_iff.mpr h.leaderboardEntries, remove_eq_self_iff.mpr h.searchRuns]

/-- Deleting the candidates alone is complete exactly when nothing hangs on them. -/
theorem scopeDeleted_candidates_iff {store : BenchmarkStore} {scopeId : String} :
    ScopeDeleted store ((store.deleteCandidates scopeId).removeScope scopeId) scopeId ↔
      store.OnlyCandidates scopeId := by
  constructor
  · intro h
    exact {
      dispatches := removed_refl_iff.mp h.dispatches
      attempts := removed_refl_iff.mp h.attempts
      experiments := removed_refl_iff.mp h.experiments }
  · intro h
    exact {
      candidates := removed_remove _ _
      dispatches := removed_refl_iff.mpr h.dispatches
      attempts := removed_refl_iff.mpr h.attempts
      trades := removed_refl_iff.mpr fun trades _ =>
        BenchmarkStore.attemptOf_eq_false h.attempts trades.attemptId
      experiments := removed_refl_iff.mpr h.experiments
      replays := removed_refl_iff.mpr fun replay _ =>
        BenchmarkStore.experimentOf_eq_false h.experiments replay.experimentId
      scopes := removed_remove _ _
      scopeKeys := kept_remove _ _
      submissionKeys := kept_refl _ _
      leaderboardEntries := kept_refl _ _
      searchRuns := kept_refl _ _ }

/-- When a deletion of each repository is complete, or changes nothing. -/
def Storage.DeletesWhole : Storage → BenchmarkStore → String → String → Prop
  | inMemory, store, scopeId, ownerUserId =>
    store.owns scopeId ownerUserId = true → store.OnlyCandidates scopeId
  | postgres, store, scopeId, ownerUserId =>
    store.owns scopeId ownerUserId = false → store.Unused scopeId

theorem delete_scope_all_or_nothing_iff (storage : Storage) (store : BenchmarkStore)
    (scopeId ownerUserId : String) :
    AllOrNothing store scopeId (storage.deleteScope store scopeId ownerUserId) ↔
      storage.DeletesWhole store scopeId ownerUserId := by
  cases storage with
  | inMemory =>
    rw [Storage.deleteScope, InMemory.deleteScope, Storage.DeletesWhole]
    cases howns : store.owns scopeId ownerUserId with
    | true =>
      rw [if_pos rfl]
      exact ⟨fun h _ => scopeDeleted_candidates_iff.mp (h.complete rfl),
        fun h => ⟨nofun, fun _ => scopeDeleted_candidates_iff.mpr (h rfl)⟩⟩
    | false =>
      rw [if_neg Bool.false_ne_true]
      exact ⟨fun _ => nofun, fun _ => ⟨fun _ => rfl, nofun⟩⟩
  | postgres =>
    rw [Storage.deleteScope, Postgres.deleteScope_eq, Storage.DeletesWhole]
    cases howns : store.owns scopeId ownerUserId with
    | true =>
      rw [if_pos rfl]
      exact ⟨fun _ => nofun, fun _ => ⟨nofun, fun _ => scopeDeleted_withoutDependents store scopeId⟩⟩
    | false =>
      rw [if_neg Bool.false_ne_true]
      exact ⟨fun h _ => withoutDependents_eq_self_iff.mp (h.nothing rfl),
        fun h => ⟨fun _ => withoutDependents_eq_self_iff.mpr (h rfl), nofun⟩⟩

/-! A scope with one submission: its owner deletes the scope, and a stranger tries to. -/
namespace Sample

def oneSubmission : BenchmarkStore :=
  { BenchmarkStore.empty with
    scopes := ScopeStore.empty.put scope "key"
    repository := (InMemory.createQueuedSubmission .empty candidate dispatch none).1 }

end Sample

/-- In memory the dispatch outlives its scope; in Postgres the stranger is refused after the
submission is gone. -/
theorem deletions_of_one_submission :
    ¬ AllOrNothing Sample.oneSubmission "s" (Storage.inMemory.deleteScope Sample.oneSubmission "s" "u")
      ∧ ¬ AllOrNothing Sample.oneSubmission "s"
        (Storage.postgres.deleteScope Sample.oneSubmission "s" "v") := by
  constructor
  · intro h
    have hdispatches := (h.complete (by decide)).dispatches
    have hgone := hdispatches.gone Sample.dispatch (by decide)
    exact absurd hgone (by decide)
  · intro h
    have hbefore := h.nothing (by decide)
    have hcandidates := congrArg (fun store => store.repository.candidates.rows.length) hbefore
    exact absurd hcandidates (by decide)

theorem owns_of_findScope {store : BenchmarkStore} {scopeId userId : String}
    {existing : StoredBenchmarkScope}
    (h : findScope store.scopes.scopes scopeId (some userId) = .ok existing) :
    existing.id = scopeId ∧ store.owns scopeId userId = true := by
  rw [findScope] at h
  cases hread : readScope store.scopes.scopes scopeId (some userId) with
  | none =>
    rw [hread] at h
    cases h
  | some scope =>
    rw [hread] at h
    cases h
    refine ⟨key_of_get? (Option.filter_eq_some_iff.mp hread).1, ?_⟩
    rw [BenchmarkStore.owns, hread, Option.isSome_some]

/-- The service asks for the owner first, so that in Postgres its deletion is whole. -/
theorem deleteBenchmarkScope_postgres (store : BenchmarkStore) (userId scopeId : String) :
    (∃ error, deleteBenchmarkScope .postgres store userId scopeId = (store, .error error)) ∨
      ∃ after, deleteBenchmarkScope .postgres store userId scopeId = (after, .ok true) ∧
        ScopeDeleted store after scopeId := by
  rw [deleteBenchmarkScope]
  by_cases hblank : isBlank userId = true
  · rw [if_pos hblank]
    exact Or.inl ⟨_, rfl⟩
  · rw [if_neg hblank]
    cases hfind : findScope store.scopes.scopes scopeId (some userId) with
    | error error => exact Or.inl ⟨error, rfl⟩
    | ok existing =>
      obtain ⟨rfl, howns⟩ := owns_of_findScope hfind
      simp only [Storage.deleteScope, Postgres.deleteScope_eq, if_pos howns, ↓reduceIte]
      exact Or.inr ⟨_, rfl, scopeDeleted_withoutDependents store existing.id⟩

end Cryptox.Backtesting
