import Cryptox.Library.Outcome
import Cryptox.Backtesting.Repository.Run

/-!
# What no operation changes of the keys and the queue

Only a submission records a key or adds a dispatch. The other operations rewrite dispatches that are
there, for the same candidates.
-/
namespace Cryptox.Backtesting

open Cryptox.Library

structure KeepsQueue (state state' : RepositoryState) : Prop where
  keys : state'.candidateIdempotency = state.candidateIdempotency
  dispatches : ∀ jobId dispatch, state'.dispatches.get? jobId = some dispatch →
    ∃ before, state.dispatches.get? jobId = some before ∧
      dispatch.candidateId = before.candidateId

namespace KeepsQueue

variable {state state' state'' : RepositoryState}

theorem of_eq (hkeys : state'.candidateIdempotency = state.candidateIdempotency)
    (hdispatches : state'.dispatches = state.dispatches) : KeepsQueue state state' := by
  refine ⟨hkeys, fun jobId dispatch h => ⟨dispatch, ?_, rfl⟩⟩
  rw [← hdispatches]
  exact h

theorem refl (state : RepositoryState) : KeepsQueue state state := of_eq rfl rfl

theorem trans (h : KeepsQueue state state') (h' : KeepsQueue state' state'') :
    KeepsQueue state state'' := by
  refine ⟨h'.keys.trans h.keys, fun jobId dispatch hget => ?_⟩
  obtain ⟨between, hbetween, hcandidate⟩ := h'.dispatches jobId dispatch hget
  obtain ⟨before, hbefore, hcandidate'⟩ := h.dispatches jobId between hbetween
  exact ⟨before, hbefore, hcandidate.trans hcandidate'⟩

theorem putCandidate (h : KeepsQueue state state') (candidate : StoredCandidate) :
    KeepsQueue state (state'.putCandidate candidate) := h.trans (.of_eq rfl rfl)

theorem putDispatch {jobId : String} {before : BacktestDispatch}
    (h : state.dispatches.get? jobId = some before) (dispatch : BacktestDispatch)
    (hjob : dispatch.job = before.job) : KeepsQueue state (state.putDispatch dispatch) := by
  refine ⟨rfl, fun jobId' after hget => ?_⟩
  change (state.dispatches.put dispatch).get? jobId' = some after at hget
  rw [Table.get?_put] at hget
  split at hget
  next hid =>
    cases hget
    have hbefore : before.jobId = jobId := Table.key_of_get? h
    have hsame : jobId' = jobId := by
      rw [hid, ← hbefore, BacktestDispatch.jobId, BacktestDispatch.jobId, hjob]
    refine ⟨before, hsame ▸ h, ?_⟩
    rw [BacktestDispatch.candidateId, BacktestDispatch.candidateId, hjob]
  next => exact ⟨after, hget, rfl⟩

end KeepsQueue

theorem failRunning_keepsQueue (state : RepositoryState) (candidate : StoredCandidate)
    (running : Option BacktestAttemptAudit) (now : Int) (error : String) :
    KeepsQueue state (state.failRunning candidate running now error) := by
  unfold RepositoryState.failRunning
  split
  · exact .of_eq rfl rfl
  · split <;> exact .of_eq rfl rfl

theorem fencedWrite_keepsQueue (state : RepositoryState) (copy : StoredCandidate)
    (claimToken : String) (now : Int) (allowed : CandidateStatus → Bool)
    (write : StoredCandidate → StoredCandidate) :
    KeepsQueue state (state.fencedWrite copy claimToken now allowed write).1 := by
  unfold RepositoryState.fencedWrite
  split
  · split <;> exact .of_eq rfl rfl
  · exact .refl state

theorem inMemory_redispatch_keepsQueue (state : RepositoryState) (jobId : String) (now : Int)
    (error : String) : KeepsQueue state (InMemory.redispatch state jobId now error) := by
  unfold InMemory.redispatch
  split
  · exact .refl state
  next dispatch hget =>
    split
    · exact .refl state
    · exact .putDispatch hget _ rfl

theorem postgres_redispatch_keepsQueue (state : RepositoryState) (candidateId : String) (now : Int)
    (error : String) : KeepsQueue state (Postgres.redispatch state candidateId now error) := by
  unfold Postgres.redispatch
  split
  · exact .refl state
  next dispatch hfound =>
    split
    · exact .refl state
    · exact .putDispatch (Table.get?_of_mem_rows (List.mem_of_find?_eq_some hfound)) _ rfl

namespace Storage

variable (storage : Storage) (state : RepositoryState)

theorem claimWorkerAttempt_keepsQueue (input : WorkerClaimInput) :
    KeepsQueue state (storage.claimWorkerAttempt state input).1 := by
  cases storage with
  | inMemory =>
    simp only [claimWorkerAttempt, InMemory.claimWorkerAttempt]
    split
    · exact .refl state
    · split <;> exact .of_eq rfl rfl
  | postgres =>
    simp only [claimWorkerAttempt, Postgres.claimWorkerAttempt]
    split
    · exact .refl state
    · split
      · split
        · exact .of_eq rfl rfl
        · split <;> exact .of_eq rfl rfl
      · exact .refl state

theorem insertTrades_keepsQueue {state inserted : RepositoryState} {attemptId : AttemptId}
    {trades : List Trade} (h : Postgres.insertTrades state attemptId trades = .ok inserted) :
    KeepsQueue state inserted := by
  unfold Postgres.insertTrades at h
  split at h
  · cases h
    exact .refl state
  · simp only [bind_eq_ok, pure_eq_ok] at h
    obtain ⟨rows, -, rfl⟩ := h
    exact .of_eq rfl rfl

theorem persistWorkerSuccess_keepsQueue (input : WorkerSuccessInput) :
    KeepsQueue state (storage.persistWorkerSuccess state input).1 := by
  cases storage with
  | inMemory =>
    simp only [persistWorkerSuccess, InMemory.persistWorkerSuccess]
    split
    · split <;> exact .of_eq rfl rfl
    · exact .refl state
  | postgres =>
    simp only [persistWorkerSuccess, Postgres.persistWorkerSuccess]
    split
    · exact .refl state
    next candidate attempt hfenced =>
      split
      · exact .refl state
      next inserted hinserted =>
        have hput : KeepsQueue state
            (state.putAttempt (attempt.completed (candidate.status = .cancelled)
              input.trades.length input.completedAt)) := .of_eq rfl rfl
        exact (hput.trans (insertTrades_keepsQueue hinserted)).trans (.of_eq rfl rfl)

theorem failWorkerAttempt_keepsQueue (input : WorkerFailureInput) :
    KeepsQueue state (storage.failWorkerAttempt state input).1 := by
  cases storage with
  | inMemory =>
    simp only [failWorkerAttempt, InMemory.failWorkerAttempt]
    split
    · split <;> exact .of_eq rfl rfl
    · exact .refl state
  | postgres =>
    simp only [failWorkerAttempt, Postgres.failWorkerAttempt]
    split
    · exact .refl state
    · exact .of_eq rfl rfl

theorem recoverAbandonedAttempt_keepsQueue (candidateId : String) (now : Int) (error : String) :
    KeepsQueue state (storage.recoverAbandonedAttempt state candidateId now error).1 := by
  cases storage with
  | inMemory =>
    simp only [recoverAbandonedAttempt, InMemory.recoverAbandonedAttempt]
    split
    · exact .refl state
    · split
      · split
        · exact ((failRunning_keepsQueue state _ _ now error).putCandidate _).trans
            (inMemory_redispatch_keepsQueue _ _ _ _)
        · exact (failRunning_keepsQueue state _ _ now error).putCandidate _
      · exact .refl state
  | postgres =>
    simp only [recoverAbandonedAttempt, Postgres.recoverAbandonedAttempt]
    split
    · exact .refl state
    · split
      · split
        · exact ((failRunning_keepsQueue state _ _ now error).putCandidate _).trans
            (postgres_redispatch_keepsQueue _ _ _ _)
        · exact (failRunning_keepsQueue state _ _ now error).putCandidate _
      · exact .refl state

theorem repairTerminalQueueFailure_keepsQueue (candidateId error : String) (now : Int) :
    KeepsQueue state (storage.repairTerminalQueueFailure state candidateId error now).1 := by
  cases storage with
  | inMemory =>
    simp only [repairTerminalQueueFailure, InMemory.repairTerminalQueueFailure]
    split
    · exact .refl state
    · split
      · exact .refl state
      · exact (failRunning_keepsQueue state _ _ _ _).putCandidate _
  | postgres =>
    simp only [repairTerminalQueueFailure, Postgres.repairTerminalQueueFailure]
    split
    · exact .refl state
    · split
      · exact .refl state
      · split
        · exact (failRunning_keepsQueue state _ _ _ _).putCandidate _
        · exact failRunning_keepsQueue state _ _ _ _

theorem claimCompletion_keepsQueue (candidateId claimToken : String) (now leaseExpiresAt : Int) :
    KeepsQueue state (storage.claimCompletion state candidateId claimToken now leaseExpiresAt).1 := by
  cases storage <;>
  · simp only [claimCompletion, InMemory.claimCompletion, Postgres.claimCompletion]
    split
    · exact .refl state
    · split <;> exact .of_eq rfl rfl

theorem updateCandidate_keepsQueue (candidate : StoredCandidate) :
    KeepsQueue state (storage.updateCandidate state candidate) := by
  cases storage with
  | inMemory => exact .of_eq rfl rfl
  | postgres =>
    simp only [updateCandidate, Postgres.updateCandidate]
    split <;> exact .of_eq rfl rfl

theorem markDispatchDispatched_keepsQueue (jobId : String) (now : Int) :
    KeepsQueue state (storage.markDispatchDispatched state jobId now) := by
  cases storage <;>
  · simp only [markDispatchDispatched, InMemory.markDispatchDispatched,
      Postgres.markDispatchDispatched]
    split
    · exact .refl state
    next dispatch hget =>
      split
      · exact .refl state
      · exact .putDispatch hget _ rfl

theorem markDispatchFailed_keepsQueue (jobId error : String) (now : Int) :
    KeepsQueue state (storage.markDispatchFailed state jobId error now) := by
  cases storage <;>
  · simp only [markDispatchFailed, InMemory.markDispatchFailed, Postgres.markDispatchFailed]
    split
    · exact .refl state
    next dispatch hget =>
      split
      · exact .refl state
      · exact .putDispatch hget _ rfl

theorem markDispatchCancelled_keepsQueue (jobId : String) (now : Int) :
    KeepsQueue state (storage.markDispatchCancelled state jobId now) := by
  cases storage <;>
  · simp only [markDispatchCancelled, InMemory.markDispatchCancelled,
      Postgres.markDispatchCancelled]
    split
    · exact .refl state
    next dispatch hget => exact .putDispatch hget _ rfl

/-- An operation other than a submission keeps the keys and the dispatches. -/
theorem apply_keepsQueue {step : Step} (h : step.isSubmit = false) :
    KeepsQueue state (storage.apply state step) := by
  cases step with
  | submit => cases h
  | tick | read => exact .refl state
  | claimWorkerAttempt input => exact storage.claimWorkerAttempt_keepsQueue state input
  | persistWorkerSuccess input => exact storage.persistWorkerSuccess_keepsQueue state input
  | failWorkerAttempt input => exact storage.failWorkerAttempt_keepsQueue state input
  | recoverAbandonedAttempt candidateId now error =>
    exact storage.recoverAbandonedAttempt_keepsQueue state candidateId now error
  | repairTerminalQueueFailure candidateId error now =>
    exact storage.repairTerminalQueueFailure_keepsQueue state candidateId error now
  | claimCompletion candidateId claimToken now leaseExpiresAt =>
    exact storage.claimCompletion_keepsQueue state candidateId claimToken now leaseExpiresAt
  | finalizeCompletion | finalizeTerminalFailure | failCompletion =>
    cases storage <;> exact fencedWrite_keepsQueue ..
  | cancel copy now => exact storage.updateCandidate_keepsQueue state (copy.cancelledAt now)
  | markDispatchCancelled jobId now => exact storage.markDispatchCancelled_keepsQueue state jobId now

end Storage

end Cryptox.Backtesting
