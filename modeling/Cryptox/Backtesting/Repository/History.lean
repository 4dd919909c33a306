import Cryptox.Backtesting.Repository.Workers

/-!
# The history of attempts

A finished attempt is written over in two ways only: a claim for the delivery number of a finished
attempt, which both repositories grant, and an in-memory worker write whose token a late
cancellation has put back. Otherwise finished attempts and stored trades stay as they are.
-/
namespace Cryptox.Backtesting

open Cryptox.Library

def finished : AttemptStatus → Bool
  | .completed | .failed => true
  | _ => false

/-- The attempt an in-memory worker write changes is running. -/
def HitsRunning (world : World) (candidateId : String) (attemptId : AttemptId)
    (fenceToken : String) : Prop :=
  ∀ candidate ∈ world.stored candidateId, ∀ attempt ∈ world.repository.attempts.get? attemptId,
    candidate.activeFenceToken = some fenceToken → attempt.fenceToken = some fenceToken →
      attempt.status = .running

instance (world : World) (candidateId : String) (attemptId : AttemptId) (fenceToken : String) :
    Decidable (HitsRunning world candidateId attemptId fenceToken) :=
  inferInstanceAs (Decidable (∀ candidate ∈ world.stored candidateId,
    ∀ attempt ∈ world.repository.attempts.get? attemptId, _ → _ → _))

/-- The steps of workers, recovery, queue repair and users that leave the history alone. -/
def KeepsHistory (storage : Storage) (world : World) : Step → Prop
  | .claimWorkerAttempt input => ∀ candidate ∈ world.stored input.candidateId,
      candidate.queueJobId = input.queueJobId → storage.claimable candidate input.now = true →
        ∀ attempt ∈ world.repository.attempts.get?
          (.delivery input.candidateId input.deliveryAttempt), finished attempt.status = false
  | .persistWorkerSuccess input =>
    storage = .inMemory → HitsRunning world input.candidateId input.attemptId input.fenceToken
  | .failWorkerAttempt input =>
    storage = .inMemory → HitsRunning world input.candidateId input.attemptId input.fenceToken
  | step => step.ofWorkers = true

instance (storage : Storage) (world : World) : ∀ step, Decidable (KeepsHistory storage world step)
  | .claimWorkerAttempt input =>
    inferInstanceAs (Decidable (∀ candidate ∈ world.stored input.candidateId, _ → _ → ∀ attempt ∈
      world.repository.attempts.get? (.delivery input.candidateId input.deliveryAttempt), _))
  | .persistWorkerSuccess input =>
    inferInstanceAs (Decidable (_ → HitsRunning world input.candidateId _ _))
  | .failWorkerAttempt input =>
    inferInstanceAs (Decidable (_ → HitsRunning world input.candidateId _ _))
  | .tick _ | .submit .. | .read _ | .recoverAbandonedAttempt .. | .repairTerminalQueueFailure ..
  | .claimCompletion .. | .finalizeCompletion .. | .finalizeTerminalFailure ..
  | .failCompletion .. | .cancel .. | .markDispatchCancelled .. =>
    inferInstanceAs (Decidable (_ = true))

/-- Trades are stored for completed attempts only. -/
def TradesCompleted (world : World) : Prop :=
  ∀ attemptId trades, world.repository.trades.get? attemptId = some trades →
    ∃ attempt, world.repository.attempts.get? attemptId = some attempt ∧
      attempt.status = .completed

/-- Finished attempts and stored trades are the same in a later world. -/
structure HistoryKept (world later : World) : Prop where
  attempts : ∀ attemptId attempt, world.repository.attempts.get? attemptId = some attempt →
    finished attempt.status = true → later.repository.attempts.get? attemptId = some attempt
  trades : ∀ attemptId trades, world.repository.trades.get? attemptId = some trades →
    later.repository.trades.get? attemptId = some trades

namespace Storage

variable {storage : Storage} {world : World} {step : Step}

theorem running_of_fenced {candidateId fenceToken : String} {attemptId : AttemptId}
    {candidate : StoredCandidate} {attempt : BacktestAttemptAudit}
    (hc : storage = inMemory → HitsRunning world candidateId attemptId fenceToken)
    (hf : Fenced storage world.repository candidateId attemptId fenceToken candidate attempt) :
    attempt.status = .running := by
  cases hstorage : storage with
  | inMemory =>
    exact hc hstorage candidate hf.candidate_stored attempt hf.attempt_stored hf.candidate_token
      hf.attempt_token
  | postgres => exact (hf.running hstorage).1

theorem unfinished_of_runningFailed (h : WorkerInv world) {candidate : StoredCandidate} {now : Int}
    {error : String} {written found : BacktestAttemptAudit}
    (hf : RunningFailed world.repository candidate now error (some written))
    (hfound : world.repository.attempts.get? written.attemptId = some found) :
    finished found.status = false := by
  cases hf with
  | found attempt hget howner hrunning =>
    cases hget.symm.trans hfound
    simp [hrunning, finished]
  | madeUp hempty =>
    have hmem : found ∈ world.repository.attemptsOf candidate.candidateId :=
      mem_attemptsOf.mpr ⟨Table.get?_key hfound, (h.keyed _ _ hfound).1⟩
    rw [hempty] at hmem
    cases hmem

/-- The attempt a step writes over is not finished. -/
theorem unfinished_write (h : WorkerInv world) (henabled : world.enabled step)
    (hc : KeepsHistory storage world step) {row : Option StoredCandidate}
    {written found : BacktestAttemptAudit} {trades : Option AttemptTrades}
    (hw : Write storage world.repository step row (some written) trades)
    (hfound : world.repository.attempts.get? written.attemptId = some found) :
    finished found.status = false := by
  cases hw with
  | @claimed input candidate hstored hclaimable hjob =>
    have hkey := (claimed_attempt storage h henabled hstored
      (early_of_claimable hclaimable)).1
    rw [hkey] at hfound
    exact hc candidate hstored hjob hclaimable found hfound
  | @persisted input candidate attempt trades hfenced
  | @persistedAudit input candidate attempt trades retryAt hfenced =>
    have hrunning := running_of_fenced hc hfenced
    have hsame := Table.get?_key hfenced.attempt_stored
    cases hsame.symm.trans hfound
    simp [hrunning, finished]
  | @failed input candidate attempt category hfenced
  | @failedAudit input candidate attempt kind code error hfenced =>
    have hrunning := running_of_fenced hc hfenced
    have hsame := Table.get?_key hfenced.attempt_stored
    cases hsame.symm.trans hfound
    simp [hrunning, finished]
  | recovered retrying hstored hs hf => exact unfinished_of_runningFailed h hf hfound
  | repaired hstored hopen hbefore hf => exact unfinished_of_runningFailed h hf hfound
  | repairedAttempt hstored hlate hf => exact unfinished_of_runningFailed h hf hfound

/-- Trades are written with the completion of their attempt, which was running. -/
theorem trades_write (hc : KeepsHistory storage world step) {row : Option StoredCandidate}
    {attempt : Option BacktestAttemptAudit} {written : AttemptTrades}
    (hw : Write storage world.repository step row attempt (some written)) :
    ∃ found completed, world.repository.attempts.get? written.attemptId = some found ∧
      found.status = .running ∧ attempt = some completed ∧
      completed.attemptId = written.attemptId ∧ completed.status = .completed := by
  cases hw with
  | @persisted input candidate attempt trades hfenced hlive howner
  | @persistedAudit input candidate attempt trades retryAt hfenced hlive howner =>
    have hkey : attempt.attemptId = input.attemptId := Table.key_of_get? hfenced.attempt_stored
    rw [howner written rfl]
    exact ⟨attempt, _, hfenced.attempt_stored, running_of_fenced hc hfenced, rfl, hkey, rfl⟩

/-- One step keeps the finished attempts and the trades of a world in which trades are stored for
completed attempts only. -/
theorem historyKept_step (h : WorkerInv world) (htrades : TradesCompleted world)
    (henabled : world.enabled step) (hc : KeepsHistory storage world step) :
    HistoryKept world (storage.next world step) ∧ TradesCompleted (storage.next world step) := by
  obtain ⟨row, attempt, trades, hw, hwrote⟩ := apply_writes storage world.repository step
  have hattempts : (storage.next world step).repository.attempts =
      world.repository.attempts.putOption attempt := hwrote.attempts
  have htable : (storage.next world step).repository.trades =
      world.repository.trades.putOption trades := hwrote.trades
  have hkept : ∀ attemptId found, world.repository.attempts.get? attemptId = some found →
      finished found.status = true →
      (storage.next world step).repository.attempts.get? attemptId = some found := by
    intro attemptId found hfound hfinished
    rw [hattempts]
    rcases Table.get?_putOption_cases world.repository.attempts attempt attemptId with
      ⟨written, rfl, hkey, -⟩ | hsame
    · rw [← hkey] at hfound
      rw [unfinished_write h henabled hc hw hfound] at hfinished
      cases hfinished
    · exact hsame.trans hfound
  refine ⟨⟨hkept, ?_⟩, ?_⟩
  · intro attemptId stored hstored
    rw [htable]
    rcases Table.get?_putOption_cases world.repository.trades trades attemptId with
      ⟨written, rfl, hkey, -⟩ | hsame
    · obtain ⟨found, completed, hfound, hrunning, -⟩ := trades_write hc hw
      obtain ⟨attempt', hattempt, hcompleted⟩ := htrades attemptId stored hstored
      rw [show written.attemptId = attemptId from hkey, hattempt] at hfound
      cases hfound
      rw [hcompleted] at hrunning
      cases hrunning
    · exact hsame.trans hstored
  · intro attemptId stored hstored
    rw [htable] at hstored
    rcases Table.get?_putOption_cases world.repository.trades trades attemptId with
      ⟨written, rfl, hkey, -⟩ | hsame
    · obtain ⟨found, completed, -, -, rfl, hid, hcompleted⟩ := trades_write hc hw
      refine ⟨completed, ?_, hcompleted⟩
      rw [hattempts]
      exact Table.get?_put_of_eq _ (hkey.symm.trans hid.symm)
    · obtain ⟨attempt', hattempt, hcompleted⟩ := htrades attemptId stored (hsame.symm.trans hstored)
      exact ⟨attempt', hkept attemptId attempt' hattempt (by simp [hcompleted, finished]), hcompleted⟩

end Storage

theorem HistoryKept.refl (world : World) : HistoryKept world world :=
  ⟨fun _ _ h _ => h, fun _ _ h => h⟩

theorem HistoryKept.trans {first second third : World} (h : HistoryKept first second)
    (h' : HistoryKept second third) : HistoryKept first third :=
  ⟨fun attemptId attempt hget hf => h'.attempts attemptId attempt (h.attempts _ _ hget hf) hf,
    fun attemptId trades hget => h'.trades attemptId trades (h.trades _ _ hget)⟩

namespace Storage

/-- In every run of workers, recovery, queue repair and cancellations without the two writes over
a finished attempt, finished attempts and stored trades never change, and trades are stored for
completed attempts only. -/
theorem history_immutable (storage : Storage) (steps later : List Step)
    (h : storage.system.Legal (KeepsHistory storage) World.start (steps ++ later)) :
    HistoryKept (storage.after steps) (storage.after (steps ++ later)) ∧
      TradesCompleted (storage.after (steps ++ later)) := by
  obtain ⟨hbefore, hafter⟩ := GuardedSystem.legal_append.mp h
  have hnext : ∀ world step, WorkerInv world ∧ TradesCompleted world → world.enabled step →
      KeepsHistory storage world step →
      WorkerInv (storage.next world step) ∧ TradesCompleted (storage.next world step) :=
    fun world step hinv henabled hc =>
      ⟨workerInv_next hinv.1 henabled,
        (historyKept_step hinv.1 hinv.2 henabled hc).2⟩
  have hinv := hbefore.invariant _ hnext ⟨workerInv_start, fun _ _ hget => by cases hget⟩
  have hlater := h.invariant _ hnext ⟨workerInv_start, fun _ _ hget => by cases hget⟩
  refine ⟨?_, hlater.2⟩
  rw [after_append]
  refine hafter.stable _ (HistoryKept (storage.after steps)) hnext ?_ hinv (HistoryKept.refl _)
  exact fun world step hw hkept henabled hc =>
    hkept.trans (historyKept_step hw.1 hw.2 henabled hc).1

/-- The lease of a first delivery runs out, its attempt is failed and the candidate is to be
retried; a user's page has read the running candidate. -/
def untilRecovered : List Step :=
  [.submit Sample.candidate Sample.dispatch none,
    .claimWorkerAttempt (Sample.delivery 1 "f" 0),
    .read "c",
    .recoverAbandonedAttempt "c" 60000 "BACKTEST_WORKER_LEASE_EXPIRED"]

/-- The second delivery completes; the first attempt is untouched. -/
theorem history_immutable_retry :
    HistoryKept (postgres.after untilRecovered) (postgres.after (untilRecovered ++
        [.claimWorkerAttempt (Sample.delivery 2 "g" 61000),
          .persistWorkerSuccess (Sample.success 2 "g" 62000)])) ∧
      TradesCompleted (postgres.after (untilRecovered ++
        [.claimWorkerAttempt (Sample.delivery 2 "g" 61000),
          .persistWorkerSuccess (Sample.success 2 "g" 62000)])) :=
  history_immutable postgres _ _ (by decide)

theorem not_historyKept {world later : World} (attemptId : AttemptId)
    (before afterwards : AttemptStatus)
    (hbefore : (world.repository.attempts.get? attemptId).map (·.status) = some before)
    (hf : finished before = true)
    (hafter : (later.repository.attempts.get? attemptId).map (·.status) = some afterwards)
    (hne : afterwards ≠ before) : ¬ HistoryKept world later := by
  intro hkept
  obtain ⟨attempt, hget, rfl⟩ := Option.map_eq_some_iff.mp hbefore
  rw [hkept.attempts attemptId attempt hget hf] at hafter
  exact hne (Option.some.inj hafter).symm

/-- Two legal runs that write over a failed attempt. Its delivery number is claimed again, in the
database, and the attempt runs again without its failure. In memory a cancellation that read the
row while the attempt ran puts the token back, and the late result completes the failed attempt. -/
theorem history_rewritten :
    (postgres.system.Legal (fun _ _ => True) World.start
        (untilRecovered ++ [.claimWorkerAttempt (Sample.delivery 1 "g" 61000)]) ∧
      ¬ HistoryKept (postgres.after untilRecovered)
        (postgres.after (untilRecovered ++ [.claimWorkerAttempt (Sample.delivery 1 "g" 61000)]))) ∧
    (inMemory.system.Legal (fun _ _ => True) World.start
        (untilRecovered ++ [.cancel (Sample.candidate.claimed (Sample.delivery 1 "f" 0)) 61000,
          .persistWorkerSuccess (Sample.success 1 "f" 62000)]) ∧
      ¬ HistoryKept (inMemory.after untilRecovered)
        (inMemory.after (untilRecovered ++
          [.cancel (Sample.candidate.claimed (Sample.delivery 1 "f" 0)) 61000,
            .persistWorkerSuccess (Sample.success 1 "f" 62000)]))) := by
  refine ⟨⟨by decide, ?_⟩, by decide, ?_⟩
  · exact not_historyKept (.delivery "c" 1) .failed .running (by decide) rfl (by decide) (by decide)
  · exact not_historyKept (.delivery "c" 1) .failed .completed (by decide) rfl (by decide) (by decide)

end Storage

end Cryptox.Backtesting
