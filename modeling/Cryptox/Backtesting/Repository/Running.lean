import Cryptox.Backtesting.Repository.Queue
import Cryptox.Backtesting.Repository.Trades

/-!
# Running candidates

A running candidate has a lease and a running attempt of its active number, its dispatch is under
its own id, and an attempt has no trades while it runs.
-/
namespace Cryptox.Backtesting

open Cryptox.Library

structure RunningInv (world : World) : Prop where
  leased : ∀ candidateId candidate, world.stored candidateId = some candidate →
    candidate.status = .backtesting → candidate.activeLeaseExpiresAt.isSome
  running : ∀ candidateId candidate, world.stored candidateId = some candidate →
    candidate.status = .backtesting → ∃ number attempt,
      candidate.activeAttemptNumber = some number ∧
      world.repository.attempts.get? (.delivery candidateId number) = some attempt ∧
      attempt.status = .running
  queued : ∀ candidateId candidate, world.stored candidateId = some candidate →
    candidate.queueJobId = candidate.candidateId
  copied : ∀ copy ∈ world.copies, copy.queueJobId = copy.candidateId
  dispatched : ∀ jobId dispatch, world.repository.dispatches.get? jobId = some dispatch →
    dispatch.candidateId = jobId
  /-- Trades are those of a candidate that no worker may claim, and their attempt does not run. -/
  traded : ∀ attemptId trades, world.repository.trades.get? attemptId = some trades →
    (∃ row, world.stored attemptId.candidateId = some row ∧ early row.status = false) ∧
      ∀ attempt, world.repository.attempts.get? attemptId = some attempt →
        attempt.status ≠ .running

namespace Storage

variable {storage : Storage} {world : World} {step : Step}

/-- An attempt that runs after a step was claimed by it. -/
theorem claimed_of_running {row : Option StoredCandidate} {written : BacktestAttemptAudit}
    {trades : Option AttemptTrades}
    (hw : Write storage world.repository step row (some written) trades)
    (hs : written.status = .running) : ∃ input candidate, step = .claimWorkerAttempt input ∧
      world.stored input.candidateId = some candidate ∧ early candidate.status = true := by
  have hfailed : ∀ {candidate now error},
      RunningFailed world.repository candidate now error (some written) → False := by
    intro candidate now error hf
    cases hf <;> cases hs
  cases hw with
  | @claimed input candidate hstored hclaimable =>
    exact ⟨input, candidate, rfl, hstored, early_of_claimable hclaimable⟩
  | persisted | persistedAudit | failed | failedAudit => cases hs
  | recovered retrying hstored hb hf => exact (hfailed hf).elim
  | repaired hstored hopen hbefore hf => exact (hfailed hf).elim
  | repairedAttempt hstored hlate hf => exact (hfailed hf).elim

theorem queued_write (h : RunningInv world) (henabled : world.enabled step) (row : StoredCandidate)
    (attempt : Option BacktestAttemptAudit) (trades : Option AttemptTrades)
    (hw : Write storage world.repository step (some row) attempt trades) :
    row.queueJobId = row.candidateId := by
  cases hw with
  | submitted => rfl
  | claimed hstored | recovered retrying hstored | repaired hstored | completionClaimed hstored =>
    have hqueued := h.queued _ _ hstored
    exact hqueued
  | persisted hfenced | persistedAudit retryAt hfenced | failed hfenced
  | failedAudit kind code error hfenced | completionFinalized hfenced
  | terminalFailureFinalized hfenced | completionFailed hfenced =>
    have hqueued := h.queued _ _ hfenced.candidate_stored
    exact hqueued
  | cancelled stored hsame hbeneath =>
    rcases hbeneath with rfl | hstored
    · have hqueued := h.copied _ henabled.1
      exact hqueued
    · have hqueued := h.queued _ _ hstored
      exact hqueued

theorem running_next (hworkers : WorkerInv world) (h : RunningInv world)
    (henabled : world.enabled step) {candidateId : String} {candidate : StoredCandidate}
    (hstored : (storage.next world step).stored candidateId = some candidate)
    (hs : candidate.status = .backtesting) : ∃ number attempt,
      candidate.activeAttemptNumber = some number ∧
      (storage.next world step).repository.attempts.get? (.delivery candidateId number) =
        some attempt ∧ attempt.status = .running := by
  obtain ⟨row, attempt, trades, hw, hwrote⟩ := apply_writes storage world.repository step
  have hattempts : (storage.next world step).repository.attempts =
      world.repository.attempts.putOption attempt := hwrote.attempts
  have hcandidates : (storage.next world step).repository.candidates =
      world.repository.candidates.putOption row := hwrote.candidates
  rw [World.stored, hcandidates] at hstored
  rw [hattempts]
  by_cases htarget : ∃ written, row = some written ∧ written.candidateId = candidateId
  · obtain ⟨written, rfl, hid⟩ := htarget
    have hput := Table.get?_put_of_eq world.repository.candidates hid.symm
    cases hput.symm.trans hstored
    obtain ⟨input, before, rfl, hbefore, he, rfl, rfl⟩ := claimed_of_backtesting hw hs
    have hkey := (claimed_attempt storage hworkers henabled hbefore he).1
    have hid' : input.candidateId = candidateId :=
      (Table.key_of_get? hbefore : before.candidateId = input.candidateId).symm.trans hid
    rw [hid'] at hkey
    exact ⟨input.deliveryAttempt, _, rfl, Table.get?_put_of_eq _ hkey.symm, rfl⟩
  · have hold : world.stored candidateId = some candidate := by
      cases row with
      | none => exact hstored
      | some written =>
        have hne : candidateId ≠ written.candidateId := fun hid => htarget ⟨written, rfl, hid.symm⟩
        exact (Table.get?_put_of_ne _ hne).symm.trans hstored
    obtain ⟨number, found, hnumber, hfound, hrunning⟩ := h.running candidateId candidate hold hs
    refine ⟨number, found, hnumber, ?_, hrunning⟩
    rcases Table.get?_putOption_cases world.repository.attempts attempt (.delivery candidateId number)
      with ⟨written, rfl, hkey, -⟩ | hsame
    · -- the attempt belongs to the step's own candidate, whose row the step leaves only when late
      have hattr := write_attempt hworkers henabled hw
      have hown : step.target = candidateId := by
        rw [← hattr.owner, hattr.keyed, hkey]
        rfl
      cases row with
      | some written' => exact absurd ⟨written', rfl, (write_row hw).trans hown⟩ htarget
      | none =>
        cases hw with
        | @repairedAttempt repairedId error now before attempt hbefore hlate =>
          rw [show repairedId = candidateId from hown] at hbefore
          cases hold.symm.trans hbefore
          exact absurd hs hlate.2.1
    · exact hsame.trans hfound

theorem dispatched_next (h : RunningInv world) (henabled : world.enabled step) (jobId : String)
    (dispatch : BacktestDispatch)
    (hget : (storage.next world step).repository.dispatches.get? jobId = some dispatch) :
    dispatch.candidateId = jobId := by
  by_cases hstep : step.isSubmit = false
  · obtain ⟨before, hbefore, hcandidate⟩ :=
      (storage.apply_keepsQueue world.repository hstep).dispatches jobId dispatch hget
    rw [hcandidate]
    exact h.dispatched jobId before hbefore
  · cases step with
    | submit candidate submitted key =>
      obtain ⟨-, hjob, hcandidate⟩ := henabled
      have hput : (storage.next world (.submit candidate submitted key)).repository.dispatches =
            world.repository.dispatches ∨
          (storage.next world (.submit candidate submitted key)).repository.dispatches =
            world.repository.dispatches.put submitted := by
        cases storage with
        | inMemory =>
          simp only [next, apply, createQueuedSubmission, InMemory.createQueuedSubmission]
          split
          · exact Or.inl rfl
          · split
            · exact Or.inl rfl
            · exact Or.inr rfl
        | postgres =>
          simp only [next, apply, createQueuedSubmission, Postgres.createQueuedSubmission]
          split
          · exact Or.inl rfl
          · split
            · exact Or.inl rfl
            · cases key <;> exact Or.inr rfl
      rcases hput with hsame | hput
      · rw [hsame] at hget
        exact h.dispatched jobId dispatch hget
      · rw [hput, Table.get?_put] at hget
        split at hget
        next hid =>
          cases hget
          rw [hid, hjob, hcandidate]
        next => exact h.dispatched jobId dispatch hget
    | _ => exact absurd rfl hstep

theorem traded_next (hworkers : WorkerInv world) (h : RunningInv world)
    (henabled : world.enabled step) (attemptId : AttemptId) (trades : AttemptTrades)
    (hget : (storage.next world step).repository.trades.get? attemptId = some trades) :
    (∃ row, (storage.next world step).stored attemptId.candidateId = some row ∧
      early row.status = false) ∧
      ∀ attempt, (storage.next world step).repository.attempts.get? attemptId = some attempt →
        attempt.status ≠ .running := by
  obtain ⟨row, attempt, rows, hw, hwrote⟩ := apply_writes storage world.repository step
  have hattempts : (storage.next world step).repository.attempts =
      world.repository.attempts.putOption attempt := hwrote.attempts
  have hcandidates : (storage.next world step).repository.candidates =
      world.repository.candidates.putOption row := hwrote.candidates
  have htable : (storage.next world step).repository.trades =
      world.repository.trades.putOption rows := hwrote.trades
  rw [htable] at hget
  rw [hattempts]
  rcases Table.get?_putOption_cases world.repository.trades rows attemptId with
    ⟨written, rfl, rfl, -⟩ | hsame
  · obtain ⟨completed, candidate, rfl, hid, hstatus, rfl, hrow, hlate⟩ :=
      tradesSettled_write henabled hw
    refine ⟨⟨candidate, ?_, hlate⟩, fun found hfound => ?_⟩
    · rw [World.stored, hcandidates]
      exact Table.get?_put_of_eq _ hrow.symm
    · have hput := Table.get?_put_of_eq world.repository.attempts hid.symm
      cases hput.symm.trans hfound
      rw [hstatus]
      intro hrunning
      cases hrunning
  · obtain ⟨⟨before, hbefore, hlate⟩, hstopped⟩ :=
      h.traded attemptId trades (hsame.symm.trans hget)
    refine ⟨late_next hworkers henabled hbefore hlate, fun found hfound hrunning => ?_⟩
    rcases Table.get?_putOption_cases world.repository.attempts attempt attemptId with
      ⟨written, rfl, hkey, hwritten⟩ | hkept
    · -- only a claim lets it run again, and the candidate may not be claimed
      cases hwritten.symm.trans hfound
      obtain ⟨input, candidate, rfl, hstored, he⟩ := claimed_of_running hw hrunning
      have hattr := write_attempt hworkers henabled hw
      have hcandidate : input.candidateId = attemptId.candidateId := by
        rw [← hkey, ← hattr.keyed, hattr.owner]
        rfl
      rw [hcandidate, hbefore] at hstored
      cases hstored
      rw [hlate] at he
      cases he
    · exact hstopped found (hkept.symm.trans hfound) hrunning

theorem runningInv_start : RunningInv World.start := by
  constructor
  case copied => intro copy hmem; cases hmem
  all_goals intro _ _ h; cases h

theorem runningInv_next (hworkers : WorkerInv world) (h : RunningInv world)
    (henabled : world.enabled step) : RunningInv (storage.next world step) where
  leased := by
    refine rows_next h.leased fun row attempt trades hw hs => ?_
    obtain ⟨input, candidate, -, -, -, rfl, -⟩ := claimed_of_backtesting hw hs
    rfl
  running := fun _ _ hstored hs => running_next hworkers h henabled hstored hs
  queued := rows_next h.queued (queued_write h henabled)
  copied := copies_next h.queued h.copied
  dispatched := dispatched_next h henabled
  traded := traded_next hworkers h henabled

end Storage

end Cryptox.Backtesting
