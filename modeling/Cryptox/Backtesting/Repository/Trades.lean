import Cryptox.Backtesting.Repository.Workers

/-!
# The trades of an attempt

In the database trades are stored once, with the completion of the attempt, and from then on no
worker may claim the candidate. So a result that is persisted finds no trades of its attempt, and
what is listed afterwards is the trades of the result.
-/
namespace Cryptox.Backtesting

open Cryptox.Library

def listTrades (repository : RepositoryState) (attemptId : AttemptId) : List Trade :=
  ((repository.trades.get? attemptId).map (·.trades)).getD []

/-- Trades are stored for completed attempts only, of candidates that no worker may claim. -/
def TradesSettled (world : World) : Prop :=
  ∀ attemptId trades, world.repository.trades.get? attemptId = some trades →
    (∃ attempt, world.repository.attempts.get? attemptId = some attempt ∧
      attempt.status = .completed) ∧
    ∃ row, world.stored attemptId.candidateId = some row ∧ early row.status = false

theorem tradesSettled_start : TradesSettled World.start := fun _ _ h => by cases h

namespace Storage

variable {storage : Storage} {world : World} {step : Step}

/-- A step of the database writes over a completed attempt only by a claim. -/
theorem claimed_of_completed (h : WorkerInv world) {row : Option StoredCandidate}
    {written found : BacktestAttemptAudit} {trades : Option AttemptTrades}
    (hw : Write postgres world.repository step row (some written) trades)
    (hfound : world.repository.attempts.get? written.attemptId = some found)
    (hcompleted : found.status = .completed) :
    ∃ input candidate, step = .claimWorkerAttempt input ∧
      world.stored input.candidateId = some candidate ∧ early candidate.status = true := by
  have hrunning : ∀ {candidateId attemptId fenceToken candidate attempt},
      Fenced postgres world.repository candidateId attemptId fenceToken candidate attempt →
      attempt.attemptId = written.attemptId → False := by
    intro candidateId attemptId fenceToken candidate attempt hf hid
    have hsame := Table.get?_key hf.attempt_stored
    rw [hid, hfound] at hsame
    cases hsame
    rw [(hf.running rfl).1] at hcompleted
    cases hcompleted
  have hfailed : ∀ {candidate now error},
      RunningFailed world.repository candidate now error (some written) → False := by
    intro candidate now error hf
    cases hf with
    | found attempt hget howner hs =>
      cases hget.symm.trans hfound
      rw [hs] at hcompleted
      cases hcompleted
    | madeUp hempty =>
      have hmem : found ∈ world.repository.attemptsOf candidate.candidateId :=
        mem_attemptsOf.mpr ⟨Table.get?_key hfound, (h.keyed _ _ hfound).1⟩
      rw [hempty] at hmem
      cases hmem
  cases hw with
  | @claimed input candidate hstored hclaimable =>
    exact ⟨input, candidate, rfl, hstored, early_of_claimable hclaimable⟩
  | persisted hfenced | persistedAudit retryAt hfenced | failed hfenced
  | failedAudit kind code error hfenced => exact (hrunning hfenced rfl).elim
  | recovered retrying hstored hs hf => exact (hfailed hf).elim
  | repaired hstored hopen hbefore hf => exact (hfailed hf).elim
  | repairedAttempt hstored hlate hf => exact (hfailed hf).elim

/-- The row of a candidate that no worker may claim stays such a row. -/
theorem late_next (h : WorkerInv world) (henabled : world.enabled step) {candidateId : String}
    {row : StoredCandidate} (hstored : world.stored candidateId = some row)
    (hlate : early row.status = false) :
    ∃ row', (storage.next world step).stored candidateId = some row' ∧
      early row'.status = false := by
  rcases stored_next_cases storage world step candidateId with
    ⟨row', attempt, trades, hw, hid, hrow'⟩ | hsame
  · refine ⟨row', hrow', ?_⟩
    by_contra hearly
    rw [Bool.not_eq_false] at hearly
    rw [write_row hw] at hid
    rcases early_write h henabled hw hearly with hnone | ⟨before, hbefore, he⟩
    · rw [hid, hstored] at hnone
      cases hnone
    · rw [hid, hstored] at hbefore
      cases hbefore
      rw [hlate] at he
      cases he
  · exact ⟨row, hsame.trans hstored, hlate⟩

/-- The trades a step writes come with the completion of their attempt, and the row is late. -/
theorem tradesSettled_write (henabled : world.enabled step) {row : Option StoredCandidate}
    {attempt : Option BacktestAttemptAudit} {written : AttemptTrades}
    (hw : Write storage world.repository step row attempt (some written)) :
    ∃ completed candidate, attempt = some completed ∧ completed.attemptId = written.attemptId ∧
      completed.status = .completed ∧ row = some candidate ∧
      candidate.candidateId = written.attemptId.candidateId ∧ early candidate.status = false := by
  cases hw with
  | @persisted input candidate attempt trades hfenced hlive howner =>
    have hkey : attempt.attemptId = input.attemptId := Table.key_of_get? hfenced.attempt_stored
    have hid : candidate.candidateId = input.candidateId := Table.key_of_get? hfenced.candidate_stored
    rw [howner written rfl, henabled.1]
    exact ⟨_, _, rfl, hkey, rfl, rfl, hid, rfl⟩
  | @persistedAudit input candidate attempt trades retryAt hfenced hcancelled howner =>
    have hkey : attempt.attemptId = input.attemptId := Table.key_of_get? hfenced.attempt_stored
    have hid : candidate.candidateId = input.candidateId := Table.key_of_get? hfenced.candidate_stored
    rw [howner written rfl, henabled.1]
    exact ⟨_, _, rfl, hkey, rfl, rfl, hid, by simp [StoredCandidate.released, hcancelled, early]⟩

theorem tradesSettled_next (h : WorkerInv world) (hsettled : TradesSettled world)
    (henabled : world.enabled step) : TradesSettled (postgres.next world step) := by
  intro attemptId trades hget
  obtain ⟨row, attempt, rows, hw, hwrote⟩ := apply_writes postgres world.repository step
  have hattempts : (postgres.next world step).repository.attempts =
      world.repository.attempts.putOption attempt := hwrote.attempts
  have hcandidates : (postgres.next world step).repository.candidates =
      world.repository.candidates.putOption row := hwrote.candidates
  have htable : (postgres.next world step).repository.trades =
      world.repository.trades.putOption rows := hwrote.trades
  rw [htable] at hget
  rcases Table.get?_putOption_cases world.repository.trades rows attemptId with
    ⟨written, rfl, rfl, -⟩ | hsame
  · obtain ⟨completed, candidate, rfl, hid, hstatus, rfl, hrow, hlate⟩ :=
      tradesSettled_write henabled hw
    refine ⟨⟨completed, ?_, hstatus⟩, candidate, ?_, hlate⟩
    · rw [hattempts]
      exact Table.get?_put_of_eq _ hid.symm
    · rw [World.stored, hcandidates]
      exact Table.get?_put_of_eq _ hrow.symm
  · obtain ⟨⟨found, hfound, hcompleted⟩, before, hbefore, hlate⟩ :=
      hsettled attemptId trades (hsame.symm.trans hget)
    refine ⟨⟨found, ?_, hcompleted⟩, late_next h henabled hbefore hlate⟩
    rw [hattempts]
    rcases Table.get?_putOption_cases world.repository.attempts attempt attemptId with
      ⟨written, rfl, hkey, -⟩ | hkept
    · -- only a claim writes over it, and the candidate may not be claimed
      rw [← hkey] at hfound
      obtain ⟨input, candidate, rfl, hstored, he⟩ := claimed_of_completed h hw hfound hcompleted
      have hattr := write_attempt h henabled hw
      have hcandidate : input.candidateId = attemptId.candidateId := by
        rw [← hkey, ← hattr.keyed, hattr.owner]
        rfl
      rw [hcandidate, hbefore] at hstored
      cases hstored
      rw [hlate] at he
      cases he
    · exact hkept.trans hfound

end Storage

/-- Trades that are stored one by one follow those that are there. -/
theorem saveTrades_ok {stored trades rows : List Trade}
    (h : Postgres.saveTrades stored trades = .ok rows) : rows = stored ++ trades := by
  induction trades generalizing stored with
  | nil =>
    cases h
    exact (List.append_nil _).symm
  | cons trade rest ih =>
    unfold Postgres.saveTrades at h
    split at h
    · cases h
    · split at h
      · cases h
      · rw [ih h, List.append_assoc]
        rfl

theorem insertTrades_ok {state inserted : RepositoryState} {attemptId : AttemptId}
    {trades : List Trade} (h : Postgres.insertTrades state attemptId trades = .ok inserted) :
    inserted.attempts = state.attempts ∧
      listTrades inserted attemptId = listTrades state attemptId ++ trades := by
  unfold Postgres.insertTrades at h
  split at h
  next hempty =>
    cases h
    rw [List.isEmpty_iff.mp hempty, List.append_nil]
    exact ⟨rfl, rfl⟩
  next =>
    obtain ⟨rows, hrows, heq⟩ := bind_eq_ok.mp h
    cases pure_eq_ok.mp heq
    refine ⟨rfl, ?_⟩
    rw [saveTrades_ok hrows, listTrades, RepositoryState.putTrades, Table.get?_put_of_eq _ rfl]
    rfl

namespace Storage

/-- What a successful write of a result leaves of the attempt and its trades. -/
theorem persistWorkerSuccess_ok {storage : Storage} {state later : RepositoryState}
    {input : WorkerSuccessInput}
    (h : storage.persistWorkerSuccess state input = (later, .ok ())) :
    ∃ attempt auditOnly, state.attempts.get? input.attemptId = some attempt ∧
      (storage = .postgres → attempt.status = .running) ∧
      later.attempts.get? input.attemptId =
        some (attempt.completed auditOnly input.trades.length input.completedAt) ∧
      ((storage = .postgres → listTrades state input.attemptId = []) →
        listTrades later input.attemptId = input.trades) := by
  cases storage with
  | inMemory =>
    simp only [persistWorkerSuccess, InMemory.persistWorkerSuccess] at h
    split at h
    next candidate attempt hcandidate hattempt =>
      split at h
      next =>
        cases h
        have hkey : attempt.attemptId = input.attemptId := Table.key_of_get? hattempt
        refine ⟨attempt, _, hattempt, fun hpostgres => ?_, Table.get?_put_of_eq _ hkey.symm,
          fun _ => ?_⟩
        · cases hpostgres
        have htrades := Table.get?_put_of_eq state.trades
          (v := ⟨attempt.attemptId, input.trades⟩) hkey.symm
        exact congrArg (fun rows : Option AttemptTrades => (rows.map (·.trades)).getD []) htrades
      next => cases h
    next => cases h
  | postgres =>
    simp only [persistWorkerSuccess, Postgres.persistWorkerSuccess] at h
    split at h
    next => cases h
    next candidate attempt hfence =>
      have hfenced := fenced_postgres hfence
      have hkey : attempt.attemptId = input.attemptId := Table.key_of_get? hfenced.attempt_stored
      split at h
      next => cases h
      next inserted hinserted =>
        cases h
        obtain ⟨hattempts, htrades⟩ := insertTrades_ok hinserted
        refine ⟨attempt, decide (candidate.status = .cancelled), hfenced.attempt_stored,
          fun _ => (hfenced.running rfl).1, ?_, ?_⟩
        · change inserted.attempts.get? input.attemptId = _
          rw [hattempts]
          exact Table.get?_put_of_eq _ hkey.symm
        · intro hfresh
          change listTrades inserted input.attemptId = input.trades
          rw [htrades]
          exact congrArg (· ++ input.trades) (hfresh rfl)

end Storage

end Cryptox.Backtesting
