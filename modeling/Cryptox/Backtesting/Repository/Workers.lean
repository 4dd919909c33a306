import Cryptox.Backtesting.Repository.Writes

/-!
# What workers find

Every attempt is stored under its candidate and number, and a claim writes over the attempt of its
own delivery number and no other. A worker's fence and a completion claim are never on one row.
-/
namespace Cryptox.Backtesting

open Cryptox.Library

/-- Not a step of the completion processors. -/
def Step.ofWorkers : Step → Bool
  | claimCompletion .. | finalizeCompletion .. | finalizeTerminalFailure .. | failCompletion .. =>
    false
  | _ => true

/-- The candidate a step is about. -/
def Step.target : Step → String
  | tick _ | markDispatchCancelled .. => ""
  | submit candidate _ _ => candidate.candidateId
  | read candidateId | recoverAbandonedAttempt candidateId _ _
  | repairTerminalQueueFailure candidateId _ _ | claimCompletion candidateId _ _ _ => candidateId
  | claimWorkerAttempt input => input.candidateId
  | persistWorkerSuccess input => input.candidateId
  | failWorkerAttempt input => input.candidateId
  | finalizeCompletion copy _ _ _ | finalizeTerminalFailure copy _ _ | failCompletion copy _ _ _ _
  | cancel copy _ => copy.candidateId

/-- The statuses before a result, from which a worker may claim. -/
def early : CandidateStatus → Bool
  | .queued | .retryWait | .backtesting => true
  | _ => false

/-- No worker holds a row with a completion claim, or may claim it. -/
def StoredCandidate.ClaimsApart (row : StoredCandidate) : Prop :=
  row.activeCompletionClaimToken ≠ none → row.activeFenceToken = none ∧ early row.status = false

structure WorkerInv (world : World) : Prop where
  keyed : ∀ attemptId attempt, world.repository.attempts.get? attemptId = some attempt →
    attempt.candidateId = attemptId.candidateId ∧ attempt.attemptNumber = attemptId.number
  owned : ∀ attemptId attempt, world.repository.attempts.get? attemptId = some attempt →
    (world.stored attempt.candidateId).isSome
  fenced : ∀ candidateId candidate, world.stored candidateId = some candidate →
    candidate.activeFenceToken ≠ none →
      candidate.status = .backtesting ∨ candidate.status = .cancelled
  active : ∀ candidateId candidate, world.stored candidateId = some candidate →
    candidate.status = .backtesting → ∃ number, candidate.activeAttemptNumber = some number ∧
      (world.repository.attempts.get? (.delivery candidateId number)).isSome
  /-- No attempt is made up for a candidate that a worker may still claim. -/
  delivered : ∀ candidateId candidate, world.stored candidateId = some candidate →
    early candidate.status = true → world.repository.attempts.get? (.recovery candidateId) = none
  apart : ∀ candidateId candidate, world.stored candidateId = some candidate →
    candidate.ClaimsApart
  copied : ∀ copy ∈ world.copies, copy.ClaimsApart

namespace Storage

variable {storage : Storage} {world : World} {step : Step}

theorem early_of_claimable {candidate : StoredCandidate} {now : Int}
    (h : storage.claimable candidate now = true) : early candidate.status = true := by
  cases storage <;> cases hs : candidate.status <;>
    simp_all [claimable, InMemory.claimable, Postgres.claimable, early]

/-- An attempt of a claimable candidate is the one stored for its delivery number. -/
theorem attemptId_of_early (h : WorkerInv world) {candidateId : String} {candidate : StoredCandidate}
    (hstored : world.stored candidateId = some candidate) (hs : early candidate.status = true)
    {attempt : BacktestAttemptAudit} (hmem : attempt ∈ world.repository.attemptsOf candidateId) :
    attempt.attemptId = .delivery candidateId attempt.attemptNumber := by
  obtain ⟨hget, howner⟩ := mem_attemptsOf.mp hmem
  obtain ⟨hcandidate, hnumber⟩ := h.keyed _ _ hget
  rw [howner] at hcandidate
  cases hid : attempt.attemptId with
  | delivery candidateId' number' =>
    rw [hid] at hcandidate hnumber
    rw [show candidateId = candidateId' from hcandidate, hnumber]
    rfl
  | recovery candidateId' =>
    rw [hid] at hcandidate hget
    rw [← show candidateId = candidateId' from hcandidate, h.delivered _ _ hstored hs] at hget
    cases hget

/-- Both repositories claim the attempt of the delivery. -/
theorem attemptOf_eq (h : WorkerInv world) {input : WorkerClaimInput} {candidate : StoredCandidate}
    (hid : input.attemptId = .delivery input.candidateId input.deliveryAttempt)
    (hstored : world.stored input.candidateId = some candidate)
    (hs : early candidate.status = true) :
    storage.attemptOf world.repository input =
      world.repository.attempts.get? (.delivery input.candidateId input.deliveryAttempt) := by
  cases storage with
  | inMemory => simp only [attemptOf, hid]
  | postgres =>
    simp only [attemptOf, Postgres.attemptNumbered]
    cases hfind : (world.repository.attemptsOf input.candidateId).find? fun attempt =>
        attempt.attemptNumber == input.deliveryAttempt with
    | some attempt =>
      have hmem := List.mem_of_find?_eq_some hfind
      have hnumber : attempt.attemptNumber = input.deliveryAttempt := by
        simpa using List.find?_some hfind
      have hkey := attemptId_of_early h hstored hs hmem
      rw [hnumber] at hkey
      rw [← hkey]
      exact (mem_attemptsOf.mp hmem).1.symm
    | none =>
      cases hget : world.repository.attempts.get?
          (.delivery input.candidateId input.deliveryAttempt) with
      | none => rfl
      | some attempt =>
        obtain ⟨hcandidate, hnumber⟩ := h.keyed _ _ hget
        have hmem : attempt ∈ world.repository.attemptsOf input.candidateId :=
          mem_attemptsOf.mpr ⟨Table.get?_key hget, hcandidate⟩
        have hne := List.find?_eq_none.mp hfind attempt hmem
        exact absurd (beq_iff_eq.mpr hnumber) hne

/-- The attempt a granted claim writes. -/
theorem claimed_attempt (storage : Storage) (h : WorkerInv world) {input : WorkerClaimInput}
    {candidate : StoredCandidate}
    (hid : input.attemptId = .delivery input.candidateId input.deliveryAttempt)
    (hstored : world.stored input.candidateId = some candidate)
    (hs : early candidate.status = true) :
    let attempt := ((storage.attemptOf world.repository input).getD input.newAttempt).claimed input
    attempt.attemptId = .delivery input.candidateId input.deliveryAttempt ∧
      attempt.candidateId = input.candidateId ∧ attempt.attemptNumber = input.deliveryAttempt := by
  rw [attemptOf_eq h hid hstored hs]
  cases hget : world.repository.attempts.get?
      (.delivery input.candidateId input.deliveryAttempt) with
  | none => exact ⟨hid, rfl, rfl⟩
  | some attempt =>
    have hkey : attempt.attemptId = _ := Table.key_of_get? hget
    have hkeyed := h.keyed _ _ hget
    exact ⟨hkey, hkeyed⟩

/-- An attempt that belongs to a stored candidate, under its own number. -/
structure Attributed (world : World) (candidateId : String) (attempt : BacktestAttemptAudit) :
    Prop where
  owner : attempt.candidateId = candidateId
  keyed : attempt.candidateId = attempt.attemptId.candidateId
  numbered : attempt.attemptNumber = attempt.attemptId.number
  stored : (world.stored candidateId).isSome

theorem attributed_of_stored (h : WorkerInv world) {attemptId : AttemptId}
    {attempt : BacktestAttemptAudit}
    (hget : world.repository.attempts.get? attemptId = some attempt) :
    Attributed world attemptId.candidateId attempt := by
  obtain ⟨hcandidate, hnumber⟩ := h.keyed _ _ hget
  have hkey : attempt.attemptId = attemptId := Table.key_of_get? hget
  refine ⟨hcandidate, by rw [hkey, hcandidate], by rw [hkey, hnumber], ?_⟩
  rw [← hcandidate]
  exact h.owned _ _ hget

theorem attributed_of_runningFailed (h : WorkerInv world) {candidateId error : String} {now : Int}
    {candidate : StoredCandidate} {attempt : BacktestAttemptAudit}
    (hstored : world.stored candidateId = some candidate)
    (hf : RunningFailed world.repository candidate now error (some attempt)) :
    Attributed world candidateId attempt := by
  have hid : candidate.candidateId = candidateId := Table.key_of_get? hstored
  cases hf with
  | found found hget howner =>
    have hattr := attributed_of_stored h hget
    rw [← hattr.keyed, howner, hid] at hattr
    exact ⟨hattr.owner, hattr.keyed, hattr.numbered, hattr.stored⟩
  | madeUp => exact ⟨hid, rfl, rfl, by rw [hstored]; rfl⟩

/-- The attempt a step writes belongs to the step's candidate. -/
theorem write_attempt (h : WorkerInv world) (henabled : world.enabled step)
    {row : Option StoredCandidate} {attempt : BacktestAttemptAudit} {trades : Option AttemptTrades}
    (hw : Write storage world.repository step row (some attempt) trades) :
    Attributed world step.target attempt := by
  cases hw with
  | @claimed input candidate hstored hclaimable =>
    obtain ⟨hkey, howner, hnumber⟩ :=
      claimed_attempt storage h henabled hstored (early_of_claimable hclaimable)
    refine ⟨howner, ?_, ?_, ?_⟩
    · rw [hkey, howner]
      rfl
    · rw [hkey, hnumber]
      rfl
    · exact Option.isSome_iff_exists.mpr ⟨candidate, hstored⟩
  | @persisted input candidate attempt trades hfenced
  | @persistedAudit input candidate attempt trades retryAt hfenced =>
    have hattr := attributed_of_stored h hfenced.attempt_stored
    rw [henabled.1] at hattr
    exact ⟨hattr.owner, hattr.keyed, hattr.numbered, hattr.stored⟩
  | @failed input candidate attempt category hfenced
  | @failedAudit input candidate attempt kind code error hfenced =>
    have hattr := attributed_of_stored h hfenced.attempt_stored
    rw [show input.attemptId.candidateId = input.candidateId from henabled] at hattr
    exact ⟨hattr.owner, hattr.keyed, hattr.numbered, hattr.stored⟩
  | recovered retrying hstored hs hf => exact attributed_of_runningFailed h hstored hf
  | repaired hstored hopen hbefore hf => exact attributed_of_runningFailed h hstored hf
  | repairedAttempt hstored hlate hf => exact attributed_of_runningFailed h hstored hf

/-- The row a step writes is the one of the step's candidate. -/
theorem write_row {row : StoredCandidate} {attempt : Option BacktestAttemptAudit}
    {trades : Option AttemptTrades}
    (hw : Write storage world.repository step (some row) attempt trades) :
    row.candidateId = step.target := by
  cases hw with
  | submitted => rfl
  | claimed hstored | recovered retrying hstored | repaired hstored | completionClaimed hstored =>
    have hid := Table.key_of_get? hstored
    exact hid
  | persisted hfenced | persistedAudit retryAt hfenced | failed hfenced
  | failedAudit kind code error hfenced | completionFinalized hfenced
  | terminalFailureFinalized hfenced | completionFailed hfenced =>
    have hid := Table.key_of_get? hfenced.candidate_stored
    exact hid
  | cancelled stored hsame => exact hsame

/-- A worker's fence on a row that is not cancelled names a running candidate. -/
theorem backtesting_of_fenced (h : WorkerInv world) {candidateId fenceToken : String}
    {attemptId : AttemptId} {candidate : StoredCandidate} {attempt : BacktestAttemptAudit}
    (hf : Fenced storage world.repository candidateId attemptId fenceToken candidate attempt)
    (hlive : candidate.status ≠ .cancelled) : candidate.status = .backtesting := by
  rcases h.fenced _ _ hf.candidate_stored (by simp [hf.candidate_token]) with hs | hs
  · exact hs
  · exact absurd hs hlive

/-- A row that a worker may claim after a step was new or one that a worker might claim before. -/
theorem early_write (h : WorkerInv world) (henabled : world.enabled step)
    {row : StoredCandidate} {attempt : Option BacktestAttemptAudit}
    {trades : Option AttemptTrades}
    (hw : Write storage world.repository step (some row) attempt trades)
    (he : early row.status = true) :
    world.stored step.target = none ∨
      ∃ candidate, world.stored step.target = some candidate ∧ early candidate.status = true := by
  cases hw with
  | submitted => exact Or.inl (Option.isNone_iff_eq_none.mp henabled.1)
  | claimed hstored hclaimable => exact Or.inr ⟨_, hstored, early_of_claimable hclaimable⟩
  | failed hfenced hlive =>
    have hs := backtesting_of_fenced h hfenced hlive
    exact Or.inr ⟨_, hfenced.candidate_stored, by simp [hs, early]⟩
  | recovered retrying hstored hs => exact Or.inr ⟨_, hstored, by simp [hs, early]⟩
  | persisted | repaired | cancelled | completionFinalized | terminalFailureFinalized => cases he
  | persistedAudit retryAt hfenced hs | failedAudit kind code error hfenced hs =>
    simp [StoredCandidate.released, hs, early] at he
  | completionClaimed hstored hdue => exact Or.inr ⟨_, hstored, he⟩
  | completionFailed =>
    simp only [StoredCandidate.completionFailed] at he
    split at he <;> cases he

/-- No attempt is made up for a running candidate: it has the attempt of its claim. -/
theorem attempted_of_backtesting (h : WorkerInv world) {candidateId : String}
    {candidate : StoredCandidate} (hstored : world.stored candidateId = some candidate)
    (hs : candidate.status = .backtesting) :
    world.repository.attemptsOf candidate.candidateId ≠ [] := by
  have hid : candidate.candidateId = candidateId := Table.key_of_get? hstored
  obtain ⟨number, -, hsome⟩ := h.active _ _ hstored hs
  obtain ⟨attempt, hget⟩ := Option.isSome_iff_exists.mp hsome
  have hmem : attempt ∈ world.repository.attemptsOf candidate.candidateId :=
    mem_attemptsOf.mpr ⟨Table.get?_key hget, by rw [hid]; exact (h.keyed _ _ hget).1⟩
  exact List.ne_nil_of_mem hmem

/-- An attempt is made up only for a candidate that no worker may claim afterwards. -/
theorem madeUp_write (h : WorkerInv world) (henabled : world.enabled step)
    {row : Option StoredCandidate} {attempt : BacktestAttemptAudit} {trades : Option AttemptTrades}
    (hw : Write storage world.repository step row (some attempt) trades)
    {candidateId : String} (hid : attempt.attemptId = .recovery candidateId)
    (hnone : world.repository.attempts.get? (.recovery candidateId) = none) :
    (∃ candidate, row = some candidate ∧ early candidate.status = false) ∨
      row = none ∧ ∃ candidate, world.stored step.target = some candidate ∧
        early candidate.status = false := by
  have hstale : ∀ {attemptId found}, world.repository.attempts.get? attemptId = some found →
      found.attemptId ≠ .recovery candidateId := fun hget hkey => by
    have hsome := Table.get?_key hget
    rw [hkey, hnone] at hsome
    cases hsome
  cases hw with
  | @claimed input candidate hstored hclaimable =>
    have hkey := (claimed_attempt storage h henabled hstored
      (early_of_claimable hclaimable)).1
    rw [hid] at hkey
    cases hkey
  | persisted hfenced | persistedAudit retryAt hfenced | failed hfenced
  | failedAudit kind code error hfenced =>
    have hne := hstale hfenced.attempt_stored
    exact absurd hid hne
  | recovered retrying hstored hs hf =>
    cases hf with
    | found attempt hget =>
      have hne := hstale hget
      exact absurd hid hne
    | madeUp hempty => exact absurd hempty (attempted_of_backtesting h hstored hs)
  | repaired => exact Or.inl ⟨_, rfl, rfl⟩
  | @repairedAttempt candidateId' error now candidate attempt hstored hlate hf =>
    refine Or.inr ⟨rfl, candidate, hstored, ?_⟩
    cases hs : candidate.status <;> simp_all [early]

/-- A pending completion has no fence on its row. -/
theorem unfenced_of_late (h : WorkerInv world) {candidateId : String} {candidate : StoredCandidate}
    (hstored : world.stored candidateId = some candidate) (hs : early candidate.status = false)
    (hc : candidate.status ≠ .cancelled) : candidate.activeFenceToken = none := by
  by_contra ht
  rcases h.fenced _ _ hstored ht with hb | hb
  · rw [hb] at hs
    cases hs
  · exact hc hb

theorem late_of_due {candidate : StoredCandidate} {now : Int}
    (h : candidate.completionDue now = true) :
    early candidate.status = false ∧ candidate.status ≠ .cancelled := by
  cases hs : candidate.status <;> simp_all [StoredCandidate.completionDue, completing, early]

theorem fenced_write (h : WorkerInv world) (row : StoredCandidate)
    (attempt : Option BacktestAttemptAudit) (trades : Option AttemptTrades)
    (hw : Write storage world.repository step (some row) attempt trades)
    (ht : row.activeFenceToken ≠ none) : row.status = .backtesting ∨ row.status = .cancelled := by
  cases hw with
  | submitted | persisted | failed | recovered | repaired | persistedAudit | failedAudit =>
    exact absurd rfl ht
  | claimed => exact Or.inl rfl
  | completionClaimed hstored hdue =>
    have hlate := late_of_due hdue
    exact absurd (unfenced_of_late h hstored hlate.1 hlate.2) ht
  | completionFinalized hfenced hs | terminalFailureFinalized hfenced hs =>
    exact absurd (unfenced_of_late h hfenced.candidate_stored (by rw [hs]; rfl) (by simp [hs])) ht
  | completionFailed hfenced =>
    have happart := h.apart _ _ hfenced.candidate_stored (by simp [hfenced.token])
    exact absurd happart.1 ht
  | cancelled => exact Or.inr rfl

theorem apart_write (h : WorkerInv world) (henabled : world.enabled step) (row : StoredCandidate)
    (attempt : Option BacktestAttemptAudit) (trades : Option AttemptTrades)
    (hw : Write storage world.repository step (some row) attempt trades) : row.ClaimsApart := by
  intro ht
  have hearly : ∀ {candidateId candidate}, world.stored candidateId = some candidate →
      early candidate.status = true → candidate.activeCompletionClaimToken = none := by
    intro candidateId candidate hstored hs
    by_contra hclaim
    rw [(h.apart _ _ hstored hclaim).2] at hs
    cases hs
  cases hw with
  | submitted | completionFinalized | terminalFailureFinalized | completionFailed =>
    exact absurd rfl ht
  | claimed hstored hclaimable => exact absurd (hearly hstored (early_of_claimable hclaimable)) ht
  | persisted hfenced hlive | failed hfenced hlive =>
    have hs := backtesting_of_fenced h hfenced hlive
    exact absurd (hearly hfenced.candidate_stored (by rw [hs]; rfl)) ht
  | recovered retrying hstored hs => exact absurd (hearly hstored (by rw [hs]; rfl)) ht
  | persistedAudit retryAt hfenced hs | failedAudit kind code error hfenced hs =>
    exact ⟨rfl, by simp [StoredCandidate.released, hs, early]⟩
  | repaired => exact ⟨rfl, rfl⟩
  | completionClaimed hstored hdue =>
    have hlate := late_of_due hdue
    have hfence := unfenced_of_late h hstored hlate.1 hlate.2
    exact ⟨hfence, hlate.1⟩
  | @cancelled copy now stored hsame hbeneath =>
    have hlate := (h.copied copy henabled.1 ht).2
    refine ⟨?_, rfl⟩
    have hs : copy.status ≠ .backtesting := by
      intro hb
      rw [hb] at hlate
      cases hlate
    exact if_neg hs

/-- A row that is running after a step was claimed by it. -/
theorem claimed_of_backtesting {row : StoredCandidate} {attempt : Option BacktestAttemptAudit}
    {trades : Option AttemptTrades}
    (hw : Write storage world.repository step (some row) attempt trades)
    (hs : row.status = .backtesting) : ∃ input candidate, step = .claimWorkerAttempt input ∧
      world.stored input.candidateId = some candidate ∧ early candidate.status = true ∧
      row = candidate.claimed input ∧
      attempt = some
        (((storage.attemptOf world.repository input).getD input.newAttempt).claimed input) := by
  cases hw with
  | @claimed input candidate hstored hclaimable =>
    exact ⟨input, candidate, rfl, hstored, early_of_claimable hclaimable, rfl, rfl⟩
  | submitted | persisted | repaired | cancelled | completionFinalized
  | terminalFailureFinalized => cases hs
  | @failed input => cases hr : input.retrying <;> simp [StoredCandidate.workerFailed, hr] at hs
  | recovered retrying => cases retrying <;> cases hs
  | persistedAudit retryAt hfenced hcancelled | failedAudit kind code error hfenced hcancelled =>
    simp [StoredCandidate.released, hcancelled] at hs
  | @completionClaimed candidateId claimToken now leaseExpiresAt candidate hstored hdue =>
    have hlate := (late_of_due hdue).1
    rw [show candidate.status = .backtesting from hs] at hlate
    cases hlate
  | completionFailed =>
    simp only [StoredCandidate.completionFailed] at hs
    split at hs <;> cases hs

theorem active_write (h : WorkerInv world) (henabled : world.enabled step) {row : StoredCandidate}
    {attempt : Option BacktestAttemptAudit} {trades : Option AttemptTrades}
    (hw : Write storage world.repository step (some row) attempt trades)
    (hs : row.status = .backtesting) : ∃ number, row.activeAttemptNumber = some number ∧
      ((world.repository.attempts.putOption attempt).get? (.delivery step.target number)).isSome := by
  obtain ⟨input, candidate, rfl, hstored, hearly, rfl, rfl⟩ := claimed_of_backtesting hw hs
  have hkey := (claimed_attempt storage h henabled hstored hearly).1
  have hput := Table.get?_put_of_eq world.repository.attempts hkey.symm
  exact ⟨input.deliveryAttempt, rfl, Option.isSome_iff_exists.mpr ⟨_, hput⟩⟩

/-- A candidate that was not stored has no attempts. -/
theorem unattempted_of_fresh (h : WorkerInv world) {attemptId : AttemptId}
    (hfresh : world.stored attemptId.candidateId = none) :
    world.repository.attempts.get? attemptId = none := by
  cases hget : world.repository.attempts.get? attemptId with
  | none => rfl
  | some attempt =>
    have howned := h.owned _ _ hget
    rw [(h.keyed _ _ hget).1, hfresh] at howned
    cases howned

theorem delivered_next (h : WorkerInv world) (henabled : world.enabled step)
    {row : Option StoredCandidate}
    {attempt : Option BacktestAttemptAudit} {trades : Option AttemptTrades}
    (hw : Write storage world.repository step row attempt trades) {candidateId : String}
    {candidate : StoredCandidate}
    (hstored : (world.repository.candidates.putOption row).get? candidateId = some candidate)
    (hs : early candidate.status = true) :
    (world.repository.attempts.putOption attempt).get? (.recovery candidateId) = none := by
  -- no attempt was made up before the step
  have hnone : world.repository.attempts.get? (.recovery candidateId) = none := by
    rcases Table.get?_putOption_cases world.repository.candidates row candidateId with
      ⟨written, rfl, hid, hwritten⟩ | hsame
    · have hrow : written = candidate := Option.some.inj (hwritten.symm.trans hstored)
      rw [← hid, write_row hw]
      rcases early_write h henabled hw (hrow ▸ hs) with hfresh | ⟨before, hbefore, he⟩
      · exact unattempted_of_fresh h hfresh
      · exact h.delivered _ _ hbefore he
    · exact h.delivered _ _ (hsame.symm.trans hstored) hs
  rcases Table.get?_putOption_cases world.repository.attempts attempt (.recovery candidateId) with
    ⟨written, rfl, hkey, -⟩ | hsame
  · -- nor by the step, whose own candidate a worker may not claim afterwards
    have hattr := write_attempt h henabled hw
    have htarget : step.target = candidateId := by
      rw [← hattr.owner, hattr.keyed, hkey]
      rfl
    rcases madeUp_write h henabled hw hkey hnone with ⟨late, rfl, hl⟩ | ⟨rfl, late, hlate, hl⟩
    · have hrow := Table.get?_put_of_eq world.repository.candidates
        (htarget.symm.trans (write_row hw).symm)
      cases hrow.symm.trans hstored
      rw [hl] at hs
      cases hs
    · rw [htarget] at hlate
      cases hlate.symm.trans hstored
      rw [hl] at hs
      cases hs
  · rw [hsame, hnone]

theorem workerInv_start : WorkerInv World.start := by
  constructor
  case copied => intro copy hmem; cases hmem
  all_goals intro _ _ h; cases h

theorem workerInv_next (h : WorkerInv world) (henabled : world.enabled step) :
    WorkerInv (storage.next world step) := by
  obtain ⟨row, attempt, trades, hw, hwrote⟩ := apply_writes storage world.repository step
  have hattempts : (storage.next world step).repository.attempts =
      world.repository.attempts.putOption attempt := hwrote.attempts
  have hcandidates : (storage.next world step).repository.candidates =
      world.repository.candidates.putOption row := hwrote.candidates
  constructor
  · intro attemptId found hget
    rw [hattempts] at hget
    rcases Table.get?_putOption_cases world.repository.attempts attempt attemptId with
      ⟨written, rfl, hkey, hwritten⟩ | hsame
    · cases hwritten.symm.trans hget
      have hattr := write_attempt h henabled hw
      rw [← hkey]
      exact ⟨hattr.keyed, hattr.numbered⟩
    · exact h.keyed _ _ (hsame.symm.trans hget)
  · intro attemptId found hget
    rw [hattempts] at hget
    rcases Table.get?_putOption_cases world.repository.attempts attempt attemptId with
      ⟨written, rfl, hkey, hwritten⟩ | hsame
    · cases hwritten.symm.trans hget
      have hattr := write_attempt h henabled hw
      rw [hattr.owner]
      exact stored_isSome_next hattr.stored
    · exact stored_isSome_next (h.owned _ _ (hsame.symm.trans hget))
  · intro candidateId candidate hstored
    exact rows_next h.fenced (fenced_write h) candidateId candidate hstored
  · intro candidateId candidate hstored hs
    rw [hattempts]
    rcases Table.get?_putOption_cases world.repository.candidates row candidateId with
      ⟨written, rfl, hid, hwritten⟩ | hsame
    · have hrow : written = candidate :=
        Option.some.inj (hwritten.symm.trans (hcandidates ▸ hstored))
      subst hrow
      rw [← hid, write_row hw]
      exact active_write h henabled hw hs
    · have hold : world.stored candidateId = some candidate :=
        hsame.symm.trans (hcandidates ▸ hstored)
      obtain ⟨number, hnumber, hsome⟩ := h.active _ _ hold hs
      exact ⟨number, hnumber, Table.isSome_get?_putOption hsome⟩
  · intro candidateId candidate hstored hs
    rw [hattempts]
    exact delivered_next h henabled hw (hcandidates ▸ hstored) hs
  · intro candidateId candidate hstored
    exact rows_next h.apart (apart_write h henabled) candidateId candidate hstored
  · exact copies_next h.apart h.copied

end Storage

end Cryptox.Backtesting
