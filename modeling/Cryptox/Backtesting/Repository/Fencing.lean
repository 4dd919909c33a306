import Cryptox.Backtesting.Repository.Workers

/-!
# Worker fencing

A worker write goes through with the token of the latest claim only, and at most one attempt of a
candidate runs. Two steps break this: a claim over an expired lease under another delivery number,
which leaves the old attempt running, and an in-memory cancellation that writes back the token of
an earlier claim while an attempt still carries it.
-/
namespace Cryptox.Backtesting

open Cryptox.Library

/-- Fence tokens are pairwise distinct: a claim brings one that no granted claim has. -/
def FreshToken (world : World) : Step → Prop
  | .claimWorkerAttempt input => ∀ claim ∈ world.granted, claim.2 ≠ input.fenceToken
  | _ => True

instance (world : World) : ∀ step, Decidable (FreshToken world step)
  | .claimWorkerAttempt input =>
    inferInstanceAs (Decidable (∀ claim ∈ world.granted, claim.2 ≠ input.fenceToken))
  | .tick _ | .submit .. | .read _ | .persistWorkerSuccess _ | .failWorkerAttempt _
  | .recoverAbandonedAttempt .. | .repairTerminalQueueFailure .. | .claimCompletion ..
  | .finalizeCompletion .. | .finalizeTerminalFailure .. | .failCompletion .. | .cancel ..
  | .markDispatchCancelled .. => inferInstanceAs (Decidable True)

/-- The steps of workers, recovery, queue repair and users that keep the fence. -/
def KeepsFence (storage : Storage) (world : World) : Step → Prop
  | .claimWorkerAttempt input => ∀ candidate ∈ world.stored input.candidateId,
      candidate.queueJobId = input.queueJobId → storage.claimable candidate input.now = true →
        candidate.status = .backtesting → candidate.activeAttemptNumber = some input.deliveryAttempt
  | .cancel copy _ => storage = .inMemory → copy.status = .backtesting →
      ∀ token ∈ copy.activeFenceToken, world.latestToken copy.candidateId = some token ∨
        ∀ attempt ∈ world.repository.attemptsOf copy.candidateId, attempt.fenceToken ≠ some token
  | step => step.ofWorkers = true

instance (storage : Storage) (world : World) : ∀ step, Decidable (KeepsFence storage world step)
  | .claimWorkerAttempt input =>
    inferInstanceAs (Decidable (∀ candidate ∈ world.stored input.candidateId, _ → _ → _ → _))
  | .cancel copy _ =>
    inferInstanceAs (Decidable (_ → _ → ∀ token ∈ copy.activeFenceToken, _ ∨
      ∀ attempt ∈ world.repository.attemptsOf copy.candidateId, _))
  | .tick _ | .submit .. | .read _ | .persistWorkerSuccess _ | .failWorkerAttempt _
  | .recoverAbandonedAttempt .. | .repairTerminalQueueFailure .. | .claimCompletion ..
  | .finalizeCompletion .. | .finalizeTerminalFailure .. | .failCompletion ..
  | .markDispatchCancelled .. => inferInstanceAs (Decidable (_ = true))

structure FenceInv (storage : Storage) (world : World) (candidateId : String)
    (candidate : StoredCandidate) : Prop where
  latest : candidate.status = .backtesting →
    candidate.activeFenceToken = world.latestToken candidateId
  running : ∀ attempt ∈ world.repository.attemptsOf candidateId, attempt.status = .running →
    (∃ token, attempt.fenceToken = some token ∧ world.latestToken candidateId = some token) ∧
      (candidate.status = .cancelled ∨ candidate.status = .backtesting ∧
        candidate.activeAttemptNumber = some attempt.attemptNumber)
  distinct : ∀ attempt ∈ world.repository.attemptsOf candidateId,
    ∀ other ∈ world.repository.attemptsOf candidateId, ∀ token,
      attempt.fenceToken = some token → other.fenceToken = some token →
        attempt.attemptId = other.attemptId
  carried : ∀ attempt ∈ world.repository.attemptsOf candidateId, ∀ token,
    attempt.fenceToken = some token → ∃ claim ∈ world.granted, claim.2 = token
  /-- What a cancellation puts back in memory is the latest token or one no attempt carries. -/
  restored : storage = .inMemory → candidate.status = .cancelled →
    ∀ token ∈ candidate.activeFenceToken, world.latestToken candidateId = some token ∨
      ∀ attempt ∈ world.repository.attemptsOf candidateId, attempt.fenceToken ≠ some token

namespace Storage

variable {storage : Storage} {world later : World} {step : Step} {candidateId : String}
  {candidate : StoredCandidate}

/-- Two running attempts of one candidate are one. -/
theorem running_unique (h : FenceInv storage world candidateId candidate)
    {attempt other : BacktestAttemptAudit}
    (hmem : attempt ∈ world.repository.attemptsOf candidateId) (hs : attempt.status = .running)
    (hother : other ∈ world.repository.attemptsOf candidateId) (hs' : other.status = .running) :
    attempt.attemptId = other.attemptId := by
  obtain ⟨⟨token, htoken, hlatest⟩, -⟩ := h.running attempt hmem hs
  obtain ⟨⟨token', htoken', hlatest'⟩, -⟩ := h.running other hother hs'
  cases hlatest.symm.trans hlatest'
  exact h.distinct attempt hmem other hother token htoken htoken'

/-- The invariant of a candidate whose row and latest claim stay, with fewer attempts. -/
theorem fenceInv_mono (h : FenceInv storage world candidateId candidate)
    (hsub : ∀ attempt ∈ later.repository.attemptsOf candidateId,
      attempt ∈ world.repository.attemptsOf candidateId)
    (hlatest : later.latestToken candidateId = world.latestToken candidateId)
    (hgranted : ∀ claim ∈ world.granted, claim ∈ later.granted) :
    FenceInv storage later candidateId candidate where
  latest hs := (h.latest hs).trans hlatest.symm
  running attempt hmem hs := by
    rw [hlatest]
    exact h.running attempt (hsub attempt hmem) hs
  distinct attempt hmem other hother :=
    h.distinct attempt (hsub attempt hmem) other (hsub other hother)
  carried attempt hmem token htoken := by
    obtain ⟨claim, hclaim, he⟩ := h.carried attempt (hsub attempt hmem) token htoken
    exact ⟨claim, hgranted claim hclaim, he⟩
  restored hm hs token htoken := by
    rw [hlatest]
    rcases h.restored hm hs token htoken with hl | hnone
    · exact Or.inl hl
    · exact Or.inr fun attempt hmem => hnone attempt (hsub attempt hmem)

/-- A worker write that passes its fence carries the latest token. -/
theorem latest_of_fenced (hworkers : WorkerInv world)
    (hinv : ∀ candidateId candidate, world.stored candidateId = some candidate →
      FenceInv storage world candidateId candidate)
    {fenceToken : String} {attemptId : AttemptId} {attempt : BacktestAttemptAudit}
    (hid : attemptId.candidateId = candidateId)
    (hf : Fenced storage world.repository candidateId attemptId fenceToken candidate attempt) :
    world.latestToken candidateId = some fenceToken := by
  have h := hinv _ _ hf.candidate_stored
  have hkeyed := hworkers.keyed _ _ hf.attempt_stored
  have hmem : attempt ∈ world.repository.attemptsOf candidateId :=
    mem_attemptsOf.mpr ⟨Table.get?_key hf.attempt_stored, hkeyed.1.trans hid⟩
  rcases hworkers.fenced _ _ hf.candidate_stored (by simp [hf.candidate_token]) with hs | hs
  · rw [← h.latest hs, hf.candidate_token]
  · cases hstorage : storage with
    | inMemory =>
      rcases h.restored hstorage hs fenceToken hf.candidate_token with hl | hnone
      · exact hl
      · exact absurd hf.attempt_token (hnone attempt hmem)
    | postgres =>
      obtain ⟨⟨token, htoken, hlatest⟩, -⟩ := h.running attempt hmem (hf.running hstorage).1
      cases htoken.symm.trans hf.attempt_token
      exact hlatest

theorem granted_of_write {state : RepositoryState} {row : Option StoredCandidate}
    {attempt : Option BacktestAttemptAudit} {trades : Option AttemptTrades}
    (hw : Write storage state step row attempt trades) : storage.granted state step = none ∨
      ∃ input, step = .claimWorkerAttempt input ∧
        storage.granted state step = some (input.candidateId, input.fenceToken) := by
  cases hw with
  | nothing h => exact Or.inl h
  | claimed hstored hclaimable hjob hg => exact Or.inr ⟨_, rfl, hg⟩
  | _ => exact Or.inl rfl

theorem granted_next_none (hg : storage.granted world.repository step = none) :
    (storage.next world step).granted = world.granted := by
  simp only [next, hg, Option.toList_none, List.nil_append]

theorem latestToken_next_none (hg : storage.granted world.repository step = none) :
    (storage.next world step).latestToken candidateId = world.latestToken candidateId := by
  simp only [World.latestToken, granted_next_none hg]

theorem latestToken_next_self {token : String}
    (hg : storage.granted world.repository step = some (candidateId, token)) :
    (storage.next world step).latestToken candidateId = some token := by
  simp [World.latestToken, next, hg]

theorem latestToken_next_ne {other token : String}
    (hg : storage.granted world.repository step = some (other, token)) (hne : candidateId ≠ other) :
    (storage.next world step).latestToken candidateId = world.latestToken candidateId := by
  simp [World.latestToken, next, hg, Ne.symm hne]

/-- An attempt written by anything but a claim does not run, and its token was stored before. -/
theorem unclaimed_attempt (h : WorkerInv world) (henabled : world.enabled step)
    {row : Option StoredCandidate} {attempt : BacktestAttemptAudit} {trades : Option AttemptTrades}
    (hw : Write storage world.repository step row (some attempt) trades)
    (hg : storage.granted world.repository step = none) :
    attempt.status ≠ .running ∧ ∀ token, attempt.fenceToken = some token →
      ∃ old ∈ world.repository.attemptsOf step.target, old.attemptId = attempt.attemptId ∧
        old.fenceToken = some token := by
  have howner := (write_attempt h henabled hw).owner
  have hfailed : ∀ {candidate : StoredCandidate} {now : Int} {error : String},
      RunningFailed world.repository candidate now error (some attempt) →
      attempt.status ≠ .running ∧ ∀ token, attempt.fenceToken = some token →
        ∃ old ∈ world.repository.attemptsOf step.target, old.attemptId = attempt.attemptId ∧
          old.fenceToken = some token := fun hf => by
    cases hf with
    | found old hget =>
      exact ⟨nofun, fun token htoken => ⟨old, mem_attemptsOf.mpr ⟨hget, howner⟩, rfl, htoken⟩⟩
    | madeUp => exact ⟨nofun, nofun⟩
  cases hw with
  | claimed hstored hclaimable hjob hgranted =>
    rw [hg] at hgranted
    cases hgranted
  | @persisted input candidate old trades hf | @persistedAudit input candidate old trades retryAt hf =>
    exact ⟨nofun, fun token htoken =>
      ⟨old, mem_attemptsOf.mpr ⟨Table.get?_key hf.attempt_stored, howner⟩, rfl, htoken⟩⟩
  | @failed input candidate old category hf | @failedAudit input candidate old kind code error hf =>
    exact ⟨nofun, fun token htoken =>
      ⟨old, mem_attemptsOf.mpr ⟨Table.get?_key hf.attempt_stored, howner⟩, rfl, htoken⟩⟩
  | recovered retrying hstored hs hf => exact hfailed hf
  | repaired hstored hopen hbefore hf => exact hfailed hf
  | repairedAttempt hstored hlate hf => exact hfailed hf

/-- The attempts of a candidate after a step that is granted no claim. -/
theorem unclaimed_mem (h : WorkerInv world) (henabled : world.enabled step)
    (hg : storage.granted world.repository step = none) {attempt : BacktestAttemptAudit}
    (hmem : attempt ∈ (storage.next world step).repository.attemptsOf candidateId) :
    attempt ∈ world.repository.attemptsOf candidateId ∨
      attempt.status ≠ .running ∧ ∀ token, attempt.fenceToken = some token →
        ∃ old ∈ world.repository.attemptsOf candidateId, old.attemptId = attempt.attemptId ∧
          old.fenceToken = some token := by
  obtain ⟨row, written, trades, hw, hwrote⟩ := apply_writes storage world.repository step
  rcases mem_attemptsOf_putOption hwrote.attempts hmem with ⟨rfl, howner⟩ | ⟨hold, -⟩
  · rw [← howner, (write_attempt h henabled hw).owner]
    exact Or.inr (unclaimed_attempt h henabled hw hg)
  · exact Or.inl hold

/-- A step without a granted claim keeps the invariant of a candidate that it does not set running,
and that it cancels or leaves idle or as it was. -/
theorem fenceInv_unclaimed (hworkers : WorkerInv world) (henabled : world.enabled step)
    (hg : storage.granted world.repository step = none)
    (h : FenceInv storage world candidateId candidate) {row : StoredCandidate}
    (hrow : row = candidate ∨ row.status ≠ .backtesting)
    (hidle : row = candidate ∨ row.status = .cancelled ∨
      ∀ attempt ∈ (storage.next world step).repository.attemptsOf candidateId,
        attempt.status ≠ .running)
    (hrestored : row = candidate ∨ (storage = .inMemory → row.status = .cancelled →
      ∀ token ∈ row.activeFenceToken, world.latestToken candidateId = some token ∨
        ∀ attempt ∈ world.repository.attemptsOf candidateId, attempt.fenceToken ≠ some token)) :
    FenceInv storage (storage.next world step) candidateId row := by
  have hlatest : (storage.next world step).latestToken candidateId = world.latestToken candidateId :=
    latestToken_next_none hg
  -- a token carried after the step was carried before it by the same attempt
  have htokens : ∀ attempt ∈ (storage.next world step).repository.attemptsOf candidateId, ∀ token,
      attempt.fenceToken = some token → ∃ old ∈ world.repository.attemptsOf candidateId,
        old.attemptId = attempt.attemptId ∧ old.fenceToken = some token := by
    intro attempt hmem token htoken
    rcases unclaimed_mem hworkers henabled hg hmem with hold | ⟨-, hstale⟩
    · exact ⟨attempt, hold, rfl, htoken⟩
    · exact hstale token htoken
  constructor
  · intro hs
    rw [hlatest]
    rcases hrow with rfl | hne
    · exact h.latest hs
    · exact absurd hs hne
  · intro attempt hmem hs
    rw [hlatest]
    rcases unclaimed_mem hworkers henabled hg hmem with hold | ⟨hne, -⟩
    · refine ⟨(h.running attempt hold hs).1, ?_⟩
      rcases hidle with rfl | hcancelled | hnone
      · exact (h.running attempt hold hs).2
      · exact Or.inl hcancelled
      · exact absurd hs (hnone attempt hmem)
    · exact absurd hs hne
  · intro attempt hmem other hother token htoken htoken'
    obtain ⟨old, hold, hid, hcarried⟩ := htokens attempt hmem token htoken
    obtain ⟨old', hold', hid', hcarried'⟩ := htokens other hother token htoken'
    rw [← hid, ← hid']
    exact h.distinct old hold old' hold' token hcarried hcarried'
  · intro attempt hmem token htoken
    obtain ⟨old, hold, -, hcarried⟩ := htokens attempt hmem token htoken
    rw [granted_next_none hg]
    exact h.carried old hold token hcarried
  · intro hm hs token htoken
    rw [hlatest]
    have hbefore : world.latestToken candidateId = some token ∨
        ∀ attempt ∈ world.repository.attemptsOf candidateId, attempt.fenceToken ≠ some token := by
      rcases hrestored with rfl | hrestored
      · exact h.restored hm hs token htoken
      · exact hrestored hm hs token htoken
    rcases hbefore with hl | hnone
    · exact Or.inl hl
    · refine Or.inr fun attempt hmem hcarried => ?_
      obtain ⟨old, hold, -, hcarried'⟩ := htokens attempt hmem token hcarried
      exact hnone old hold hcarried'

theorem ofWorkers_of_keepsFence (hc : KeepsFence storage world step) : step.ofWorkers = true := by
  cases step <;> first | rfl | exact hc

/-- Only a claim sets a candidate running. -/
theorem unclaimed_row {row : StoredCandidate} {attempt : Option BacktestAttemptAudit}
    {trades : Option AttemptTrades}
    (hw : Write storage world.repository step (some row) attempt trades)
    (hg : storage.granted world.repository step = none) (hstep : step.ofWorkers = true) :
    row.status ≠ .backtesting := by
  cases hw with
  | claimed hstored hclaimable hjob hgranted =>
    rw [hg] at hgranted
    cases hgranted
  | @failed input => cases input.retrying <;> simp [StoredCandidate.workerFailed]
  | recovered retrying =>
    intro hrunning
    cases retrying <;> cases hrunning
  | submitted | persisted | repaired | cancelled =>
    intro hrunning
    cases hrunning
  | persistedAudit retryAt hf hs | failedAudit kind code error hf hs =>
    simp [StoredCandidate.released, hs]
  | completionClaimed | completionFinalized | terminalFailureFinalized | completionFailed =>
    cases hstep

/-- After recovery or repair nothing runs. -/
theorem idle_of_runningFailed (h : FenceInv storage world candidateId candidate)
    (hid : candidate.candidateId = candidateId) {now : Int} {error : String}
    {written : Option BacktestAttemptAudit}
    (hf : RunningFailed world.repository candidate now error written)
    (hattempts : later.repository.attempts = world.repository.attempts.putOption written)
    (attempt : BacktestAttemptAudit) (hmem : attempt ∈ later.repository.attemptsOf candidateId) :
    attempt.status ≠ .running := by
  subst hid
  rcases mem_attemptsOf_putOption hattempts hmem with ⟨rfl, -⟩ | ⟨hold, hother⟩
  · cases hf <;> nofun
  · intro hs
    cases hf with
    | found found hget howner hrunning =>
      have hfound : found ∈ world.repository.attemptsOf candidate.candidateId :=
        mem_attemptsOf.mpr ⟨hget, howner⟩
      have he := running_unique h hold hs hfound hrunning
      exact hother _ rfl he
    | madeUp hempty =>
      rw [hempty] at hold
      cases hold
    | finished hnone => exact hnone attempt hold hs

/-- After a worker's write on a running candidate nothing runs. -/
theorem idle_of_fenced (hworkers : WorkerInv world)
    (h : FenceInv storage world candidateId candidate) {fenceToken : String} {attemptId : AttemptId}
    {found written : BacktestAttemptAudit}
    (hf : Fenced storage world.repository candidateId attemptId fenceToken candidate found)
    (hlive : candidate.status ≠ .cancelled) (hid : attemptId.candidateId = candidateId)
    (hattempts : later.repository.attempts = world.repository.attempts.putOption (some written))
    (hkey : written.attemptId = found.attemptId) (hs : written.status ≠ .running)
    (attempt : BacktestAttemptAudit) (hmem : attempt ∈ later.repository.attemptsOf candidateId) :
    attempt.status ≠ .running := by
  rcases mem_attemptsOf_putOption hattempts hmem with ⟨he, -⟩ | ⟨hold, hother⟩
  · cases he
    exact hs
  · intro hrunning
    -- the running attempt carries the candidate's token, as the one written does
    have hbacktesting := backtesting_of_fenced hworkers hf hlive
    obtain ⟨⟨token, htoken, hlatest⟩, -⟩ := h.running attempt hold hrunning
    rw [← h.latest hbacktesting, hf.candidate_token] at hlatest
    cases hlatest
    have hfound : found ∈ world.repository.attemptsOf candidateId :=
      mem_attemptsOf.mpr ⟨Table.get?_key hf.attempt_stored,
        (hworkers.keyed _ _ hf.attempt_stored).1.trans hid⟩
    refine hother written rfl ?_
    rw [hkey]
    exact h.distinct attempt hold found hfound fenceToken htoken hf.attempt_token

theorem idle_write (hworkers : WorkerInv world)
    (hinv : ∀ candidateId candidate, world.stored candidateId = some candidate →
      FenceInv storage world candidateId candidate)
    (henabled : world.enabled step) (hstep : step.ofWorkers = true)
    (hg : storage.granted world.repository step = none)
    {row : StoredCandidate} {written : Option BacktestAttemptAudit} {trades : Option AttemptTrades}
    (hw : Write storage world.repository step (some row) written trades)
    (hattempts : later.repository.attempts = world.repository.attempts.putOption written) :
    row.status = .cancelled ∨ ∀ attempt ∈ later.repository.attemptsOf step.target,
      attempt.status ≠ .running := by
  cases hw with
  | claimed hstored hclaimable hjob hgranted =>
    rw [hg] at hgranted
    cases hgranted
  | @submitted submission dispatch key =>
    refine Or.inr fun attempt hmem => ?_
    rcases mem_attemptsOf_putOption hattempts hmem with ⟨he, -⟩ | ⟨hold, -⟩
    · cases he
    · obtain ⟨hget, howner⟩ := mem_attemptsOf.mp hold
      have hfresh : world.stored submission.candidateId = none :=
        Option.isNone_iff_eq_none.mp henabled.1
      have howned := hworkers.owned _ _ hget
      rw [show attempt.candidateId = submission.candidateId from howner, hfresh] at howned
      cases howned
  | persisted hf hlive =>
    exact Or.inr (idle_of_fenced hworkers (hinv _ _ hf.candidate_stored) hf hlive henabled.1
      hattempts rfl nofun)
  | failed hf hlive =>
    exact Or.inr (idle_of_fenced hworkers (hinv _ _ hf.candidate_stored) hf hlive henabled
      hattempts rfl nofun)
  | persistedAudit retryAt hf hs | failedAudit kind code error hf hs => exact Or.inl hs
  | recovered retrying hstored hs hf =>
    exact Or.inr (idle_of_runningFailed (hinv _ _ hstored) (Table.key_of_get? hstored) hf hattempts)
  | repaired hstored hopen hbefore hf =>
    exact Or.inr (idle_of_runningFailed (hinv _ _ hstored) (Table.key_of_get? hstored) hf hattempts)
  | cancelled => exact Or.inl rfl
  | completionClaimed | completionFinalized | terminalFailureFinalized | completionFailed =>
    cases hstep

/-- What a cancelled row carries after the step. -/
theorem restored_write (hc : KeepsFence storage world step) {row : StoredCandidate}
    {written : Option BacktestAttemptAudit} {trades : Option AttemptTrades}
    (hw : Write storage world.repository step (some row) written trades)
    (hm : storage = .inMemory) (hs : row.status = .cancelled) (token : String)
    (htoken : token ∈ row.activeFenceToken) : world.latestToken step.target = some token ∨
      ∀ attempt ∈ world.repository.attemptsOf step.target, attempt.fenceToken ≠ some token := by
  cases hw with
  | @cancelled copy now stored hsame =>
    have hcopy : (if copy.status = .backtesting then copy.activeFenceToken else none) = some token :=
      htoken
    split at hcopy
    next hbacktesting => exact hc hm hbacktesting token hcopy
    next => cases hcopy
  | submitted | persistedAudit | failedAudit | persisted | failed | recovered | repaired =>
    cases htoken
  | claimed => cases hs
  | completionClaimed | completionFinalized | terminalFailureFinalized | completionFailed =>
    cases hc

/-- A granted claim on its own candidate: the attempt claimed is the only one that runs, and the
only one that carries the new token. -/
theorem fenceInv_claimed (hworkers : WorkerInv world) {input : WorkerClaimInput}
    (h : FenceInv storage world input.candidateId candidate)
    (henabled : world.enabled (.claimWorkerAttempt input))
    (hfresh : FreshToken world (.claimWorkerAttempt input))
    (hc : KeepsFence storage world (.claimWorkerAttempt input))
    (hstored : world.stored input.candidateId = some candidate)
    (hclaimable : storage.claimable candidate input.now = true)
    (hjob : candidate.queueJobId = input.queueJobId)
    (hg : storage.granted world.repository (.claimWorkerAttempt input) =
      some (input.candidateId, input.fenceToken))
    (hattempts : (storage.next world (.claimWorkerAttempt input)).repository.attempts =
      world.repository.attempts.putOption
        (some (((storage.attemptOf world.repository input).getD input.newAttempt).claimed input))) :
    FenceInv storage (storage.next world (.claimWorkerAttempt input)) input.candidateId
      (candidate.claimed input) := by
  have hearly := early_of_claimable hclaimable
  have hlatest := latestToken_next_self hg
  obtain ⟨hkey, howner, hnumber⟩ := claimed_attempt storage hworkers henabled hstored hearly
  generalize hw : ((storage.attemptOf world.repository input).getD input.newAttempt).claimed input =
    written at hattempts hkey howner hnumber
  have htoken : written.fenceToken = some input.fenceToken := by
    rw [← hw]
    rfl
  have hmembers : ∀ attempt ∈ (storage.next world (.claimWorkerAttempt input)).repository.attemptsOf
      input.candidateId, attempt = written ∨
        attempt ∈ world.repository.attemptsOf input.candidateId ∧
          attempt.attemptId ≠ written.attemptId := by
    intro attempt hmem
    rcases mem_attemptsOf_putOption hattempts hmem with ⟨he, -⟩ | ⟨hold, hother⟩
    · exact Or.inl (Option.some.inj he).symm
    · exact Or.inr ⟨hold, hother written rfl⟩
  have hidle : ∀ attempt ∈ world.repository.attemptsOf input.candidateId,
      attempt.attemptId ≠ written.attemptId → attempt.status ≠ .running := by
    intro attempt hold hne hs
    rcases (h.running attempt hold hs).2 with hcancelled | ⟨hbacktesting, hactive⟩
    · simp [hcancelled, early] at hearly
    · have hsame : attempt.attemptNumber = input.deliveryAttempt := by
        rw [hc candidate hstored hjob hclaimable hbacktesting] at hactive
        exact (Option.some.inj hactive).symm
      refine hne ?_
      rw [attemptId_of_early hworkers hstored hearly hold, hsame, hkey]
  have hnew : ∀ attempt ∈ world.repository.attemptsOf input.candidateId,
      attempt.fenceToken ≠ some input.fenceToken := by
    intro attempt hold hcarried
    obtain ⟨claim, hclaim, he⟩ := h.carried attempt hold input.fenceToken hcarried
    exact hfresh claim hclaim he
  constructor
  · intro _
    exact hlatest.symm
  · intro attempt hmem hs
    rcases hmembers attempt hmem with rfl | ⟨hold, hne⟩
    · exact ⟨⟨input.fenceToken, htoken, hlatest⟩, Or.inr ⟨rfl, congrArg some hnumber.symm⟩⟩
    · exact absurd hs (hidle attempt hold hne)
  · intro attempt hmem other hother token hcarried hcarried'
    rcases hmembers attempt hmem with rfl | ⟨hold, -⟩ <;>
      rcases hmembers other hother with rfl | ⟨hold', -⟩
    · rfl
    · cases htoken.symm.trans hcarried
      exact absurd hcarried' (hnew other hold')
    · cases htoken.symm.trans hcarried'
      exact absurd hcarried (hnew attempt hold)
    · exact h.distinct attempt hold other hold' token hcarried hcarried'
  · intro attempt hmem token hcarried
    simp only [next, hg, Option.toList_some, List.singleton_append]
    rcases hmembers attempt hmem with rfl | ⟨hold, -⟩
    · cases htoken.symm.trans hcarried
      exact ⟨_, List.mem_cons_self, rfl⟩
    · obtain ⟨claim, hclaim, he⟩ := h.carried attempt hold token hcarried
      exact ⟨claim, List.mem_cons_of_mem _ hclaim, he⟩
  · intro _ hs
    cases hs

/-- A candidate that the step is not about. -/
theorem fenceInv_other (hworkers : WorkerInv world) (henabled : world.enabled step)
    (h : FenceInv storage world candidateId candidate) (hne : candidateId ≠ step.target) :
    FenceInv storage (storage.next world step) candidateId candidate := by
  obtain ⟨row, written, trades, hw, hwrote⟩ := apply_writes storage world.repository step
  refine fenceInv_mono h ?_ ?_ fun claim hclaim => List.mem_append_right _ hclaim
  · intro attempt hmem
    rcases mem_attemptsOf_putOption hwrote.attempts hmem with ⟨rfl, howner⟩ | ⟨hold, -⟩
    · exact absurd (howner.symm.trans (write_attempt hworkers henabled hw).owner) hne
    · exact hold
  · rcases granted_of_write hw with hg | ⟨input, rfl, hg⟩
    · exact latestToken_next_none hg
    · exact latestToken_next_ne hg hne

/-- The row of a candidate that the step is not about. -/
theorem stored_next_other (hne : candidateId ≠ step.target) :
    (storage.next world step).stored candidateId = world.stored candidateId := by
  rcases stored_next_cases storage world step candidateId with ⟨row, _, _, hw, hid, -⟩ | hsame
  · exact absurd (hid.symm.trans (write_row hw)) hne
  · exact hsame

def FencesInv (storage : Storage) (world : World) : Prop :=
  ∀ candidateId candidate, world.stored candidateId = some candidate →
    FenceInv storage world candidateId candidate

/-- A new row of a candidate that was not stored has no attempts. -/
theorem fenceInv_fresh (hworkers : WorkerInv world) (henabled : world.enabled step)
    (hbefore : world.stored step.target = none) (hs : candidate.status ≠ .backtesting) :
    FenceInv storage (storage.next world step) step.target candidate := by
  obtain ⟨row, written, trades, hw, hwrote⟩ := apply_writes storage world.repository step
  have hnone : ∀ attempt ∈ (storage.next world step).repository.attemptsOf step.target, False := by
    intro attempt hmem
    have hsome : (world.stored step.target).isSome := by
      rcases mem_attemptsOf_putOption hwrote.attempts hmem with ⟨rfl, -⟩ | ⟨hold, -⟩
      · exact (write_attempt hworkers henabled hw).stored
      · obtain ⟨hget, howner⟩ := mem_attemptsOf.mp hold
        rw [← howner]
        exact hworkers.owned _ _ hget
    rw [hbefore] at hsome
    cases hsome
  exact ⟨fun h => absurd h hs, fun attempt hmem => (hnone attempt hmem).elim,
    fun attempt hmem => (hnone attempt hmem).elim, fun attempt hmem => (hnone attempt hmem).elim,
    fun _ _ _ _ => Or.inr fun attempt hmem => (hnone attempt hmem).elim⟩

/-- The candidate a step is about. -/
theorem fenceInv_target (hworkers : WorkerInv world) (hinv : FencesInv storage world)
    (henabled : world.enabled step) (hfresh : FreshToken world step)
    (hc : KeepsFence storage world step)
    (hstored : (storage.next world step).stored step.target = some candidate) :
    FenceInv storage (storage.next world step) step.target candidate := by
  obtain ⟨row, written, trades, hw, hwrote⟩ := apply_writes storage world.repository step
  have hrow : (world.repository.candidates.putOption row).get? step.target = some candidate := by
    rw [← hwrote.candidates]
    exact hstored
  rcases granted_of_write hw with hg | ⟨input, rfl, hg⟩
  · have hstep := ofWorkers_of_keepsFence hc
    rcases Table.get?_putOption_cases world.repository.candidates row step.target with
      ⟨stored, rfl, -, hwritten⟩ | hsame
    · cases hwritten.symm.trans hrow
      have hne := unclaimed_row hw hg hstep
      cases hbefore : world.stored step.target with
      | none => exact fenceInv_fresh hworkers henabled hbefore hne
      | some before =>
        exact fenceInv_unclaimed hworkers henabled hg (hinv _ _ hbefore) (Or.inr hne)
          (Or.inr (idle_write hworkers hinv henabled hstep hg hw hwrote.attempts))
          (Or.inr (restored_write hc hw))
    · have hbefore : world.stored step.target = some candidate := hsame.symm.trans hrow
      exact fenceInv_unclaimed hworkers henabled hg (hinv _ _ hbefore) (Or.inl rfl) (Or.inl rfl)
        (Or.inl rfl)
  · cases hw with
    | nothing hnone =>
      rw [hg] at hnone
      cases hnone
    | @claimed _ before hbefore hclaimable hjob =>
      have hid : (before.claimed input).candidateId = input.candidateId := write_row
        (.claimed hbefore hclaimable hjob hg)
      have hput := Table.get?_put_of_eq world.repository.candidates hid.symm
      cases hput.symm.trans hrow
      exact fenceInv_claimed hworkers (hinv _ _ hbefore) henabled hfresh hc hbefore hclaimable hjob hg
        hwrote.attempts

theorem fencesInv_next (hworkers : WorkerInv world) (hinv : FencesInv storage world)
    (henabled : world.enabled step) (hfresh : FreshToken world step)
    (hc : KeepsFence storage world step) : FencesInv storage (storage.next world step) := by
  intro candidateId candidate hstored
  by_cases hne : candidateId = step.target
  · subst hne
    exact fenceInv_target hworkers hinv henabled hfresh hc hstored
  · rw [stored_next_other hne] at hstored
    exact fenceInv_other hworkers henabled (hinv candidateId candidate hstored) hne

end Storage

/-- Only the token of the latest claim opens a worker write, any other write throws and changes
nothing, and no candidate has two running attempts. -/
structure WorkersFenced (storage : Storage) (world : World) : Prop where
  persist : ∀ input : WorkerSuccessInput, input.attemptId.candidateId = input.candidateId →
    world.latestToken input.candidateId ≠ some input.fenceToken →
    storage.persistWorkerSuccess world.repository input =
      (world.repository, .error "BACKTEST_FENCE_LOST")
  fail : ∀ input : WorkerFailureInput, input.attemptId.candidateId = input.candidateId →
    world.latestToken input.candidateId ≠ some input.fenceToken →
    storage.failWorkerAttempt world.repository input =
      (world.repository, .error "BACKTEST_FENCE_LOST")
  running : ∀ attempt ∈ world.repository.attempts.rows, ∀ other ∈ world.repository.attempts.rows,
    attempt.status = .running → other.status = .running →
    attempt.candidateId = other.candidateId → attempt = other

namespace Storage

variable {storage : Storage} {world : World}

theorem persistWorkerSuccess_lost (storage : Storage) (state : RepositoryState)
    (input : WorkerSuccessInput) :
    storage.persistWorkerSuccess state input = (state, .error "BACKTEST_FENCE_LOST") ∨
      ∃ candidate attempt, Fenced storage state input.candidateId input.attemptId input.fenceToken
        candidate attempt := by
  cases storage with
  | inMemory =>
    simp only [persistWorkerSuccess, InMemory.persistWorkerSuccess]
    split
    next candidate attempt hcandidate hattempt =>
      by_cases hfence : candidate.activeFenceToken = some input.fenceToken ∧
          attempt.fenceToken = some input.fenceToken
      · refine Or.inr ⟨candidate, attempt, hcandidate, hattempt, hfence.1, hfence.2, ?_⟩
        intro hpostgres
        cases hpostgres
      · exact Or.inl (if_neg hfence)
    next => exact Or.inl rfl
  | postgres =>
    simp only [persistWorkerSuccess, Postgres.persistWorkerSuccess]
    split
    next => exact Or.inl rfl
    next candidate attempt hfence => exact Or.inr ⟨candidate, attempt, fenced_postgres hfence⟩

theorem failWorkerAttempt_lost (storage : Storage) (state : RepositoryState)
    (input : WorkerFailureInput) :
    storage.failWorkerAttempt state input = (state, .error "BACKTEST_FENCE_LOST") ∨
      ∃ candidate attempt, Fenced storage state input.candidateId input.attemptId input.fenceToken
        candidate attempt := by
  cases storage with
  | inMemory =>
    simp only [failWorkerAttempt, InMemory.failWorkerAttempt]
    split
    next candidate attempt hcandidate hattempt =>
      by_cases hfence : candidate.activeFenceToken = some input.fenceToken ∧
          attempt.fenceToken = some input.fenceToken
      · refine Or.inr ⟨candidate, attempt, hcandidate, hattempt, hfence.1, hfence.2, ?_⟩
        intro hpostgres
        cases hpostgres
      · exact Or.inl (if_neg hfence)
    next => exact Or.inl rfl
  | postgres =>
    simp only [failWorkerAttempt, Postgres.failWorkerAttempt]
    split
    next => exact Or.inl rfl
    next candidate attempt hfence => exact Or.inr ⟨candidate, attempt, fenced_postgres hfence⟩

theorem workersFenced_of_inv (hworkers : WorkerInv world) (hinv : FencesInv storage world) :
    WorkersFenced storage world where
  persist input hid hother := by
    rcases persistWorkerSuccess_lost storage world.repository input with hlost | ⟨_, _, hf⟩
    · exact hlost
    · exact absurd (latest_of_fenced hworkers hinv hid hf) hother
  fail input hid hother := by
    rcases failWorkerAttempt_lost storage world.repository input with hlost | ⟨_, _, hf⟩
    · exact hlost
    · exact absurd (latest_of_fenced hworkers hinv hid hf) hother
  running attempt hrow other hrow' hs hs' hsame := by
    have hget := Table.get?_of_mem_rows hrow
    have hget' := Table.get?_of_mem_rows hrow'
    obtain ⟨candidate, hstored⟩ := Option.isSome_iff_exists.mp (hworkers.owned _ _ hget)
    have hid := running_unique (hinv _ _ hstored) (mem_attemptsOf.mpr ⟨hget, rfl⟩) hs
      (mem_attemptsOf.mpr ⟨hget', hsame.symm⟩) hs'
    rw [hid] at hget
    exact Option.some.inj (hget.symm.trans hget')

/-- The fence holds in every state of every run with distinct tokens in which no claim over an
expired lease changes the delivery number and, in memory, no cancellation puts a superseded token
back. -/
theorem workers_fenced (storage : Storage) (steps : List Step)
    (h : storage.system.Legal (fun world step => FreshToken world step ∧
      KeepsFence storage world step) World.start steps) :
    WorkersFenced storage (storage.after steps) := by
  have hnext : ∀ world step, WorkerInv world ∧ FencesInv storage world → world.enabled step →
      FreshToken world step ∧ KeepsFence storage world step →
      WorkerInv (storage.next world step) ∧ FencesInv storage (storage.next world step) :=
    fun world step hinv henabled hc =>
      ⟨workerInv_next hinv.1 henabled,
        fencesInv_next hinv.1 hinv.2 henabled hc.1 hc.2⟩
  obtain ⟨hworkers, hinv⟩ :=
    h.invariant _ hnext ⟨workerInv_start, fun _ _ hstored => by cases hstored⟩
  exact workersFenced_of_inv hworkers hinv

/-- The lease of a first delivery runs out, the same delivery is claimed again with a new token and
the old worker answers late: the fence holds. -/
theorem workers_fenced_redelivered :
    (postgres.after
        [.submit Sample.candidate Sample.dispatch none,
          .claimWorkerAttempt (Sample.delivery 1 "f" 0),
          .claimWorkerAttempt (Sample.delivery 1 "g" 60000),
          .persistWorkerSuccess (Sample.success 1 "f" 61000)]).latestToken "c" = some "g" ∧
      WorkersFenced postgres (postgres.after
        [.submit Sample.candidate Sample.dispatch none,
          .claimWorkerAttempt (Sample.delivery 1 "f" 0),
          .claimWorkerAttempt (Sample.delivery 1 "g" 60000),
          .persistWorkerSuccess (Sample.success 1 "f" 61000)]) :=
  ⟨by decide, workers_fenced postgres _ (by decide)⟩

/-- The lease of the first delivery runs out and the second delivery is claimed. -/
def claimedTwice : List Step :=
  [.submit Sample.candidate Sample.dispatch none,
    .claimWorkerAttempt (Sample.delivery 1 "f" 0),
    .claimWorkerAttempt (Sample.delivery 2 "g" 60000)]

/-- A cancellation that read the first delivery's row is written after the second claim. -/
def cancelledLate : List Step :=
  [.submit Sample.candidate Sample.dispatch none,
    .claimWorkerAttempt (Sample.delivery 1 "f" 0),
    .read "c",
    .recoverAbandonedAttempt "c" 60000 "BACKTEST_WORKER_LEASE_EXPIRED",
    .claimWorkerAttempt (Sample.delivery 2 "g" 61000),
    .cancel (Sample.candidate.claimed (Sample.delivery 1 "f" 0)) 62000]

theorem not_workersFenced_running (first second : AttemptId) (candidateId : String)
    (hne : first ≠ second)
    (h : (world.repository.attempts.get? first).map (fun attempt =>
      (attempt.status, attempt.candidateId)) = some (.running, candidateId))
    (h' : (world.repository.attempts.get? second).map (fun attempt =>
      (attempt.status, attempt.candidateId)) = some (.running, candidateId)) :
    ¬ WorkersFenced storage world := by
  intro hfenced
  obtain ⟨attempt, hget, hs⟩ := Option.map_eq_some_iff.mp h
  obtain ⟨other, hget', hs'⟩ := Option.map_eq_some_iff.mp h'
  rw [Prod.mk.injEq] at hs hs'
  have hsame := hfenced.running attempt (Table.mem_rows_of_get? hget) other
    (Table.mem_rows_of_get? hget') hs.1 hs'.1 (hs.2.trans hs'.2.symm)
  subst hsame
  exact hne ((Table.key_of_get? hget).symm.trans (Table.key_of_get? hget'))

theorem not_workersFenced_persist (input : WorkerSuccessInput)
    (hid : input.attemptId.candidateId = input.candidateId)
    (hother : world.latestToken input.candidateId ≠ some input.fenceToken)
    (hok : (storage.persistWorkerSuccess world.repository input).2.toBool = true) :
    ¬ WorkersFenced storage world := by
  intro hfenced
  rw [hfenced.persist input hid hother] at hok
  cases hok

/-- Two legal runs with distinct tokens that break the fence. A claim over an expired lease under
the next delivery number leaves two running attempts, in both repositories. In memory a late
cancellation puts the first token back and the first worker's result is stored. -/
theorem workers_unfenced :
    (postgres.system.Legal FreshToken World.start claimedTwice ∧
      ¬ WorkersFenced postgres (postgres.after claimedTwice)) ∧
    (inMemory.system.Legal FreshToken World.start cancelledLate ∧
      ¬ WorkersFenced inMemory (inMemory.after cancelledLate)) := by
  refine ⟨⟨by decide, ?_⟩, by decide, ?_⟩
  · exact not_workersFenced_running (.delivery "c" 1) (.delivery "c" 2) "c" (by decide) (by decide)
      (by decide)
  · exact not_workersFenced_persist (Sample.success 1 "f" 63000) rfl (by decide) (by decide)

end Storage

end Cryptox.Backtesting
