import Cryptox.Library.Outcome
import Cryptox.Backtesting.Repository.Run

/-!
# What one step writes

A step writes at most one candidate row, at most one attempt and the trades of at most one
attempt. `Write` lists, for both repositories, every combination together with the guard that was
checked; every invariant below is derived from it.
-/
namespace Cryptox.Backtesting

open Cryptox.Library

namespace Storage

variable (storage : Storage) (state : RepositoryState)

/-- The attempt that a claim writes over. -/
def attemptOf (input : WorkerClaimInput) : Option BacktestAttemptAudit :=
  match storage with
  | inMemory => state.attempts.get? input.attemptId
  | postgres => Postgres.attemptNumbered state input.candidateId input.deliveryAttempt

/-- A worker write that passes its fence, on the candidate and the attempt it finds. -/
structure Fenced (candidateId : String) (attemptId : AttemptId) (fenceToken : String)
    (candidate : StoredCandidate) (attempt : BacktestAttemptAudit) : Prop where
  candidate_stored : state.candidates.get? candidateId = some candidate
  attempt_stored : state.attempts.get? attemptId = some attempt
  candidate_token : candidate.activeFenceToken = some fenceToken
  attempt_token : attempt.fenceToken = some fenceToken
  running : storage = postgres →
    attempt.status = .running ∧ Postgres.workerWritable candidate.status = true

/-- A completion write that passes its fence. -/
structure CompletionFenced (copy : StoredCandidate) (claimToken : String) (now : Int)
    (candidate : StoredCandidate) : Prop where
  candidate_stored : state.candidates.get? copy.candidateId = some candidate
  token : candidate.activeCompletionClaimToken = some claimToken
  generation : candidate.completionGeneration = copy.completionGeneration
  lease : ∃ lease, candidate.activeCompletionLeaseExpiresAt = some lease ∧ now < lease

/-- The attempt that recovery or repair writes: one that was running is failed; without any
attempt one is made up; attempts that are all finished stay as they are. -/
inductive RunningFailed (candidate : StoredCandidate) (now : Int) (error : String) :
    Option BacktestAttemptAudit → Prop
  | found (attempt : BacktestAttemptAudit)
      (stored : state.attempts.get? attempt.attemptId = some attempt)
      (owner : attempt.candidateId = candidate.candidateId) (running : attempt.status = .running) :
      RunningFailed candidate now error (some (attempt.failedAs .infrastructure now error))
  | madeUp (none_stored : state.attemptsOf candidate.candidateId = []) :
      RunningFailed candidate now error (some (recoveryAttempt candidate now error))
  | finished (none_running : ∀ attempt ∈ state.attemptsOf candidate.candidateId,
      attempt.status ≠ .running) : RunningFailed candidate now error none

inductive Write : Step → Option StoredCandidate → Option BacktestAttemptAudit →
    Option AttemptTrades → Prop
  | nothing {step : Step} (h : storage.granted state step = none) : Write step none none none
  | submitted {candidate : StoredCandidate} {dispatch : BacktestDispatch} {key : Option String} :
      Write (.submit candidate dispatch key) (some candidate.submitted) none none
  | claimed {input : WorkerClaimInput} {candidate : StoredCandidate}
      (stored : state.candidates.get? input.candidateId = some candidate)
      (claimable : storage.claimable candidate input.now = true)
      (job : candidate.queueJobId = input.queueJobId)
      (granted : storage.granted state (.claimWorkerAttempt input) =
        some (input.candidateId, input.fenceToken)) :
      Write (.claimWorkerAttempt input) (some (candidate.claimed input))
        (some (((storage.attemptOf state input).getD input.newAttempt).claimed input)) none
  | persisted {input : WorkerSuccessInput} {candidate : StoredCandidate}
      {attempt : BacktestAttemptAudit} {trades : Option AttemptTrades}
      (fenced : storage.Fenced state input.candidateId input.attemptId input.fenceToken
        candidate attempt)
      (live : candidate.status ≠ .cancelled)
      (owner : ∀ row ∈ trades, row.attemptId = input.attemptId) :
      Write (.persistWorkerSuccess input) (some (candidate.persisted input.completedAt))
        (some (attempt.completed false input.trades.length input.completedAt)) trades
  | persistedAudit {input : WorkerSuccessInput} {candidate : StoredCandidate}
      {attempt : BacktestAttemptAudit} {trades : Option AttemptTrades} (retryAt : Option Int)
      (fenced : storage.Fenced state input.candidateId input.attemptId input.fenceToken
        candidate attempt)
      (cancelled : candidate.status = .cancelled)
      (owner : ∀ row ∈ trades, row.attemptId = input.attemptId) :
      Write (.persistWorkerSuccess input)
        (some { candidate.released input.completedAt with completionNextRetryAt := retryAt })
        (some (attempt.completed true input.trades.length input.completedAt)) trades
  | failed {input : WorkerFailureInput} {candidate : StoredCandidate}
      {attempt : BacktestAttemptAudit} {category : FailureCategory}
      (fenced : storage.Fenced state input.candidateId input.attemptId input.fenceToken
        candidate attempt)
      (live : candidate.status ≠ .cancelled) :
      Write (.failWorkerAttempt input)
        (some (candidate.workerFailed input.retrying input.now input.error))
        (some (attempt.failedAs category input.now input.error)) none
  | failedAudit {input : WorkerFailureInput} {candidate : StoredCandidate}
      {attempt : BacktestAttemptAudit} (kind : Option FailureKind) (code error : Option String)
      (fenced : storage.Fenced state input.candidateId input.attemptId input.fenceToken
        candidate attempt)
      (cancelled : candidate.status = .cancelled) :
      Write (.failWorkerAttempt input)
        (some { candidate.released input.now with
          failureKind := kind, failureCode := code, lastError := error })
        (some (attempt.failedAs .cancelledAudit input.now input.error)) none
  | recovered {candidateId error : String} {now : Int} {candidate : StoredCandidate}
      {attempt : Option BacktestAttemptAudit} (retrying : Bool)
      (stored : state.candidates.get? candidateId = some candidate)
      (backtesting : candidate.status = .backtesting)
      (failed : RunningFailed state candidate now error attempt) :
      Write (.recoverAbandonedAttempt candidateId now error)
        (some (candidate.recovered retrying now error)) attempt none
  | repaired {candidateId error : String} {now : Int} {candidate : StoredCandidate}
      {attempt : Option BacktestAttemptAudit}
      (stored : state.candidates.get? candidateId = some candidate)
      (open' : terminal candidate.status = false ∧ candidate.status ≠ .terminalFailurePending)
      (before : candidate.status = .processingResult → storage = inMemory)
      (failed : RunningFailed state candidate now error attempt) :
      Write (.repairTerminalQueueFailure candidateId error now)
        (some (candidate.repaired now error)) attempt none
  | repairedAttempt {candidateId error : String} {now : Int} {candidate : StoredCandidate}
      {attempt : Option BacktestAttemptAudit}
      (stored : state.candidates.get? candidateId = some candidate)
      (late : candidate.status ≠ .queued ∧ candidate.status ≠ .backtesting
        ∧ candidate.status ≠ .retryWait)
      (failed : RunningFailed state candidate now error attempt) :
      Write (.repairTerminalQueueFailure candidateId error now) none attempt none
  | completionClaimed {candidateId claimToken : String} {now leaseExpiresAt : Int}
      {candidate : StoredCandidate}
      (stored : state.candidates.get? candidateId = some candidate)
      (due : candidate.completionDue now = true)
      (budget : candidate.completionAttemptCount < candidate.completionMaxAttempts) :
      Write (.claimCompletion candidateId claimToken now leaseExpiresAt)
        (some (candidate.completionClaimed claimToken now leaseExpiresAt)) none none
  | completionFinalized {copy candidate : StoredCandidate} {experimentId claimToken : String}
      {now : Int} (fenced : CompletionFenced state copy claimToken now candidate)
      (pending : candidate.status = .processingResult) :
      Write (.finalizeCompletion copy experimentId claimToken now)
        (some (candidate.completionFinalized experimentId now)) none none
  | terminalFailureFinalized {copy candidate : StoredCandidate} {claimToken : String} {now : Int}
      (fenced : CompletionFenced state copy claimToken now candidate)
      (pending : candidate.status = .terminalFailurePending) :
      Write (.finalizeTerminalFailure copy claimToken now)
        (some (candidate.terminalFailureFinalized now)) none none
  | completionFailed {copy candidate source : StoredCandidate} {claimToken error : String}
      {retryAt : Option Int} {now : Int}
      (fenced : CompletionFenced state copy claimToken now candidate)
      (read : source = candidate ∨ source = copy) :
      Write (.failCompletion copy claimToken retryAt now error)
        (some (candidate.completionFailed source retryAt now error)) none none
  | cancelled {copy : StoredCandidate} {now : Int} (stored : StoredCandidate)
      (same : stored.candidateId = copy.candidateId)
      (beneath : stored = copy ∨ state.candidates.get? copy.candidateId = some stored) :
      Write (.cancel copy now) (some (Postgres.overwritten stored (copy.cancelledAt now))) none none

/-- The tables after the writes. -/
structure Wrote (state' : RepositoryState) (candidate : Option StoredCandidate)
    (attempt : Option BacktestAttemptAudit) (trades : Option AttemptTrades) : Prop where
  candidates : state'.candidates = state.candidates.putOption candidate
  attempts : state'.attempts = state.attempts.putOption attempt
  trades : state'.trades = state.trades.putOption trades
  experiments : state'.experiments = state.experiments

variable {storage} {state}

/-- The step writes what `Write` lists, and nothing else. -/
def Writes (storage : Storage) (state : RepositoryState) (step : Step)
    (state' : RepositoryState) : Prop :=
  ∃ candidate attempt trades, Write storage state step candidate attempt trades ∧
    Wrote state state' candidate attempt trades

theorem writes_nothing {step : Step} (h : storage.granted state step = none) :
    Writes storage state step state :=
  ⟨none, none, none, .nothing h, rfl, rfl, rfl, rfl⟩

theorem submit_writes (candidate : StoredCandidate) (dispatch : BacktestDispatch)
    (key : Option String) :
    Writes storage state (.submit candidate dispatch key)
      (storage.createQueuedSubmission state candidate.submitted dispatch key).1 := by
  cases storage with
  | inMemory =>
    simp only [createQueuedSubmission, InMemory.createQueuedSubmission]
    split
    · exact writes_nothing rfl
    · split
      · exact writes_nothing rfl
      · exact ⟨_, _, _, .submitted, rfl, rfl, rfl, rfl⟩
  | postgres =>
    simp only [createQueuedSubmission, Postgres.createQueuedSubmission]
    split
    · exact writes_nothing rfl
    · split
      · exact writes_nothing rfl
      · refine ⟨_, _, _, .submitted, ?_, ?_, ?_, ?_⟩ <;> cases key <;> rfl

theorem claimWorkerAttempt_inMemory (input : WorkerClaimInput) :
    Writes inMemory state (.claimWorkerAttempt input)
      (InMemory.claimWorkerAttempt state input).1 := by
  cases hstored : state.candidates.get? input.candidateId with
  | none =>
    have hclaim : InMemory.claimWorkerAttempt state input = (state, .ok none) := by
      simp only [InMemory.claimWorkerAttempt, hstored]
    rw [hclaim]
    exact writes_nothing (by simp only [granted, claimWorkerAttempt, hclaim])
  | some candidate =>
    by_cases hguard : candidate.queueJobId = input.queueJobId ∧
        InMemory.claimable candidate input.now = true
    · have hclaim := InMemory.claimWorkerAttempt.eq_1 state input
      simp only [hstored, if_pos hguard] at hclaim
      rw [hclaim]
      exact ⟨_, _, _, .claimed hstored hguard.2 hguard.1
        (by simp only [granted, claimWorkerAttempt, hclaim]), rfl, rfl, rfl, rfl⟩
    · have hclaim : InMemory.claimWorkerAttempt state input = (state, .ok none) := by
        simp only [InMemory.claimWorkerAttempt, hstored, if_neg hguard]
      rw [hclaim]
      exact writes_nothing (by simp only [granted, claimWorkerAttempt, hclaim])

theorem claimWorkerAttempt_postgres (input : WorkerClaimInput) :
    Writes postgres state (.claimWorkerAttempt input)
      (Postgres.claimWorkerAttempt state input).1 := by
  cases hstored : state.candidates.get? input.candidateId with
  | none =>
    have hclaim : Postgres.claimWorkerAttempt state input = (state, .ok none) := by
      simp only [Postgres.claimWorkerAttempt, hstored]
    rw [hclaim]
    exact writes_nothing (by simp only [granted, claimWorkerAttempt, hclaim])
  | some candidate =>
    by_cases hguard : candidate.queueJobId = input.queueJobId ∧
        Postgres.claimable candidate input.now = true
    · have hclaim := Postgres.claimWorkerAttempt.eq_1 state input
      simp only [hstored, if_pos hguard] at hclaim
      have hof : attemptOf postgres state input =
          Postgres.attemptNumbered state input.candidateId input.deliveryAttempt := rfl
      cases hnumber : Postgres.attemptNumbered state input.candidateId input.deliveryAttempt with
      | some attempt =>
        rw [hnumber] at hclaim hof
        rw [hclaim]
        refine ⟨_, _, _, .claimed hstored hguard.2 hguard.1
          (by simp only [granted, claimWorkerAttempt, hclaim, Postgres.workerClaimed]), rfl, ?_, rfl,
          rfl⟩
        rw [hof]
        rfl
      | none =>
        rw [hnumber] at hclaim hof
        by_cases hid : (state.attempts.get? input.attemptId).isSome
        · simp only [if_pos hid] at hclaim
          rw [hclaim]
          exact writes_nothing (by simp only [granted, claimWorkerAttempt, hclaim])
        · simp only [if_neg hid] at hclaim
          rw [hclaim]
          refine ⟨_, _, _, .claimed hstored hguard.2 hguard.1
            (by simp only [granted, claimWorkerAttempt, hclaim, Postgres.workerClaimed]), rfl, ?_, rfl,
            rfl⟩
          rw [hof]
          rfl
    · have hclaim : Postgres.claimWorkerAttempt state input = (state, .ok none) := by
        simp only [Postgres.claimWorkerAttempt, hstored, if_neg hguard]
      rw [hclaim]
      exact writes_nothing (by simp only [granted, claimWorkerAttempt, hclaim])

theorem claimWorkerAttempt_writes (input : WorkerClaimInput) :
    Writes storage state (.claimWorkerAttempt input) (storage.claimWorkerAttempt state input).1 := by
  cases storage with
  | inMemory => exact claimWorkerAttempt_inMemory input
  | postgres => exact claimWorkerAttempt_postgres input

theorem persistWorkerSuccess_inMemory (input : WorkerSuccessInput) :
    Writes inMemory state (.persistWorkerSuccess input)
      (InMemory.persistWorkerSuccess state input).1 := by
  unfold InMemory.persistWorkerSuccess
  split
  next candidate attempt hcandidate hattempt =>
    split
    next hfence =>
      have hfenced : Fenced inMemory state input.candidateId input.attemptId input.fenceToken
          candidate attempt := ⟨hcandidate, hattempt, hfence.1, hfence.2, nofun⟩
      have hid : attempt.attemptId = input.attemptId := Table.key_of_get? hattempt
      have howner : ∀ row ∈ (some ⟨attempt.attemptId, input.trades⟩ : Option AttemptTrades),
          row.attemptId = input.attemptId := by
        rintro row ⟨⟩
        exact hid
      by_cases hs : candidate.status = .cancelled
      · simp only [hs, decide_true, if_true]
        exact ⟨_, _, _, .persistedAudit candidate.completionNextRetryAt hfenced hs howner,
          rfl, rfl, rfl, rfl⟩
      · simp only [hs, decide_false, if_false]
        exact ⟨_, _, _, .persisted hfenced hs howner, rfl, rfl, rfl, rfl⟩
    next => exact writes_nothing rfl
  next => exact writes_nothing rfl

theorem failWorkerAttempt_inMemory (input : WorkerFailureInput) :
    Writes inMemory state (.failWorkerAttempt input)
      (InMemory.failWorkerAttempt state input).1 := by
  unfold InMemory.failWorkerAttempt
  split
  next candidate attempt hcandidate hattempt =>
    split
    next hfence =>
      have hfenced : Fenced inMemory state input.candidateId input.attemptId input.fenceToken
          candidate attempt := ⟨hcandidate, hattempt, hfence.1, hfence.2, nofun⟩
      by_cases hs : candidate.status = .cancelled
      · simp only [hs, decide_true, if_true]
        exact ⟨_, _, _, .failedAudit candidate.failureKind candidate.failureCode
          candidate.lastError hfenced hs, rfl, rfl, rfl, rfl⟩
      · simp only [hs, decide_false]
        exact ⟨_, _, _, .failed hfenced hs, rfl, rfl, rfl, rfl⟩
    next => exact writes_nothing rfl
  next => exact writes_nothing rfl

theorem fenced_postgres {candidateId fenceToken : String} {attemptId : AttemptId}
    {candidate : StoredCandidate} {attempt : BacktestAttemptAudit}
    (h : Postgres.fenced state candidateId attemptId fenceToken = some (candidate, attempt)) :
    Fenced postgres state candidateId attemptId fenceToken candidate attempt := by
  unfold Postgres.fenced at h
  split at h
  next found row hcandidate hattempt =>
    split at h
    next hfence =>
      cases h
      exact ⟨hcandidate, hattempt, hfence.1, hfence.2.1, fun _ => hfence.2.2⟩
    next => cases h
  next => cases h

theorem insertTrades_wrote {inserted : RepositoryState} {attemptId : AttemptId}
    {trades : List Trade} (h : Postgres.insertTrades state attemptId trades = .ok inserted) :
    ∃ rows : Option AttemptTrades, (∀ row ∈ rows, row.attemptId = attemptId) ∧
      inserted = { state with trades := state.trades.putOption rows } := by
  unfold Postgres.insertTrades at h
  split at h
  · cases h
    exact ⟨none, fun row hrow => absurd hrow (Option.not_mem_none row), rfl⟩
  · obtain ⟨rows, -, hrows⟩ := bind_eq_ok.mp h
    refine ⟨some ⟨attemptId, rows⟩, ?_, (pure_eq_ok.mp hrows).symm⟩
    rintro row ⟨⟩
    rfl

theorem persistWorkerSuccess_postgres (input : WorkerSuccessInput) :
    Writes postgres state (.persistWorkerSuccess input)
      (Postgres.persistWorkerSuccess state input).1 := by
  unfold Postgres.persistWorkerSuccess
  split
  next => exact writes_nothing rfl
  next candidate attempt hfence =>
    have hfenced := fenced_postgres hfence
    dsimp only
    split
    next => exact writes_nothing rfl
    next inserted hinserted =>
      obtain ⟨rows, howner, rfl⟩ := insertTrades_wrote hinserted
      by_cases hs : candidate.status = .cancelled
      · simp only [hs, decide_true, if_true]
        exact ⟨_, _, _, .persistedAudit none hfenced hs howner, rfl, rfl, rfl, rfl⟩
      · simp only [hs, decide_false, if_false]
        exact ⟨_, _, _, .persisted hfenced hs howner, rfl, rfl, rfl, rfl⟩

theorem failWorkerAttempt_postgres (input : WorkerFailureInput) :
    Writes postgres state (.failWorkerAttempt input)
      (Postgres.failWorkerAttempt state input).1 := by
  unfold Postgres.failWorkerAttempt
  split
  next => exact writes_nothing rfl
  next candidate attempt hfence =>
    have hfenced := fenced_postgres hfence
    by_cases hs : candidate.status = .cancelled
    · simp only [hs, decide_true, if_true]
      exact ⟨_, _, _, .failedAudit none none none hfenced hs, rfl, rfl, rfl, rfl⟩
    · simp only [hs, decide_false]
      exact ⟨_, _, _, .failed hfenced hs, rfl, rfl, rfl, rfl⟩

theorem mem_attemptsOf {candidateId : String} {attempt : BacktestAttemptAudit} :
    attempt ∈ state.attemptsOf candidateId ↔
      state.attempts.get? attempt.attemptId = some attempt ∧ attempt.candidateId = candidateId := by
  unfold RepositoryState.attemptsOf
  rw [List.mem_filter, beq_iff_eq]
  constructor
  · rintro ⟨hmem, howner⟩
    exact ⟨Table.get?_of_mem_rows hmem, howner⟩
  · rintro ⟨hget, howner⟩
    exact ⟨Table.mem_rows_of_get? hget, howner⟩

/-- The attempts of a candidate after an optional write: the one written, and the others. -/
theorem mem_attemptsOf_putOption {state' : RepositoryState} {written : Option BacktestAttemptAudit}
    (hstate : state'.attempts = state.attempts.putOption written) {candidateId : String}
    {attempt : BacktestAttemptAudit} (h : attempt ∈ state'.attemptsOf candidateId) :
    (written = some attempt ∧ attempt.candidateId = candidateId) ∨
      attempt ∈ state.attemptsOf candidateId ∧
        ∀ latest, written = some latest → attempt.attemptId ≠ latest.attemptId := by
  obtain ⟨hget, howner⟩ := mem_attemptsOf.mp h
  rw [hstate] at hget
  cases written with
  | none => exact Or.inr ⟨mem_attemptsOf.mpr ⟨hget, howner⟩, fun _ hlatest => by cases hlatest⟩
  | some latest =>
    rw [Table.putOption_some] at hget
    by_cases hkey : attempt.attemptId = latest.attemptId
    · rw [Table.get?_put_of_eq _ hkey] at hget
      exact Or.inl ⟨hget, howner⟩
    · rw [Table.get?_put_of_ne _ hkey] at hget
      refine Or.inr ⟨mem_attemptsOf.mpr ⟨hget, howner⟩, fun other hother => ?_⟩
      rw [← Option.some.inj hother]
      exact hkey

/-- An attempt of the candidate that is running, or none when none of them is. -/
def PicksRunning (state : RepositoryState) (candidateId : String) :
    Option BacktestAttemptAudit → Prop
  | some attempt => attempt ∈ state.attemptsOf candidateId ∧ attempt.status = .running
  | none => ∀ attempt ∈ state.attemptsOf candidateId, attempt.status ≠ .running

theorem picksRunning_find? (candidateId : String) :
    PicksRunning state candidateId
      ((state.attemptsOf candidateId).find? fun attempt => attempt.status == .running) := by
  cases hfind : (state.attemptsOf candidateId).find? fun attempt => attempt.status == .running with
  | some attempt => exact ⟨List.mem_of_find?_eq_some hfind, by simpa using List.find?_some hfind⟩
  | none => exact fun attempt hmem => by simpa using List.find?_eq_none.mp hfind attempt hmem

theorem picksRunning_inMemory (candidate : StoredCandidate) :
    PicksRunning state candidate.candidateId (InMemory.runningAttempt state candidate) := by
  unfold InMemory.runningAttempt
  dsimp only
  cases hfind : (state.attemptsOf candidate.candidateId).find? fun attempt =>
      attempt.status == .running && some attempt.attemptNumber == candidate.activeAttemptNumber with
  | some attempt =>
    have hrunning := List.find?_some hfind
    rw [Bool.and_eq_true] at hrunning
    exact ⟨List.mem_of_find?_eq_some hfind, by simpa using hrunning.1⟩
  | none => exact picksRunning_find? candidate.candidateId

theorem picksRunning_postgres (candidateId : String) :
    PicksRunning state candidateId (Postgres.runningAttempt state candidateId) := by
  have hmem : ∀ attempt, attempt ∈ ((state.attemptsOf candidateId).filter fun attempt =>
      attempt.status == .running).insertionSort (fun left right =>
        right.attemptNumber ≤ left.attemptNumber) ↔
      attempt ∈ state.attemptsOf candidateId ∧ attempt.status = .running := fun attempt => by
    rw [List.mem_insertionSort, List.mem_filter, beq_iff_eq]
  unfold Postgres.runningAttempt
  cases hsorted : ((state.attemptsOf candidateId).filter fun attempt =>
      attempt.status == .running).insertionSort fun left right =>
        right.attemptNumber ≤ left.attemptNumber with
  | nil =>
    intro attempt hattempt hrunning
    have hin := (hmem attempt).mpr ⟨hattempt, hrunning⟩
    rw [hsorted] at hin
    cases hin
  | cons attempt rest =>
    refine (hmem attempt).mp ?_
    rw [hsorted]
    exact List.mem_cons_self

theorem failRunning_wrote {candidate : StoredCandidate} {candidateId : String}
    {running : Option BacktestAttemptAudit} (hid : candidate.candidateId = candidateId)
    (hpick : PicksRunning state candidateId running) (now : Int) (error : String) :
    ∃ attempt, RunningFailed state candidate now error attempt ∧
      state.failRunning candidate running now error =
        { state with attempts := state.attempts.putOption attempt } := by
  subst hid
  cases running with
  | some attempt =>
    obtain ⟨hmem, hrunning⟩ := hpick
    obtain ⟨hget, howner⟩ := mem_attemptsOf.mp hmem
    exact ⟨_, .found attempt hget howner hrunning, rfl⟩
  | none =>
    by_cases hempty : state.attemptsOf candidate.candidateId = []
    · refine ⟨_, .madeUp hempty, ?_⟩
      simp only [RepositoryState.failRunning, hempty]
      rfl
    · refine ⟨_, .finished hpick, ?_⟩
      simp only [RepositoryState.failRunning, List.isEmpty_iff, hempty]
      rfl

theorem redispatch_inMemory (state : RepositoryState) (jobId : String) (now : Int)
    (error : String) : Wrote state (InMemory.redispatch state jobId now error) none none none := by
  unfold InMemory.redispatch
  split
  · exact ⟨rfl, rfl, rfl, rfl⟩
  · split <;> exact ⟨rfl, rfl, rfl, rfl⟩

theorem redispatch_postgres (state : RepositoryState) (candidateId : String) (now : Int)
    (error : String) :
    Wrote state (Postgres.redispatch state candidateId now error) none none none := by
  unfold Postgres.redispatch
  split
  · exact ⟨rfl, rfl, rfl, rfl⟩
  · split <;> exact ⟨rfl, rfl, rfl, rfl⟩

theorem recovered_writes {candidateId error : String} {now : Int} {candidate : StoredCandidate}
    {attempt : Option BacktestAttemptAudit} {again : RepositoryState → RepositoryState}
    (hstored : state.candidates.get? candidateId = some candidate)
    (hs : candidate.status = .backtesting)
    (hfailed : RunningFailed state candidate now error attempt) (retrying : Bool)
    (hsame : ∀ state, Wrote state (again state) none none none) :
    let updated := { state with attempts := state.attempts.putOption attempt }.putCandidate
      (candidate.recovered retrying now error)
    Writes storage state (.recoverAbandonedAttempt candidateId now error)
      (if retrying = true then again updated else updated) := by
  intro updated
  refine ⟨_, _, _, .recovered retrying hstored hs hfailed, ?_⟩
  have hagain := hsame updated
  cases retrying with
  | false => exact ⟨rfl, rfl, rfl, rfl⟩
  | true => exact ⟨hagain.candidates, hagain.attempts, hagain.trades, hagain.experiments⟩

theorem recoverAbandonedAttempt_writes (candidateId : String) (now : Int) (error : String) :
    Writes storage state (.recoverAbandonedAttempt candidateId now error)
      (storage.recoverAbandonedAttempt state candidateId now error).1 := by
  cases storage with
  | inMemory =>
    simp only [recoverAbandonedAttempt, InMemory.recoverAbandonedAttempt]
    split
    next => exact writes_nothing rfl
    next candidate hstored =>
      split
      next hguard =>
        obtain ⟨attempt, hfailed, hstate⟩ :=
          failRunning_wrote rfl (picksRunning_inMemory candidate) now error
        rw [hstate]
        exact recovered_writes hstored hguard.1 hfailed _ fun state =>
          redispatch_inMemory state candidate.queueJobId now error
      next => exact writes_nothing rfl
  | postgres =>
    simp only [recoverAbandonedAttempt, Postgres.recoverAbandonedAttempt]
    split
    next => exact writes_nothing rfl
    next candidate hstored =>
      split
      next hguard =>
        have hid : candidate.candidateId = candidateId := Table.key_of_get? hstored
        obtain ⟨attempt, hfailed, hstate⟩ :=
          failRunning_wrote hid (picksRunning_postgres candidateId) now error
        rw [hstate]
        exact recovered_writes hstored hguard.1 hfailed _ fun state =>
          redispatch_postgres state candidateId now error
      next => exact writes_nothing rfl

theorem repairTerminalQueueFailure_writes (candidateId error : String) (now : Int) :
    Writes storage state (.repairTerminalQueueFailure candidateId error now)
      (storage.repairTerminalQueueFailure state candidateId error now).1 := by
  cases storage with
  | inMemory =>
    simp only [repairTerminalQueueFailure, InMemory.repairTerminalQueueFailure]
    split
    next => exact writes_nothing rfl
    next candidate hstored =>
      split
      next => exact writes_nothing rfl
      next hopen =>
        have hid : candidate.candidateId = candidateId := Table.key_of_get? hstored
        obtain ⟨attempt, hfailed, hstate⟩ :=
          failRunning_wrote hid (picksRunning_find? candidateId) now error
        rw [hstate]
        refine ⟨_, _, _, .repaired hstored ?_ (fun _ => rfl) hfailed, rfl, rfl, rfl, rfl⟩
        rwa [not_or, Bool.not_eq_true] at hopen
  | postgres =>
    simp only [repairTerminalQueueFailure, Postgres.repairTerminalQueueFailure]
    split
    next => exact writes_nothing rfl
    next candidate hstored =>
      split
      next => exact writes_nothing rfl
      next hopen =>
        have hid : candidate.candidateId = candidateId := Table.key_of_get? hstored
        obtain ⟨attempt, hfailed, hstate⟩ :=
          failRunning_wrote hid (picksRunning_postgres candidateId) now error
        rw [hstate]
        split
        next hbefore =>
          refine ⟨_, _, _, .repaired hstored ?_ ?_ hfailed, rfl, rfl, rfl, rfl⟩
          · rwa [not_or, Bool.not_eq_true] at hopen
          · intro hs
            simp [hs] at hbefore
        next hlate =>
          rw [not_or, not_or] at hlate
          exact ⟨_, _, _, .repairedAttempt hstored hlate hfailed, rfl, rfl, rfl, rfl⟩

theorem claimCompletion_writes (candidateId claimToken : String) (now leaseExpiresAt : Int) :
    Writes storage state (.claimCompletion candidateId claimToken now leaseExpiresAt)
      (storage.claimCompletion state candidateId claimToken now leaseExpiresAt).1 := by
  cases storage <;>
  · simp only [claimCompletion, InMemory.claimCompletion, Postgres.claimCompletion]
    split
    next => exact writes_nothing rfl
    next candidate hstored =>
      split
      next hguard =>
        exact ⟨_, _, _, .completionClaimed hstored hguard.1 hguard.2, rfl, rfl, rfl, rfl⟩
      next => exact writes_nothing rfl

theorem completionFence_eq_true {candidate copy : StoredCandidate} {claimToken : String} {now : Int}
    (hstored : state.candidates.get? copy.candidateId = some candidate)
    (h : candidate.completionFence copy claimToken now = true) :
    CompletionFenced state copy claimToken now candidate := by
  unfold StoredCandidate.completionFence at h
  rw [Bool.and_eq_true, Bool.and_eq_true, beq_iff_eq, beq_iff_eq, Option.any_eq_true] at h
  obtain ⟨⟨htoken, hgeneration⟩, lease, hlease, hnow⟩ := h
  exact ⟨hstored, htoken, hgeneration, lease, hlease, of_decide_eq_true hnow⟩

theorem fencedWrite_writes {copy : StoredCandidate} {claimToken : String} {now : Int}
    {allowed : CandidateStatus → Bool} {write : StoredCandidate → StoredCandidate} {step : Step}
    (hg : storage.granted state step = none)
    (hw : ∀ candidate, allowed candidate.status = true →
      CompletionFenced state copy claimToken now candidate →
      Write storage state step (some (write candidate)) none none) :
    Writes storage state step (state.fencedWrite copy claimToken now allowed write).1 := by
  unfold RepositoryState.fencedWrite
  split
  next candidate hstored =>
    split
    next hguard =>
      exact ⟨_, _, _, hw candidate hguard.1 (completionFence_eq_true hstored hguard.2),
        rfl, rfl, rfl, rfl⟩
    next => exact writes_nothing hg
  next => exact writes_nothing hg

theorem finalizeCompletion_writes (copy : StoredCandidate) (experimentId claimToken : String)
    (now : Int) :
    Writes storage state (.finalizeCompletion copy experimentId claimToken now)
      (storage.finalizeCompletion state copy experimentId claimToken now).1 := by
  cases storage <;>
    exact fencedWrite_writes rfl fun candidate hs hfence =>
      .completionFinalized hfence (beq_iff_eq.mp hs)

theorem finalizeTerminalFailure_writes (copy : StoredCandidate) (claimToken : String) (now : Int) :
    Writes storage state (.finalizeTerminalFailure copy claimToken now)
      (storage.finalizeTerminalFailure state copy claimToken now).1 := by
  cases storage <;>
    exact fencedWrite_writes rfl fun candidate hs hfence =>
      .terminalFailureFinalized hfence (beq_iff_eq.mp hs)

theorem failCompletion_writes (copy : StoredCandidate) (claimToken : String) (retryAt : Option Int)
    (now : Int) (error : String) :
    Writes storage state (.failCompletion copy claimToken retryAt now error)
      (storage.failCompletion state copy claimToken retryAt now error).1 := by
  cases storage with
  | inMemory =>
    exact fencedWrite_writes rfl fun candidate _ hfence =>
      .completionFailed hfence (Or.inl rfl)
  | postgres =>
    exact fencedWrite_writes rfl fun candidate _ hfence =>
      .completionFailed hfence (Or.inr rfl)

theorem cancel_writes (copy : StoredCandidate) (now : Int) :
    Writes storage state (.cancel copy now)
      (storage.updateCandidate state (copy.cancelledAt now)) := by
  cases storage with
  | inMemory => exact ⟨_, _, _, .cancelled copy rfl (Or.inl rfl), rfl, rfl, rfl, rfl⟩
  | postgres =>
    simp only [updateCandidate, Postgres.updateCandidate]
    split
    next => exact writes_nothing rfl
    next candidate hstored =>
      exact ⟨_, _, _, .cancelled candidate (Table.key_of_get? hstored) (Or.inr hstored),
        rfl, rfl, rfl, rfl⟩

theorem markDispatchCancelled_writes (jobId : String) (now : Int) :
    Writes storage state (.markDispatchCancelled jobId now)
      (storage.markDispatchCancelled state jobId now) := by
  cases storage <;>
  · simp only [markDispatchCancelled, InMemory.markDispatchCancelled, Postgres.markDispatchCancelled]
    split
    · exact writes_nothing rfl
    · exact ⟨_, _, _, .nothing rfl, rfl, rfl, rfl, rfl⟩

/-- Every step writes what `Write` lists, in both repositories. -/
theorem apply_writes (storage : Storage) (state : RepositoryState) (step : Step) :
    Writes storage state step (storage.apply state step) := by
  cases step with
  | tick now => exact writes_nothing rfl
  | submit candidate dispatch key => exact submit_writes candidate dispatch key
  | read candidateId => exact writes_nothing rfl
  | claimWorkerAttempt input => exact claimWorkerAttempt_writes input
  | persistWorkerSuccess input =>
    cases storage with
    | inMemory => exact persistWorkerSuccess_inMemory input
    | postgres => exact persistWorkerSuccess_postgres input
  | failWorkerAttempt input =>
    cases storage with
    | inMemory => exact failWorkerAttempt_inMemory input
    | postgres => exact failWorkerAttempt_postgres input
  | recoverAbandonedAttempt candidateId now error =>
    exact recoverAbandonedAttempt_writes candidateId now error
  | repairTerminalQueueFailure candidateId error now =>
    exact repairTerminalQueueFailure_writes candidateId error now
  | claimCompletion candidateId claimToken now leaseExpiresAt =>
    exact claimCompletion_writes candidateId claimToken now leaseExpiresAt
  | finalizeCompletion copy experimentId claimToken now =>
    exact finalizeCompletion_writes copy experimentId claimToken now
  | finalizeTerminalFailure copy claimToken now =>
    exact finalizeTerminalFailure_writes copy claimToken now
  | failCompletion copy claimToken retryAt now error =>
    exact failCompletion_writes copy claimToken retryAt now error
  | cancel copy now => exact cancel_writes copy now
  | markDispatchCancelled jobId now => exact markDispatchCancelled_writes jobId now

/-- The row of a candidate after a step: the one the step wrote, or the one before. -/
theorem stored_next_cases (storage : Storage) (world : World) (step : Step) (candidateId : String) :
    (∃ row attempt trades, Write storage world.repository step (some row) attempt trades ∧
      row.candidateId = candidateId ∧ (storage.next world step).stored candidateId = some row) ∨
      (storage.next world step).stored candidateId = world.stored candidateId := by
  obtain ⟨candidate, attempt, trades, hwrite, hwrote⟩ := apply_writes storage world.repository step
  have hstored : (storage.next world step).stored candidateId =
      (world.repository.candidates.putOption candidate).get? candidateId := by
    rw [← hwrote.candidates]
    rfl
  rw [hstored]
  rcases Table.get?_putOption_cases world.repository.candidates candidate candidateId with
    ⟨row, rfl, hid, hrow⟩ | hsame
  · exact Or.inl ⟨row, attempt, trades, hwrite, hid, hrow⟩
  · exact Or.inr hsame

/-- A property of every stored row is kept by a step whose row has it. -/
theorem rows_next {P : StoredCandidate → Prop} {storage : Storage} {world : World} {step : Step}
    (hrows : ∀ candidateId candidate, world.stored candidateId = some candidate → P candidate)
    (hwrite : ∀ row attempt trades,
      Write storage world.repository step (some row) attempt trades → P row)
    (candidateId : String) (candidate : StoredCandidate)
    (h : (storage.next world step).stored candidateId = some candidate) : P candidate := by
  rcases stored_next_cases storage world step candidateId with
    ⟨row, attempt, trades, hw, -, hrow⟩ | hsame
  · rw [hrow] at h
    cases h
    exact hwrite _ attempt trades hw
  · rw [hsame] at h
    exact hrows candidateId candidate h

/-- A property of every stored row holds of every row read. -/
theorem copies_next {P : StoredCandidate → Prop} {storage : Storage} {world : World} {step : Step}
    (hrows : ∀ candidateId candidate, world.stored candidateId = some candidate → P candidate)
    (hcopies : ∀ copy ∈ world.copies, P copy) :
    ∀ copy ∈ (storage.next world step).copies, P copy := by
  intro copy hmem
  rcases List.mem_append.mp hmem with hseen | hold
  · cases step with
    | read candidateId => exact hrows candidateId copy (Option.mem_toList.mp hseen)
    | _ => cases hseen
  · exact hcopies copy hold

theorem stored_isSome_next {storage : Storage} {world : World} {step : Step} {candidateId : String}
    (h : (world.stored candidateId).isSome) :
    ((storage.next world step).stored candidateId).isSome := by
  rcases stored_next_cases storage world step candidateId with ⟨row, -, -, -, -, hrow⟩ | hsame
  · rw [hrow]
    rfl
  · rw [hsame]
    exact h

end Storage

end Cryptox.Backtesting
