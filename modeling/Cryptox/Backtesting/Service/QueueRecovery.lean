import Cryptox.Library.StableSort
import Cryptox.Backtesting.Repository.Replays
import Cryptox.Backtesting.Service.SealedPolicy

/-!
# Queue recovery

`reconcileQueue`: candidates whose worker let its lease expire are recovered, pending dispatches go
to the queue, and so do the replay verifications nobody works on.
-/
namespace Cryptox.Backtesting

open Cryptox.Library

/-- A worker holds the candidate, and its lease has run out. -/
def StoredCandidate.abandoned (candidate : StoredCandidate) (now : Int) : Bool :=
  candidate.status == .backtesting && candidate.activeLeaseExpiresAt.any (· ≤ now)

/-- The statuses that recovery looks at. -/
def recoverable : CandidateStatus → Bool
  | .queued | .backtesting | .retryWait => true
  | _ => false

/-- Candidates of any recoverable status, the row written longest ago first. -/
def InMemory.listQueueRecoveryCandidates (state : RepositoryState) (limit : Nat) : List String :=
  (((state.candidates.rows.filter fun candidate => recoverable candidate.status).insertionSort
    fun left right => left.updatedAt ≤ right.updatedAt).take limit).map (·.candidateId)

def InMemory.listPendingDispatches (state : RepositoryState) (limit : Nat) :
    List BacktestDispatch :=
  ((state.dispatches.rows.filter fun dispatch => dispatch.state == .pending).insertionSort
    fun left right => left.createdAt ≤ right.createdAt).take limit

/-- Rows that were written at one instant come in the order in which they are read. -/
def Postgres.listQueueRecoveryCandidates (scan : ScanOrder) (state : RepositoryState)
    (limit : Nat) : List String :=
  ((((scan.candidates state.candidates.rows).filter fun candidate =>
    recoverable candidate.status).insertionSort
      fun left right => left.updatedAt ≤ right.updatedAt).take limit).map (·.candidateId)

def Postgres.listPendingDispatches (scan : ScanOrder) (state : RepositoryState) (limit : Nat) :
    List BacktestDispatch :=
  (((scan.dispatches state.dispatches.rows).filter fun dispatch =>
    dispatch.state == .pending).insertionSort
      fun left right => left.createdAt ≤ right.createdAt).take limit

def Storage.listQueueRecoveryCandidates :
    Storage → Postgres.ScanOrder → RepositoryState → Nat → List String
  | inMemory, _ => InMemory.listQueueRecoveryCandidates
  | postgres, scan => Postgres.listQueueRecoveryCandidates scan

def Storage.listPendingDispatches :
    Storage → Postgres.ScanOrder → RepositoryState → Nat → List BacktestDispatch
  | inMemory, _ => InMemory.listPendingDispatches
  | postgres, scan => Postgres.listPendingDispatches scan

def InMemory.listReplayVerificationRecovery (replays : ReplayTable) (now : Int) (limit : Nat) :
    List String :=
  (((replays.rows.filter fun replay => replay.waiting now).insertionSort
    fun left right => left.requestedAt ≤ right.requestedAt).take limit).map (·.replayJobId)

/-- Of two requested at one instant the smaller id comes first. -/
def Postgres.listReplayVerificationRecovery (replays : ReplayTable) (now : Int) (limit : Nat) :
    List String :=
  (((replays.rows.filter fun replay => replay.waiting now).insertionSort
    fun left right => left.requestedAt < right.requestedAt ∨
      left.requestedAt = right.requestedAt ∧ left.replayJobId ≤ right.replayJobId).take limit).map
    (·.replayJobId)

def Storage.listReplayVerificationRecovery : Storage → ReplayTable → Int → Nat → List String
  | inMemory => InMemory.listReplayVerificationRecovery
  | postgres => Postgres.listReplayVerificationRecovery

structure ReplayVerificationJob where
  replayJobId : String
  experimentId : String
  mismatchSampleLimit : Nat
  requestedAt : Int
deriving DecidableEq, Repr

def StoredReplayVerification.queueJob (replay : StoredReplayVerification) : ReplayVerificationJob :=
  ⟨replay.replayJobId, replay.experimentId, replay.mismatchSampleLimit, replay.requestedAt⟩

/-- What a recovery runs with. The clock is read again for every dispatch, and a database reads its
rows in an order of its own. -/
structure RecoveryPorts where
  deps : Dependencies
  enqueueReplay : ReplayVerificationJob → Except String Unit
  dispatchedAt : String → Int
  scan : Postgres.ScanOrder

/-- What a recovery leaves, and the jobs that the queue took. -/
structure Recovery where
  repository : RepositoryState
  sent : List BacktestQueueJob

structure ReconcileSummary where
  dispatched : Nat
  pending : Int
deriving DecidableEq, Repr

def leaseExpired : String := "BACKTEST_WORKER_LEASE_EXPIRED"

section

variable (storage : Storage) (ports : RecoveryPorts)

/-- One turn of the first loop, over a listed candidate. -/
def recoverListed (now : Int) (state : RepositoryState) (candidateId : String) : RepositoryState :=
  match state.candidates.get? candidateId with
  | none => state
  | some candidate =>
    if candidate.abandoned now then
      (storage.recoverAbandonedAttempt state candidateId now leaseExpired).1
    else state

/-- `dispatchOne` has answered `true`. -/
def taken (dispatch : BacktestDispatch) : Bool :=
  dispatch.state == .pending && (ports.deps.enqueue dispatch.job).toBool

/-- One turn of the second loop, over a dispatch that was pending. -/
def dispatchListed (run : Recovery) (dispatch : BacktestDispatch) : Recovery where
  repository :=
    dispatchOne ports.deps storage run.repository dispatch (ports.dispatchedAt dispatch.jobId)
  sent := if taken ports dispatch then run.sent ++ [dispatch.job] else run.sent

/-- The replays that the queue takes, of those listed. -/
def resentReplays (replays : ReplayTable) (replayJobIds : List String) : List String :=
  replayJobIds.filter fun replayJobId => (replays.get? replayJobId).any fun replay =>
    (ports.enqueueReplay replay.queueJob).toBool

def reconcileQueue (state : RepositoryState) (replays : ReplayTable) (now : Int) (limit : JsNumber) :
    Except String (Recovery × ReconcileSummary) := do
  throwIf (!limit.isInteger || limit.lt (.ofInt 1)) "INVALID_QUEUE_RECOVERY_LIMIT"
  let recovered := (storage.listQueueRecoveryCandidates ports.scan state limit.toNat).foldl
    (recoverListed storage now) state
  let pending := storage.listPendingDispatches ports.scan recovered limit.toNat
  let run := pending.foldl (dispatchListed storage ports) ⟨recovered, []⟩
  let resent := resentReplays ports replays
    (storage.listReplayVerificationRecovery replays now limit.toNat)
  let dispatched := run.sent.length + resent.length
  return (run, ⟨dispatched, pending.length - dispatched⟩)

end

/-- The dispatch that recovery finds for a candidate. -/
def Storage.dispatchOf (storage : Storage) (state : RepositoryState) (candidate : StoredCandidate) :
    Option BacktestDispatch :=
  match storage with
  | inMemory => state.dispatches.get? candidate.queueJobId
  | postgres => state.dispatches.rows.find? fun dispatch =>
      dispatch.candidateId == candidate.candidateId

/-- The running attempt whose number stands in for an active attempt number that is missing. -/
def Storage.runningOf (storage : Storage) (state : RepositoryState) (candidateId : String) :
    Option BacktestAttemptAudit :=
  match storage with
  | inMemory => (state.attemptsOf candidateId).find? fun attempt => attempt.status == .running
  | postgres => Postgres.runningAttempt state candidateId

/-- The number of the attempt that recovery gives up. -/
def Storage.abandonedNumber (storage : Storage) (state : RepositoryState)
    (candidate : StoredCandidate) : Nat :=
  candidate.activeAttemptNumber.getD
    (((storage.runningOf state candidate.candidateId).map (·.attemptNumber)).getD candidate.maxAttempts)

/-- The active attempt number leaves another attempt. -/
def StoredCandidate.hasRetry (candidate : StoredCandidate) : Bool :=
  candidate.activeAttemptNumber.any (· < candidate.maxAttempts)

section Dispatches

/-- Dispatches are rewritten in place for their own jobs, each as `R` says. -/
structure Redispatched (R : BacktestDispatch → BacktestDispatch → Prop)
    (before after : Table BacktestDispatch.jobId) : Prop where
  jobs : after.rows.map (·.job) = before.rows.map (·.job)
  related : ∀ jobId, Option.Rel R (before.get? jobId) (after.get? jobId)

namespace Redispatched

variable {R S T : BacktestDispatch → BacktestDispatch → Prop}
  {before between after : Table BacktestDispatch.jobId}

theorem refl (hR : ∀ dispatch, R dispatch dispatch) (table : Table BacktestDispatch.jobId) :
    Redispatched R table table := by
  refine ⟨rfl, fun jobId => ?_⟩
  cases table.get? jobId with
  | none => exact .none
  | some dispatch => exact .some (hR dispatch)

theorem trans (h : Redispatched R before between) (h' : Redispatched S between after)
    (hT : ∀ first second third, R first second → S second third → T first third) :
    Redispatched T before after := by
  refine ⟨h'.jobs.trans h.jobs, fun jobId => ?_⟩
  have hfirst := h.related jobId
  have hsecond := h'.related jobId
  revert hfirst hsecond
  generalize before.get? jobId = first
  generalize between.get? jobId = second
  generalize after.get? jobId = third
  intro hfirst hsecond
  cases hfirst with
  | none =>
    cases hsecond
    exact .none
  | some hrelated =>
    cases hsecond with
    | some hrelated' => exact .some (hT _ _ _ hrelated hrelated')

theorem put (hR : ∀ dispatch, R dispatch dispatch) {dispatch written : BacktestDispatch}
    (hstored : before.get? dispatch.jobId = some dispatch) (hjob : written.job = dispatch.job)
    (hrelated : R dispatch written) : Redispatched R before (before.put written) := by
  have hkey : written.jobId = dispatch.jobId := by
    rw [BacktestDispatch.jobId, hjob, BacktestDispatch.jobId]
  rw [← hkey] at hstored
  constructor
  · have hjobs := Table.filterMap_put hstored (fun row => some row.job) (congrArg some hjob)
    rw [← List.filterMap_eq_map']
    exact hjobs
  · intro jobId
    rw [Table.get?_put]
    by_cases hid : jobId = written.jobId
    · rw [if_pos hid, hid, hstored]
      exact .some hrelated
    · rw [if_neg hid]
      exact ((refl hR before).related jobId)

/-- The dispatch found by its candidate is the one of the first job of that candidate. -/
theorem find?_candidate (table : Table BacktestDispatch.jobId) (candidateId : String) :
    (table.rows.find? fun dispatch => dispatch.candidateId == candidateId) =
      ((table.rows.map (·.job)).find? fun job => job.candidateId == candidateId).bind
        fun job => table.get? job.jobId := by
  rw [List.find?_map]
  cases hfind : table.rows.find? fun dispatch => dispatch.candidateId == candidateId with
  | none =>
    have hnone : table.rows.find? ((fun job => job.candidateId == candidateId) ∘ (·.job)) = none :=
      hfind
    rw [hnone]
    rfl
  | some dispatch =>
    have hsome : table.rows.find? ((fun job => job.candidateId == candidateId) ∘ (·.job)) =
        some dispatch := hfind
    rw [hsome]
    exact (Table.get?_of_mem_rows (List.mem_of_find?_eq_some hfind)).symm

theorem dispatchOf {state state' : RepositoryState}
    (h : Redispatched R state.dispatches state'.dispatches) (storage : Storage)
    (candidate : StoredCandidate) :
    Option.Rel R (storage.dispatchOf state candidate) (storage.dispatchOf state' candidate) := by
  cases storage with
  | inMemory => exact h.related candidate.queueJobId
  | postgres =>
    simp only [Storage.dispatchOf, find?_candidate, h.jobs]
    cases (state.dispatches.rows.map (·.job)).find? fun job =>
        job.candidateId == candidate.candidateId with
    | none => exact .none
    | some job => exact h.related job.jobId

theorem dispatchOf_some {state state' : RepositoryState}
    (h : Redispatched R state.dispatches state'.dispatches) {storage : Storage}
    {candidate : StoredCandidate} {dispatch : BacktestDispatch}
    (hfound : storage.dispatchOf state candidate = some dispatch) :
    ∃ row, storage.dispatchOf state' candidate = some row ∧ R dispatch row := by
  have hrelated := h.dispatchOf storage candidate
  rw [hfound] at hrelated
  generalize storage.dispatchOf state' candidate = found at hrelated
  cases hrelated with
  | @some _ row hrow => exact ⟨row, rfl, hrow⟩

theorem dispatchOf_none {state state' : RepositoryState}
    (h : Redispatched R state.dispatches state'.dispatches) {storage : Storage}
    {candidate : StoredCandidate} (hnone : storage.dispatchOf state candidate = none) :
    storage.dispatchOf state' candidate = none := by
  have hrelated := h.dispatchOf storage candidate
  rw [hnone] at hrelated
  generalize storage.dispatchOf state' candidate = found at hrelated
  cases hrelated
  rfl

/-- What is found for a candidate afterwards is the same row, rewritten. -/
theorem dispatchOf_of_get? {state state' : RepositoryState}
    (h : Redispatched R state.dispatches state'.dispatches) {storage : Storage}
    {candidate : StoredCandidate} {dispatch written : BacktestDispatch}
    (hfound : storage.dispatchOf state candidate = some dispatch)
    (hget : state'.dispatches.get? dispatch.jobId = some written) :
    storage.dispatchOf state' candidate = some written := by
  cases storage with
  | inMemory =>
    have hkey : dispatch.jobId = candidate.queueJobId := Table.key_of_get? hfound
    rw [hkey] at hget
    exact hget
  | postgres =>
    simp only [Storage.dispatchOf, find?_candidate] at hfound ⊢
    rw [h.jobs]
    obtain ⟨job, hjob, hstored⟩ := Option.bind_eq_some_iff.mp hfound
    rw [hjob, Option.bind_some, ← Table.key_of_get? hstored]
    exact hget

end Redispatched

/-- A dispatch is left alone, or made pending again unless it was cancelled. -/
def MadePending (before after : BacktestDispatch) : Prop :=
  after = before ∨
    before.state ≠ .cancelled ∧ after.state = .pending ∧ after.job = before.job

theorem MadePending.refl (dispatch : BacktestDispatch) : MadePending dispatch dispatch := .inl rfl

theorem MadePending.trans {first second third : BacktestDispatch} (h : MadePending first second)
    (h' : MadePending second third) : MadePending first third := by
  rcases h with rfl | ⟨hstate, hpending, hjob⟩
  · exact h'
  · rcases h' with rfl | ⟨-, hpending', hjob'⟩
    · exact .inr ⟨hstate, hpending, hjob⟩
    · exact .inr ⟨hstate, hpending', hjob'.trans hjob⟩

def BacktestDispatch.again (dispatch : BacktestDispatch) (now : Int) (error : String) :
    BacktestDispatch :=
  { dispatch with state := .pending, lastError := some error, updatedAt := now }

/-- A candidate's dispatch is made pending again, found as each repository finds it. -/
def Storage.redispatch (storage : Storage) (state : RepositoryState) (candidate : StoredCandidate)
    (now : Int) (error : String) : RepositoryState :=
  match storage.dispatchOf state candidate with
  | none => state
  | some dispatch =>
    if dispatch.state = .cancelled then state else state.putDispatch (dispatch.again now error)

theorem Storage.stored_of_dispatchOf {storage : Storage} {state : RepositoryState}
    {candidate : StoredCandidate} {dispatch : BacktestDispatch}
    (h : storage.dispatchOf state candidate = some dispatch) :
    state.dispatches.get? dispatch.jobId = some dispatch := by
  cases storage with
  | inMemory => exact Table.get?_key h
  | postgres => exact Table.get?_of_mem_rows (List.mem_of_find?_eq_some h)

theorem redispatch_redispatched (storage : Storage) (state : RepositoryState)
    (candidate : StoredCandidate) (now : Int) (error : String) :
    Redispatched MadePending state.dispatches
      (storage.redispatch state candidate now error).dispatches := by
  unfold Storage.redispatch
  split
  next => exact .refl .refl state.dispatches
  next dispatch hfound =>
    split
    next => exact .refl .refl state.dispatches
    next hstate =>
      exact .put .refl (Storage.stored_of_dispatchOf hfound) rfl (.inr ⟨hstate, rfl, rfl⟩)

theorem dispatchOf_redispatch {storage : Storage} {state : RepositoryState}
    {candidate : StoredCandidate} {dispatch : BacktestDispatch}
    (hfound : storage.dispatchOf state candidate = some dispatch)
    (hstate : dispatch.state ≠ .cancelled) (now : Int) (error : String) :
    storage.dispatchOf (storage.redispatch state candidate now error) candidate =
      some (dispatch.again now error) := by
  refine (redispatch_redispatched storage state candidate now error).dispatchOf_of_get? hfound ?_
  simp only [Storage.redispatch, hfound, if_neg hstate]
  exact Table.get?_put_of_eq _ rfl

end Dispatches

section Recovering

variable {storage : Storage} {state : RepositoryState} {candidateId : String}
  {candidate : StoredCandidate} {now : Int} {error : String}

/-- The attempt that recovery fails. -/
def Storage.failedOf (storage : Storage) (state : RepositoryState) (candidate : StoredCandidate) :
    Option BacktestAttemptAudit :=
  match storage with
  | inMemory => InMemory.runningAttempt state candidate
  | postgres => Postgres.runningAttempt state candidate.candidateId

theorem StoredCandidate.abandoned_iff : candidate.abandoned now = true ↔
    candidate.status = .backtesting ∧ candidate.activeLeaseExpiresAt.any (· ≤ now) = true := by
  rw [StoredCandidate.abandoned, Bool.and_eq_true, beq_iff_eq]

/-- Recovery as one text for both repositories. -/
theorem recoverAbandonedAttempt_eq (hstored : state.candidates.get? candidateId = some candidate)
    (habandoned : candidate.abandoned now = true) :
    (storage.recoverAbandonedAttempt state candidateId now error).1 =
      let retrying : Bool := storage.abandonedNumber state candidate < candidate.maxAttempts
      let updated :=
        (state.failRunning candidate (storage.failedOf state candidate) now error).putCandidate
          (candidate.recovered retrying now error)
      if retrying then storage.redispatch updated candidate now error else updated := by
  have hguard := StoredCandidate.abandoned_iff.mp habandoned
  obtain rfl := Table.key_of_get? hstored
  cases storage with
  | inMemory =>
    simp only [Storage.recoverAbandonedAttempt, InMemory.recoverAbandonedAttempt, hstored,
      if_pos hguard]
    rfl
  | postgres =>
    simp only [Storage.recoverAbandonedAttempt, Postgres.recoverAbandonedAttempt, hstored,
      if_pos hguard]
    rfl

theorem failRunning_parts (state : RepositoryState) (candidate : StoredCandidate)
    (running : Option BacktestAttemptAudit) (now : Int) (error : String) :
    ∃ attempts, state.failRunning candidate running now error = { state with attempts } := by
  unfold RepositoryState.failRunning
  split
  · exact ⟨_, rfl⟩
  · split
    · exact ⟨_, rfl⟩
    · exact ⟨state.attempts, rfl⟩

theorem redispatch_parts (storage : Storage) (state : RepositoryState) (candidate : StoredCandidate)
    (now : Int) (error : String) :
    ∃ dispatches, storage.redispatch state candidate now error = { state with dispatches } := by
  unfold Storage.redispatch
  split
  · exact ⟨state.dispatches, rfl⟩
  · split
    · exact ⟨state.dispatches, rfl⟩
    · exact ⟨_, rfl⟩

theorem dispatchOf_congr {state' : RepositoryState} (h : state'.dispatches = state.dispatches)
    (storage : Storage) (candidate : StoredCandidate) :
    storage.dispatchOf state' candidate = storage.dispatchOf state candidate := by
  cases storage <;> rw [Storage.dispatchOf, Storage.dispatchOf, h]

variable (storage error) (hstored : state.candidates.get? candidateId = some candidate)
  (habandoned : candidate.abandoned now = true)

include hstored habandoned

theorem recoverAbandonedAttempt_candidates :
    (storage.recoverAbandonedAttempt state candidateId now error).1.candidates =
      state.candidates.put (candidate.recovered
        (storage.abandonedNumber state candidate < candidate.maxAttempts) now error) := by
  rw [recoverAbandonedAttempt_eq hstored habandoned]
  obtain ⟨attempts, hfailed⟩ :=
    failRunning_parts state candidate (storage.failedOf state candidate) now error
  dsimp only
  rw [hfailed]
  split
  next =>
    obtain ⟨dispatches, hagain⟩ := redispatch_parts storage
      (RepositoryState.putCandidate { state with attempts } (candidate.recovered
        (storage.abandonedNumber state candidate < candidate.maxAttempts) now error))
      candidate now error
    rw [hagain]
    rfl
  next => rfl

theorem recoverAbandonedAttempt_attempts :
    (storage.recoverAbandonedAttempt state candidateId now error).1.attempts =
      (state.failRunning candidate (storage.failedOf state candidate) now error).attempts := by
  rw [recoverAbandonedAttempt_eq hstored habandoned]
  dsimp only
  split
  next =>
    obtain ⟨dispatches, hagain⟩ := redispatch_parts storage
      ((state.failRunning candidate (storage.failedOf state candidate) now error).putCandidate
        (candidate.recovered
          (storage.abandonedNumber state candidate < candidate.maxAttempts) now error))
      candidate now error
    rw [hagain]
    rfl
  next => rfl

/-- The dispatches are those of the redispatch, or the ones before. -/
theorem recoverAbandonedAttempt_dispatches :
    ∃ updated : RepositoryState, updated.dispatches = state.dispatches ∧
      (storage.recoverAbandonedAttempt state candidateId now error).1.dispatches =
        if storage.abandonedNumber state candidate < candidate.maxAttempts then
          (storage.redispatch updated candidate now error).dispatches
        else state.dispatches := by
  obtain ⟨attempts, hfailed⟩ :=
    failRunning_parts state candidate (storage.failedOf state candidate) now error
  refine ⟨RepositoryState.putCandidate { state with attempts } (candidate.recovered
    (storage.abandonedNumber state candidate < candidate.maxAttempts) now error), rfl, ?_⟩
  rw [recoverAbandonedAttempt_eq hstored habandoned]
  dsimp only
  rw [hfailed]
  by_cases hretry : storage.abandonedNumber state candidate < candidate.maxAttempts
  · rw [if_pos (decide_eq_true hretry), if_pos hretry]
  · rw [if_neg (by simpa using hretry), if_neg hretry]
    rfl

theorem recoverAbandonedAttempt_redispatched :
    Redispatched MadePending state.dispatches
      (storage.recoverAbandonedAttempt state candidateId now error).1.dispatches := by
  obtain ⟨updated, hsame, hdispatches⟩ :=
    recoverAbandonedAttempt_dispatches storage error hstored habandoned
  rw [hdispatches]
  split
  next =>
    rw [← hsame]
    exact redispatch_redispatched storage updated candidate now error
  next => exact .refl .refl state.dispatches

theorem dispatchOf_recoverAbandonedAttempt {dispatch : BacktestDispatch}
    (hretry : storage.abandonedNumber state candidate < candidate.maxAttempts)
    (hfound : storage.dispatchOf state candidate = some dispatch)
    (hstate : dispatch.state ≠ .cancelled) :
    storage.dispatchOf (storage.recoverAbandonedAttempt state candidateId now error).1 candidate =
      some (dispatch.again now error) := by
  obtain ⟨updated, hsame, hdispatches⟩ :=
    recoverAbandonedAttempt_dispatches storage error hstored habandoned
  rw [if_pos hretry] at hdispatches
  rw [dispatchOf_congr hdispatches]
  rw [← dispatchOf_congr hsame] at hfound
  exact dispatchOf_redispatch hfound hstate now error

end Recovering

/-- Attempt ids are built from the id of the candidate. -/
def AttemptsOwn (state : RepositoryState) : Prop :=
  ∀ attempt ∈ state.attempts.rows, attempt.attemptId.candidateId = attempt.candidateId

section Attempts

variable {state : RepositoryState} {candidate : StoredCandidate}

theorem attemptsOf_putAttempt (hown : AttemptsOwn state) {attempt : BacktestAttemptAudit}
    (hattempt : attempt.attemptId.candidateId = attempt.candidateId) {other : String}
    (hother : attempt.candidateId ≠ other) :
    (state.putAttempt attempt).attemptsOf other = state.attemptsOf other := by
  have hdropped : (attempt.candidateId == other) = false := beq_false_of_ne hother
  rw [RepositoryState.attemptsOf, RepositoryState.attemptsOf, RepositoryState.putAttempt]
  cases hget : state.attempts.get? attempt.attemptId with
  | none =>
    rw [Table.rows_put_of_none hget, List.filter_append, List.filter_cons_of_neg (by simp [hdropped]),
      List.filter_nil, List.append_nil]
  | some before =>
    have hbefore := hown before (Table.mem_rows_of_get? hget)
    rw [Table.key_of_get? hget, hattempt] at hbefore
    have hpicked := Table.filterMap_put hget
      (fun row => if row.candidateId == other then some row else none)
      (by rw [← hbefore, hdropped]; rfl)
    simpa only [← List.filterMap_eq_filter, Option.guard] using hpicked

theorem attemptsOwn_putAttempt (hown : AttemptsOwn state) {attempt : BacktestAttemptAudit}
    (hattempt : attempt.attemptId.candidateId = attempt.candidateId) :
    AttemptsOwn (state.putAttempt attempt) := by
  intro row hrow
  rcases Table.mem_rows_put hrow with rfl | hrow
  · exact hattempt
  · exact hown row hrow

/-- What recovery writes of attempts belongs to the candidate. -/
theorem failRunning_attempt (now : Int) (error : String) {running : Option BacktestAttemptAudit}
    (hpick : Storage.PicksRunning state candidate.candidateId running) (hown : AttemptsOwn state) :
    (state.failRunning candidate running now error).attempts = state.attempts ∨
      ∃ attempt : BacktestAttemptAudit, attempt.candidateId = candidate.candidateId ∧
        attempt.attemptId.candidateId = attempt.candidateId ∧
        (state.failRunning candidate running now error).attempts =
          (state.putAttempt attempt).attempts := by
  obtain ⟨attempt, hfailed, heq⟩ := Storage.failRunning_wrote rfl hpick now error
  rw [heq]
  cases hfailed with
  | found attempt hget howner hrunning =>
    have hkey := hown attempt (Table.mem_rows_of_get? hget)
    exact .inr ⟨attempt.failedAs .infrastructure now error, howner, hkey, rfl⟩
  | madeUp hempty => exact .inr ⟨recoveryAttempt candidate now error, rfl, rfl, rfl⟩
  | finished hnone => exact .inl rfl

end Attempts

section Loop

variable (storage : Storage) (now : Int)

theorem picksRunning_failedOf (state : RepositoryState) (candidate : StoredCandidate) :
    Storage.PicksRunning state candidate.candidateId (storage.failedOf state candidate) := by
  cases storage with
  | inMemory => exact Storage.picksRunning_inMemory candidate
  | postgres => exact Storage.picksRunning_postgres candidate.candidateId

theorem abandonedNumber_congr {state state' : RepositoryState} {candidate : StoredCandidate}
    (h : state'.attemptsOf candidate.candidateId = state.attemptsOf candidate.candidateId) :
    storage.abandonedNumber state' candidate = storage.abandonedNumber state candidate := by
  cases storage <;>
    simp only [Storage.abandonedNumber, Storage.runningOf, Postgres.runningAttempt, h]

/-- What turns of the loop over other candidates leave of a candidate. -/
structure Spared (before after : RepositoryState) (candidateId : String) : Prop where
  own : AttemptsOwn after
  stored : after.candidates.get? candidateId = before.candidates.get? candidateId
  attempts : after.attemptsOf candidateId = before.attemptsOf candidateId
  dispatches : Redispatched MadePending before.dispatches after.dispatches

variable {storage now} {state : RepositoryState}

theorem Spared.refl (hown : AttemptsOwn state) (candidateId : String) :
    Spared state state candidateId :=
  ⟨hown, rfl, rfl, .refl .refl state.dispatches⟩

theorem Spared.trans {before between after : RepositoryState} {candidateId : String}
    (h : Spared before between candidateId) (h' : Spared between after candidateId) :
    Spared before after candidateId where
  own := h'.own
  stored := h'.stored.trans h.stored
  attempts := h'.attempts.trans h.attempts
  dispatches := h.dispatches.trans h'.dispatches fun _ _ _ => MadePending.trans

theorem attemptsOwn_congr {state' : RepositoryState} (h : state'.attempts = state.attempts)
    (hown : AttemptsOwn state) : AttemptsOwn state' := by
  intro attempt hattempt
  rw [h] at hattempt
  exact hown attempt hattempt

theorem attemptsOf_congr {state' : RepositoryState} (h : state'.attempts = state.attempts)
    (candidateId : String) : state'.attemptsOf candidateId = state.attemptsOf candidateId := by
  rw [RepositoryState.attemptsOf, RepositoryState.attemptsOf, h]

section

variable (hown : AttemptsOwn state) {candidateId : String} {candidate : StoredCandidate}
  (hstored : state.candidates.get? candidateId = some candidate)
  (habandoned : candidate.abandoned now = true)

include hown hstored habandoned

theorem recoverAbandonedAttempt_own (error : String) :
    AttemptsOwn (storage.recoverAbandonedAttempt state candidateId now error).1 := by
  have hattempts :=
    recoverAbandonedAttempt_attempts storage error hstored habandoned
  have hpick := picksRunning_failedOf storage state candidate
  rcases failRunning_attempt now error hpick hown with
    hsame | ⟨attempt, -, hid, hsame⟩
  · exact attemptsOwn_congr (hattempts.trans hsame) hown
  · exact attemptsOwn_congr (hattempts.trans hsame) (attemptsOwn_putAttempt hown hid)

/-- A recovery spares every other candidate. -/
theorem recoverAbandonedAttempt_spared {other : String} (hother : candidateId ≠ other)
    (error : String) :
    Spared state (storage.recoverAbandonedAttempt state candidateId now error).1 other := by
  obtain rfl := Table.key_of_get? hstored
  have hattempts :=
    recoverAbandonedAttempt_attempts storage error hstored habandoned
  refine ⟨recoverAbandonedAttempt_own hown hstored habandoned error, ?_, ?_,
    recoverAbandonedAttempt_redispatched storage error hstored habandoned⟩
  · rw [recoverAbandonedAttempt_candidates storage error hstored habandoned]
    exact Table.get?_put_of_ne _ hother.symm
  · have hpick := picksRunning_failedOf storage state candidate
    rcases failRunning_attempt now error hpick hown with
      hsame | ⟨attempt, howner, hid, hsame⟩
    · exact attemptsOf_congr (hattempts.trans hsame) other
    · rw [attemptsOf_congr (hattempts.trans hsame) other]
      exact attemptsOf_putAttempt hown hid (howner ▸ hother)

end

theorem recoverListed_redispatched (state : RepositoryState) (candidateId : String) :
    Redispatched MadePending state.dispatches
      (recoverListed storage now state candidateId).dispatches := by
  unfold recoverListed
  split
  next => exact .refl .refl state.dispatches
  next candidate hstored =>
    split
    next habandoned =>
      exact recoverAbandonedAttempt_redispatched storage leaseExpired hstored habandoned
    next => exact .refl .refl state.dispatches

theorem recoverListed_foldl_redispatched (ids : List String) :
    Redispatched MadePending state.dispatches
      (ids.foldl (recoverListed storage now) state).dispatches := by
  induction ids generalizing state with
  | nil => exact .refl .refl state.dispatches
  | cons candidateId ids ih =>
    rw [List.foldl_cons]
    exact (recoverListed_redispatched state candidateId).trans ih fun _ _ _ => MadePending.trans

/-- A turn spares the candidates it is not about, and those that nobody abandoned. -/
theorem recoverListed_spared (hown : AttemptsOwn state) {candidateId other : String}
    (h : candidateId ≠ other ∨ ∀ candidate, state.candidates.get? other = some candidate →
      candidate.abandoned now = false) :
    Spared state (recoverListed storage now state candidateId) other := by
  unfold recoverListed
  split
  next => exact .refl hown other
  next candidate hstored =>
    split
    next habandoned =>
      have hother : candidateId ≠ other := by
        rcases h with hother | hkept
        · exact hother
        · rintro rfl
          rw [hkept candidate hstored] at habandoned
          cases habandoned
      exact recoverAbandonedAttempt_spared hown hstored habandoned hother leaseExpired
    next => exact .refl hown other

theorem recoverListed_foldl_spared {ids : List String} (hown : AttemptsOwn state) {other : String}
    (h : other ∉ ids ∨ ∀ candidate, state.candidates.get? other = some candidate →
      candidate.abandoned now = false) :
    Spared state (ids.foldl (recoverListed storage now) state) other := by
  induction ids generalizing state with
  | nil => exact .refl hown other
  | cons candidateId ids ih =>
    rw [List.foldl_cons]
    have hfirst : Spared state (recoverListed storage now state candidateId) other := by
      apply recoverListed_spared hown
      refine h.imp_left fun hnot hid => ?_
      rw [hid] at hnot
      exact hnot List.mem_cons_self
    refine hfirst.trans (ih hfirst.own ?_)
    rw [hfirst.stored]
    exact h.imp_left fun hnot hmem => hnot (List.mem_cons_of_mem _ hmem)

/-- A listed candidate that was abandoned is recovered by its turn, and its dispatch stays pending
until the end of the loop. -/
theorem recoverListed_foldl_recovered {ids : List String} (hnodup : ids.Nodup)
    (hown : AttemptsOwn state) {candidateId : String} {candidate : StoredCandidate}
    (hmem : candidateId ∈ ids) (hstored : state.candidates.get? candidateId = some candidate)
    (habandoned : candidate.abandoned now = true) :
    (ids.foldl (recoverListed storage now) state).candidates.get? candidateId =
        some (candidate.recovered
          (storage.abandonedNumber state candidate < candidate.maxAttempts) now leaseExpired) ∧
      (storage.abandonedNumber state candidate < candidate.maxAttempts →
        ∀ dispatch, storage.dispatchOf state candidate = some dispatch →
          dispatch.state ≠ .cancelled →
          ∃ row, storage.dispatchOf (ids.foldl (recoverListed storage now) state) candidate =
            some row ∧ row.state = .pending) := by
  have hid := Table.key_of_get? hstored
  obtain ⟨earlier, later, rfl⟩ := List.append_of_mem hmem
  have hsplit := List.nodup_append.mp hnodup
  have hearlier : candidateId ∉ earlier := fun h =>
    hsplit.2.2 candidateId h candidateId List.mem_cons_self rfl
  have hlater : candidateId ∉ later := (List.nodup_cons.mp hsplit.2.1).1
  rw [List.foldl_append, List.foldl_cons]
  -- The turns before leave the row, its attempts and its dispatch as recovery needs them.
  have hbefore : Spared state (earlier.foldl (recoverListed storage now) state) candidateId :=
    recoverListed_foldl_spared hown (.inl hearlier)
  generalize earlier.foldl (recoverListed storage now) state = reached at hbefore ⊢
  have hstored' := hbefore.stored.trans hstored
  have hturn : recoverListed storage now reached candidateId =
      (storage.recoverAbandonedAttempt reached candidateId now leaseExpired).1 := by
    simp only [recoverListed, hstored', if_pos habandoned]
  rw [hturn]
  have hafter : Spared (storage.recoverAbandonedAttempt reached candidateId now leaseExpired).1
      (later.foldl (recoverListed storage now)
        (storage.recoverAbandonedAttempt reached candidateId now leaseExpired).1) candidateId :=
    recoverListed_foldl_spared
      (recoverAbandonedAttempt_own hbefore.own hstored' habandoned leaseExpired) (.inl hlater)
  have hnumber : storage.abandonedNumber reached candidate = storage.abandonedNumber state candidate :=
    abandonedNumber_congr storage (hid ▸ hbefore.attempts)
  constructor
  · rw [hafter.stored,
      recoverAbandonedAttempt_candidates storage leaseExpired hstored' habandoned, hnumber]
    exact Table.get?_put_of_eq _ hid.symm
  · intro hretry dispatch hfound hstate
    obtain ⟨between, hbetween, hmade⟩ := hbefore.dispatches.dispatchOf_some hfound
    have hkept : between.state ≠ .cancelled := by
      rcases hmade with rfl | ⟨-, hpending, -⟩
      · exact hstate
      · rw [hpending]
        decide
    have hagain := dispatchOf_recoverAbandonedAttempt storage leaseExpired hstored' habandoned
      (hnumber ▸ hretry) hbetween hkept
    obtain ⟨row, hrow, hmade'⟩ := hafter.dispatches.dispatchOf_some hagain
    refine ⟨row, hrow, ?_⟩
    rcases hmade' with rfl | ⟨-, hpending, -⟩
    · rfl
    · exact hpending

end Loop

section Sending

/-- What the second loop makes of a dispatch: a pending one stays so, or its job went to the queue. -/
structure Sent (sent : List BacktestQueueJob) (before after : BacktestDispatch) : Prop where
  job : after.job = before.job
  cancelled : before.state = .cancelled → after.state = .cancelled
  pending : before.state = .pending →
    after.state = .pending ∨ after.state = .dispatched ∧ after.job ∈ sent

theorem Sent.refl (sent : List BacktestQueueJob) (dispatch : BacktestDispatch) :
    Sent sent dispatch dispatch :=
  ⟨rfl, id, .inl⟩

/-- What one turn writes over the row it finds. -/
def Marked (sent : List BacktestQueueJob) (before after : BacktestDispatch) : Prop :=
  after = before ∨ before.state ≠ .cancelled ∧ after.job = before.job ∧
    (after.state = .pending ∨ after.state = .dispatched ∧ after.job ∈ sent)

theorem Sent.marked {sent sent' : List BacktestQueueJob} (hsent : sent ⊆ sent')
    {first second third : BacktestDispatch} (h : Sent sent first second)
    (h' : Marked sent' second third) : Sent sent' first third := by
  rcases h' with rfl | ⟨hstate, hjob, hmarked⟩
  · refine ⟨h.job, h.cancelled, fun hpending => ?_⟩
    exact (h.pending hpending).imp_right fun hdispatched => ⟨hdispatched.1, hsent hdispatched.2⟩
  · exact ⟨hjob.trans h.job, fun hcancelled => absurd (h.cancelled hcancelled) hstate,
      fun _ => hmarked⟩

variable {storage : Storage} {ports : RecoveryPorts} {run : Recovery}
  {start : Table BacktestDispatch.jobId} {item : BacktestDispatch}

theorem markDispatchDispatched_redispatched {state : RepositoryState} {jobId : String}
    {sent : List BacktestQueueJob}
    (hsent : ∀ row, state.dispatches.get? jobId = some row → row.job ∈ sent) (dispatchedAt : Int) :
    Redispatched (Marked sent) state.dispatches
      (storage.markDispatchDispatched state jobId dispatchedAt).dispatches := by
  have hrefl : ∀ dispatch, Marked sent dispatch dispatch := fun _ => .inl rfl
  have heq : storage.markDispatchDispatched state jobId dispatchedAt =
      InMemory.markDispatchDispatched state jobId dispatchedAt := by
    cases storage <;> rfl
  rw [heq, InMemory.markDispatchDispatched]
  split
  next => exact .refl hrefl state.dispatches
  next row hget =>
    split
    next => exact .refl hrefl state.dispatches
    next hstate =>
      exact .put hrefl (Table.get?_key hget) rfl
        (.inr ⟨hstate, rfl, .inr ⟨rfl, hsent row hget⟩⟩)

theorem markDispatchFailed_redispatched (state : RepositoryState) (jobId error : String)
    (sent : List BacktestQueueJob) (now : Int) :
    Redispatched (Marked sent) state.dispatches
      (storage.markDispatchFailed state jobId error now).dispatches := by
  have hrefl : ∀ dispatch, Marked sent dispatch dispatch := fun _ => .inl rfl
  have heq : storage.markDispatchFailed state jobId error now =
      InMemory.markDispatchFailed state jobId error now := by
    cases storage <;> rfl
  rw [heq, InMemory.markDispatchFailed]
  split
  next => exact .refl hrefl state.dispatches
  next row hget =>
    split
    next => exact .refl hrefl state.dispatches
    next hstate =>
      exact .put hrefl (Table.get?_key hget) rfl (.inr ⟨hstate, rfl, .inl rfl⟩)

/-- One turn of the second loop, over a dispatch that was pending at its start. -/
theorem dispatchListed_redispatched
    (h : Redispatched (Sent run.sent) start run.repository.dispatches)
    (hitem : start.get? item.jobId = some item) :
    Redispatched (Sent (dispatchListed storage ports run item).sent) start
      (dispatchListed storage ports run item).repository.dispatches := by
  have hjob : ∀ row, run.repository.dispatches.get? item.jobId = some row → row.job = item.job := by
    intro row hrow
    have hrelated := h.related item.jobId
    rw [hitem, hrow] at hrelated
    cases hrelated with
    | some hsent => exact hsent.job
  by_cases hstate : item.state = .pending
  · cases hqueue : ports.deps.enqueue item.job with
    | ok =>
      have htaken : taken ports item = true := by simp [taken, hstate, hqueue, Except.toBool]
      simp only [dispatchListed, dispatchOne, htaken, hstate, ne_eq, not_true_eq_false, ↓reduceIte,
        hqueue]
      refine h.trans (markDispatchDispatched_redispatched (fun row hrow => ?_) _)
        fun _ _ _ => Sent.marked fun _ => List.mem_append_left _
      rw [hjob row hrow]
      exact List.mem_append_right _ List.mem_cons_self
    | error error =>
      have htaken : taken ports item = false := by simp [taken, hqueue, Except.toBool]
      simp only [dispatchListed, dispatchOne, htaken, hstate, ne_eq, not_true_eq_false, ↓reduceIte,
        hqueue, Bool.false_eq_true]
      exact h.trans (markDispatchFailed_redispatched _ _ _ _ _) fun _ _ _ => Sent.marked fun _ => id
  · have htaken : taken ports item = false := by simp [taken, hstate]
    simp only [dispatchListed, dispatchOne, htaken, hstate, ne_eq, not_false_eq_true, ↓reduceIte,
      Bool.false_eq_true]
    exact h

theorem dispatchListed_foldl_redispatched {items : List BacktestDispatch}
    (h : Redispatched (Sent run.sent) start run.repository.dispatches)
    (hitems : ∀ item ∈ items, start.get? item.jobId = some item) :
    Redispatched (Sent (items.foldl (dispatchListed storage ports) run).sent) start
      (items.foldl (dispatchListed storage ports) run).repository.dispatches := by
  induction items generalizing run with
  | nil => exact h
  | cons item items ih =>
    rw [List.foldl_cons]
    exact ih (dispatchListed_redispatched h (hitems item List.mem_cons_self))
      fun later hlater => hitems later (List.mem_cons_of_mem _ hlater)

theorem dispatchListed_foldl_candidates (items : List BacktestDispatch) :
    (items.foldl (dispatchListed storage ports) run).repository.candidates =
      run.repository.candidates := by
  induction items generalizing run with
  | nil => rfl
  | cons item items ih =>
    rw [List.foldl_cons, ih, dispatchListed]
    exact dispatchOne_candidates ports.deps storage run.repository item _

end Sending

/-! The callers of the repository build attempt ids so. -/

section Runs

open Storage

variable {storage : Storage} {world : World} {step : Step}

theorem attemptsOwn_written (hown : AttemptsOwn world.repository) (henabled : world.enabled step)
    {row : Option StoredCandidate} {attempt : BacktestAttemptAudit} {trades : Option AttemptTrades}
    (hw : Write storage world.repository step row (some attempt) trades) :
    attempt.attemptId.candidateId = attempt.candidateId := by
  have hstored : ∀ {attemptId found}, world.repository.attempts.get? attemptId = some found →
      found.attemptId.candidateId = found.candidateId :=
    fun hget => hown _ (Table.mem_rows_of_get? hget)
  have hfailed : ∀ {candidate now error},
      RunningFailed world.repository candidate now error (some attempt) →
        attempt.attemptId.candidateId = attempt.candidateId := by
    intro candidate now error hf
    cases hf with
    | found before hget =>
      have hbefore := hstored hget
      exact hbefore
    | madeUp => rfl
  cases hw with
  | @claimed input candidate hcandidate =>
    cases hbefore : storage.attemptOf world.repository input with
    | none =>
      have hid : input.attemptId = .delivery input.candidateId input.deliveryAttempt := henabled
      change input.attemptId.candidateId = input.candidateId
      rw [hid]
      rfl
    | some before =>
      change before.attemptId.candidateId = before.candidateId
      cases storage with
      | inMemory => exact hstored hbefore
      | postgres =>
        exact hown before (List.mem_of_mem_filter (List.mem_of_find?_eq_some hbefore))
  | persisted hfenced | persistedAudit retryAt hfenced | failed hfenced
  | failedAudit kind code error hfenced =>
    have hbefore := hstored hfenced.attempt_stored
    exact hbefore
  | recovered retrying hcandidate hb hf => exact hfailed hf
  | repaired hcandidate hopen hbefore hf => exact hfailed hf
  | repairedAttempt hcandidate hlate hf => exact hfailed hf

theorem attemptsOwn_next (hown : AttemptsOwn world.repository) (henabled : world.enabled step) :
    AttemptsOwn (storage.next world step).repository := by
  obtain ⟨row, attempt, trades, hw, hwrote⟩ := apply_writes storage world.repository step
  have hattempts : (storage.next world step).repository.attempts =
      world.repository.attempts.putOption attempt := hwrote.attempts
  cases attempt with
  | none => exact attemptsOwn_congr hattempts hown
  | some attempt =>
    have hput : (storage.next world step).repository.attempts =
        (world.repository.putAttempt attempt).attempts := hattempts
    exact attemptsOwn_congr hput (attemptsOwn_putAttempt hown (attemptsOwn_written hown henabled hw))

theorem attemptsOwn_after {steps : List Step}
    (hlegal : storage.system.Legal (fun _ _ => True) World.start steps) :
    AttemptsOwn (storage.after steps).repository := by
  have hstart : AttemptsOwn World.start.repository := fun _ hattempt => by cases hattempt
  exact hlegal.invariant (fun world => AttemptsOwn world.repository)
    (fun _ _ hown henabled _ => attemptsOwn_next hown henabled) hstart

end Runs

/-- Every worker that let its lease expire is dealt with. A candidate without an active attempt
number has none below its maximum. -/
structure RecoversAll (storage : Storage) (now : Int) (before : RepositoryState)
    (after : Recovery) : Prop where
  none_abandoned : ∀ candidate ∈ after.repository.candidates.rows, candidate.abandoned now = false
  retried : ∀ candidate ∈ before.candidates.rows, candidate.abandoned now = true →
    candidate.hasRetry = true →
    ∃ row dispatch, after.repository.candidates.get? candidate.candidateId = some row ∧
      row.status = .retryWait ∧ storage.dispatchOf after.repository candidate = some dispatch ∧
      (dispatch.state = .pending ∨ dispatch.state = .dispatched ∧ dispatch.job ∈ after.sent)
  failed : ∀ candidate ∈ before.candidates.rows, candidate.abandoned now = true →
    candidate.hasRetry = false →
    ∃ row, after.repository.candidates.get? candidate.candidateId = some row ∧
      row.status = .terminalFailurePending

/-- The candidates in the order in which the repository reads them. -/
def Storage.candidatesRead : Storage → Postgres.ScanOrder → RepositoryState → List StoredCandidate
  | inMemory, _, state => state.candidates.rows
  | postgres, scan, state => scan.candidates state.candidates.rows

def Storage.recoverableRead (storage : Storage) (scan : Postgres.ScanOrder)
    (state : RepositoryState) : List StoredCandidate :=
  (storage.candidatesRead scan state).filter fun candidate => recoverable candidate.status

/-- How many recoverable candidates stand before this one: those written earlier, and those written
at the same instant that are read before it. -/
def Storage.aheadOf (storage : Storage) (scan : Postgres.ScanOrder) (state : RepositoryState)
    (candidate : StoredCandidate) : Nat :=
  (storage.recoverableRead scan state).countP (fun other => other.updatedAt < candidate.updatedAt) +
    ((storage.recoverableRead scan state).takeWhile (· ≠ candidate)).countP fun other =>
      other.updatedAt = candidate.updatedAt

/-- What lets one call deal with all of them. -/
structure WithinReach (storage : Storage) (scan : Postgres.ScanOrder) (now : Int) (limit : Nat)
    (before : RepositoryState) : Prop where
  /-- Fewer than `limit` recoverable candidates stand before it. -/
  listed : ∀ candidate ∈ before.candidates.rows, candidate.abandoned now = true →
    storage.aheadOf scan before candidate < limit
  deliverable : ∀ candidate ∈ before.candidates.rows, candidate.abandoned now = true →
    candidate.hasRetry = true →
    ∃ dispatch, storage.dispatchOf before candidate = some dispatch ∧ dispatch.state ≠ .cancelled
  /-- No running attempt stands in for a missing number and leaves a retry. -/
  numbered : ∀ candidate ∈ before.candidates.rows, candidate.abandoned now = true →
    candidate.activeAttemptNumber = none →
    candidate.maxAttempts ≤ storage.abandonedNumber before candidate

section Listing

variable (storage : Storage) (scan : Postgres.ScanOrder) (state : RepositoryState) (limit : Nat)

theorem candidatesRead_perm :
    (storage.candidatesRead scan state).Perm state.candidates.rows := by
  cases storage with
  | inMemory => exact .refl _
  | postgres => exact scan.candidates_perm _

theorem listQueueRecoveryCandidates_eq : storage.listQueueRecoveryCandidates scan state limit =
    (((storage.recoverableRead scan state).insertionSort
      fun left right => left.updatedAt ≤ right.updatedAt).take limit).map (·.candidateId) := by
  cases storage <;> rfl

theorem recoverableSorted_nodup : (((storage.recoverableRead scan state).insertionSort
    fun left right => left.updatedAt ≤ right.updatedAt).map (·.candidateId)).Nodup := by
  have hread : ((storage.candidatesRead scan state).map (·.candidateId)).Nodup :=
    ((candidatesRead_perm storage scan state).map _).nodup_iff.mpr state.candidates.nodup
  have hkept : ((storage.recoverableRead scan state).map (·.candidateId)).Nodup :=
    hread.sublist (List.filter_sublist.map _)
  exact ((List.perm_insertionSort _ _).map _).nodup_iff.mpr hkept

theorem listQueueRecoveryCandidates_nodup :
    (storage.listQueueRecoveryCandidates scan state limit).Nodup := by
  rw [listQueueRecoveryCandidates_eq]
  exact (recoverableSorted_nodup storage scan state).sublist ((List.take_sublist _ _).map _)

/-- A recoverable candidate is listed if fewer than `limit` stand before it. -/
theorem mem_listQueueRecoveryCandidates {candidate : StoredCandidate}
    (hcandidate : candidate ∈ state.candidates.rows)
    (hrecoverable : recoverable candidate.status = true) :
    candidate.candidateId ∈ storage.listQueueRecoveryCandidates scan state limit ↔
      storage.aheadOf scan state candidate < limit := by
  have hread : candidate ∈ storage.recoverableRead scan state := List.mem_filter.mpr
    ⟨(candidatesRead_perm storage scan state).mem_iff.mpr hcandidate, hrecoverable⟩
  have hsorted := (List.mem_insertionSort
    fun left right : StoredCandidate => left.updatedAt ≤ right.updatedAt).mpr hread
  rw [listQueueRecoveryCandidates_eq, Storage.aheadOf, ← idxOf_insertionSort hread,
    ← List.mem_take_iff_idxOf_lt hsorted, List.mem_map]
  constructor
  · rintro ⟨listed, hlisted, hid⟩
    have hsame := List.inj_on_of_nodup_map (recoverableSorted_nodup storage scan state)
      (List.mem_of_mem_take hlisted) hsorted hid
    rwa [← hsame]
  · intro hlisted
    exact ⟨candidate, hlisted, rfl⟩

/-- The dispatches in the order in which the repository reads them. -/
def Storage.dispatchesRead : Storage → Postgres.ScanOrder → RepositoryState → List BacktestDispatch
  | inMemory, _, state => state.dispatches.rows
  | postgres, scan, state => scan.dispatches state.dispatches.rows

theorem dispatchesRead_perm :
    (storage.dispatchesRead scan state).Perm state.dispatches.rows := by
  cases storage with
  | inMemory => exact .refl _
  | postgres => exact scan.dispatches_perm _

theorem listPendingDispatches_eq : storage.listPendingDispatches scan state limit =
    (((storage.dispatchesRead scan state).filter fun dispatch =>
      dispatch.state == .pending).insertionSort
        fun left right => left.createdAt ≤ right.createdAt).take limit := by
  cases storage <;> rfl

variable {storage scan state limit}

theorem pending_of_mem {dispatch : BacktestDispatch}
    (h : dispatch ∈ storage.listPendingDispatches scan state limit) :
    dispatch.state = .pending ∧ state.dispatches.get? dispatch.jobId = some dispatch := by
  rw [listPendingDispatches_eq] at h
  have hsorted := List.mem_of_mem_take h
  rw [List.mem_insertionSort, List.mem_filter, beq_iff_eq] at hsorted
  have hrow := (dispatchesRead_perm storage scan state).mem_iff.mp hsorted.1
  exact ⟨hsorted.2, Table.get?_of_mem_rows hrow⟩

end Listing

theorem recovered_not_abandoned (candidate : StoredCandidate) (retrying : Bool) (now : Int)
    (error : String) : (candidate.recovered retrying now error).abandoned now = false := by
  cases retrying <;> rfl

theorem hasRetry_iff (storage : Storage) (state : RepositoryState) {candidate : StoredCandidate}
    {number : Nat} (h : candidate.activeAttemptNumber = some number) :
    candidate.hasRetry = true ↔ storage.abandonedNumber state candidate < candidate.maxAttempts := by
  rw [StoredCandidate.hasRetry, Storage.abandonedNumber, h, Option.any_some, Option.getD_some,
    decide_eq_true_eq]

theorem reconcileQueue_eq {storage : Storage} {ports : RecoveryPorts} {state : RepositoryState}
    {replays : ReplayTable} {now : Int} {limit : JsNumber} {after : Recovery}
    {summary : ReconcileSummary}
    (h : reconcileQueue storage ports state replays now limit = .ok (after, summary)) :
    after = (storage.listPendingDispatches ports.scan
        ((storage.listQueueRecoveryCandidates ports.scan state limit.toNat).foldl
          (recoverListed storage now) state) limit.toNat).foldl (dispatchListed storage ports)
      ⟨(storage.listQueueRecoveryCandidates ports.scan state limit.toNat).foldl
        (recoverListed storage now) state, []⟩ := by
  simp only [reconcileQueue, bind_eq_ok, pure_eq_ok] at h
  obtain ⟨_, -, hpair⟩ := h
  exact (Prod.mk.inj hpair).1.symm

section

variable {storage : Storage} {ports : RecoveryPorts} {state : RepositoryState}
  {replays : ReplayTable} {now : Int} {limit : JsNumber} {after : Recovery}
  {summary : ReconcileSummary}
  (h : reconcileQueue storage ports state replays now limit = .ok (after, summary))

include h

theorem reconcileQueue_candidates : after.repository.candidates =
    ((storage.listQueueRecoveryCandidates ports.scan state limit.toNat).foldl
      (recoverListed storage now) state).candidates := by
  rw [reconcileQueue_eq h]
  exact dispatchListed_foldl_candidates _

/-- The second loop only marks dispatches of what the first has left. -/
theorem reconcileQueue_redispatched : Redispatched (Sent after.sent)
    ((storage.listQueueRecoveryCandidates ports.scan state limit.toNat).foldl
      (recoverListed storage now) state).dispatches after.repository.dispatches := by
  rw [reconcileQueue_eq h]
  generalize (storage.listQueueRecoveryCandidates ports.scan state limit.toNat).foldl
    (recoverListed storage now) state = recovered
  refine dispatchListed_foldl_redispatched (.refl (Sent.refl []) recovered.dispatches) ?_
  intro item hitem
  exact (pending_of_mem hitem).2

/-- A candidate that is not listed, or that nobody abandoned, stays as it is. -/
theorem reconcileQueue_spared (hown : AttemptsOwn state) {candidateId : String}
    (hspared : candidateId ∉ storage.listQueueRecoveryCandidates ports.scan state limit.toNat ∨
      ∀ candidate, state.candidates.get? candidateId = some candidate →
        candidate.abandoned now = false) :
    after.repository.candidates.get? candidateId = state.candidates.get? candidateId := by
  rw [reconcileQueue_candidates h]
  exact (recoverListed_foldl_spared hown hspared).stored

variable {candidate : StoredCandidate} (hcandidate : candidate ∈ state.candidates.rows)
  (habandoned : candidate.abandoned now = true)
  (hlisted : candidate.candidateId ∈
    storage.listQueueRecoveryCandidates ports.scan state limit.toNat)

include hcandidate habandoned hlisted

theorem reconcileQueue_recovered (hown : AttemptsOwn state) :
    after.repository.candidates.get? candidate.candidateId = some (candidate.recovered
      (storage.abandonedNumber state candidate < candidate.maxAttempts) now leaseExpired) := by
  rw [reconcileQueue_candidates h]
  exact (recoverListed_foldl_recovered
    (listQueueRecoveryCandidates_nodup storage ports.scan state limit.toNat) hown hlisted
    (Table.get?_of_mem_rows hcandidate) habandoned).1

/-- The dispatch of a retried candidate is pending again, or its job went to the queue. -/
theorem reconcileQueue_deliverable (hown : AttemptsOwn state)
    (hretry : storage.abandonedNumber state candidate < candidate.maxAttempts)
    {dispatch : BacktestDispatch} (hfound : storage.dispatchOf state candidate = some dispatch)
    (hstate : dispatch.state ≠ .cancelled) :
    ∃ row, storage.dispatchOf after.repository candidate = some row ∧
      (row.state = .pending ∨ row.state = .dispatched ∧ row.job ∈ after.sent) := by
  obtain ⟨between, hbetween, hpending⟩ :=
    (recoverListed_foldl_recovered
      (listQueueRecoveryCandidates_nodup storage ports.scan state limit.toNat) hown hlisted
      (Table.get?_of_mem_rows hcandidate) habandoned).2 hretry dispatch hfound hstate
  obtain ⟨row, hrow, hsent⟩ := (reconcileQueue_redispatched h).dispatchOf_some hbetween
  exact ⟨row, hrow, hsent.pending hpending⟩

end

/-- Recovery of every abandoned candidate by one call, whenever no more than `limit` are. -/
def RecoversAbandoned (storage : Storage) (now : Int) (limit : Nat) (before : RepositoryState)
    (after : Recovery) : Prop :=
  before.candidates.rows.countP (·.abandoned now) ≤ limit → RecoversAll storage now before after

section

variable {storage : Storage} {ports : RecoveryPorts} {state : RepositoryState}
  {replays : ReplayTable} {now : Int} {limit : JsNumber} {after : Recovery}
  {summary : ReconcileSummary}

theorem recoverable_of_abandoned {candidate : StoredCandidate}
    (h : candidate.abandoned now = true) : recoverable candidate.status = true := by
  rw [(StoredCandidate.abandoned_iff.mp h).1]
  rfl

theorem WithinReach.mem_listed {scan : Postgres.ScanOrder} {bound : Nat}
    (h : WithinReach storage scan now bound state) {candidate : StoredCandidate}
    (hcandidate : candidate ∈ state.candidates.rows) (habandoned : candidate.abandoned now = true) :
    candidate.candidateId ∈ storage.listQueueRecoveryCandidates scan state bound :=
  (mem_listQueueRecoveryCandidates storage scan state bound hcandidate
    (recoverable_of_abandoned habandoned)).mpr (h.listed candidate hcandidate habandoned)

theorem recoversAll_of_withinReach (hown : AttemptsOwn state)
    (h : reconcileQueue storage ports state replays now limit = .ok (after, summary))
    (hreach : WithinReach storage ports.scan now limit.toNat state) :
    RecoversAll storage now state after where
  none_abandoned := by
    intro row hrow
    have hget := Table.get?_of_mem_rows hrow
    cases hbefore : state.candidates.get? row.candidateId with
    | none =>
      have hnobody : ∀ candidate, state.candidates.get? row.candidateId = some candidate →
          candidate.abandoned now = false := by
        intro candidate hcandidate
        rw [hbefore] at hcandidate
        cases hcandidate
      have hspared := reconcileQueue_spared h hown (.inr hnobody)
      rw [hget, hbefore] at hspared
      cases hspared
    | some candidate =>
      have hid := Table.key_of_get? hbefore
      have hmem := Table.mem_rows_of_get? hbefore
      cases habandoned : candidate.abandoned now with
      | true =>
        have hrecovered := reconcileQueue_recovered h hmem habandoned
          (hreach.mem_listed hmem habandoned) hown
        rw [hid, hget] at hrecovered
        rw [Option.some.inj hrecovered]
        exact recovered_not_abandoned candidate _ now leaseExpired
      | false =>
        have hkept : ∀ found, state.candidates.get? row.candidateId = some found →
            found.abandoned now = false := by
          intro found hfound
          rw [hbefore] at hfound
          cases hfound
          exact habandoned
        have hspared := reconcileQueue_spared h hown (.inr hkept)
        rw [hget, hbefore] at hspared
        rw [Option.some.inj hspared]
        exact habandoned
  retried := by
    intro candidate hcandidate habandoned hretry
    have hlisted := hreach.mem_listed hcandidate habandoned
    obtain ⟨number, hnumber, -⟩ := (Option.any_eq_true _ _).mp hretry
    have hretrying := (hasRetry_iff storage state hnumber).mp hretry
    obtain ⟨dispatch, hfound, hstate⟩ := hreach.deliverable candidate hcandidate habandoned hretry
    obtain ⟨row, hrow, hdeliverable⟩ :=
      reconcileQueue_deliverable h hcandidate habandoned hlisted hown hretrying hfound hstate
    refine ⟨_, row, reconcileQueue_recovered h hcandidate habandoned hlisted hown, ?_, hrow,
      hdeliverable⟩
    rw [decide_eq_true hretrying]
    rfl
  failed := by
    intro candidate hcandidate habandoned hretry
    have hlisted := hreach.mem_listed hcandidate habandoned
    refine ⟨_, reconcileQueue_recovered h hcandidate habandoned hlisted hown, ?_⟩
    have hexhausted : ¬ storage.abandonedNumber state candidate < candidate.maxAttempts := by
      cases hnumber : candidate.activeAttemptNumber with
      | none => exact Nat.not_lt.mpr (hreach.numbered candidate hcandidate habandoned hnumber)
      | some number =>
        rw [← hasRetry_iff storage state hnumber, hretry]
        exact Bool.false_ne_true
    rw [decide_eq_false hexhausted]
    rfl

theorem withinReach_of_recoversAll (hown : AttemptsOwn state)
    (h : reconcileQueue storage ports state replays now limit = .ok (after, summary))
    (hall : RecoversAll storage now state after) :
    WithinReach storage ports.scan now limit.toNat state := by
  have hlisted : ∀ candidate ∈ state.candidates.rows, candidate.abandoned now = true →
      candidate.candidateId ∈
        storage.listQueueRecoveryCandidates ports.scan state limit.toNat := by
    intro candidate hcandidate habandoned
    by_contra hnot
    have hspared := reconcileQueue_spared h hown (.inl hnot)
    rw [Table.get?_of_mem_rows hcandidate] at hspared
    have hnone := hall.none_abandoned candidate (Table.mem_rows_of_get? hspared)
    rw [habandoned] at hnone
    cases hnone
  refine ⟨fun candidate hcandidate habandoned => ?_, ?_, ?_⟩
  · exact (mem_listQueueRecoveryCandidates storage ports.scan state limit.toNat hcandidate
      (recoverable_of_abandoned habandoned)).mp (hlisted candidate hcandidate habandoned)
  · intro candidate hcandidate habandoned hretry
    obtain ⟨-, row, -, -, hrow, hdeliverable⟩ := hall.retried candidate hcandidate habandoned hretry
    have hfirst : Redispatched MadePending state.dispatches
        ((storage.listQueueRecoveryCandidates ports.scan state limit.toNat).foldl
          (recoverListed storage now) state).dispatches :=
      recoverListed_foldl_redispatched _
    have hsecond := reconcileQueue_redispatched h
    -- Neither loop adds a dispatch or revives a cancelled one.
    cases hfound : storage.dispatchOf state candidate with
    | none =>
      rw [hsecond.dispatchOf_none (hfirst.dispatchOf_none hfound)] at hrow
      cases hrow
    | some dispatch =>
      refine ⟨dispatch, rfl, fun hcancelled => ?_⟩
      obtain ⟨between, hbetween, hmade⟩ := hfirst.dispatchOf_some hfound
      obtain ⟨row', hrow', hsent⟩ := hsecond.dispatchOf_some hbetween
      obtain rfl : between = dispatch := hmade.resolve_right fun hlive => hlive.1 hcancelled
      rw [hrow] at hrow'
      obtain rfl := Option.some.inj hrow'
      rw [hsent.cancelled hcancelled] at hdeliverable
      rcases hdeliverable with hpending | ⟨hdispatched, -⟩
      · cases hpending
      · cases hdispatched
  · intro candidate hcandidate habandoned hnumber
    by_contra hretry
    have hrecovered := reconcileQueue_recovered h hcandidate habandoned
      (hlisted candidate hcandidate habandoned) hown
    have hnone : candidate.hasRetry = false := by
      rw [StoredCandidate.hasRetry, hnumber, Option.any_none]
    obtain ⟨row, hrow, hfailed⟩ := hall.failed candidate hcandidate habandoned hnone
    rw [hrecovered] at hrow
    cases hrow
    rw [decide_eq_true (Nat.not_le.mp hretry)] at hfailed
    cases hfailed

theorem reconcile_recovers_abandoned_iff (storage : Storage) (ports : RecoveryPorts)
    (state : RepositoryState) (replays : ReplayTable) (now : Int) (limit : JsNumber)
    (after : Recovery) (summary : ReconcileSummary) (hown : AttemptsOwn state)
    (h : reconcileQueue storage ports state replays now limit = .ok (after, summary)) :
    RecoversAbandoned storage now limit.toNat state after ↔
      (state.candidates.rows.countP (·.abandoned now) ≤ limit.toNat →
        WithinReach storage ports.scan now limit.toNat state) :=
  ⟨fun hall hfew => withinReach_of_recoversAll hown h (hall hfew),
    fun hreach hfew => recoversAll_of_withinReach hown h (hreach hfew)⟩

end

/-! A submission waits while a worker lets another candidate go: the queue is looked at one candidate
at a time, and at all at once. -/
namespace Sample

def waiting : StoredCandidate := { candidate with candidateId := "a", queueJobId := "a" }

def waitingDispatch : BacktestDispatch :=
  { dispatch with job := { dispatch.job with jobId := "a", candidateId := "a" } }

def abandonedBehind : List Step :=
  [.submit waiting waitingDispatch none, .submit candidate dispatch none,
    .claimWorkerAttempt (delivery 1 "f" 1)]

def ports : RecoveryPorts := ⟨deps, fun _ => .ok (), fun _ => 100000, .inserted⟩

def reconciled (storage : Storage) (limit : JsNumber) : Except String (Recovery × ReconcileSummary) :=
  reconcileQueue storage ports (storage.after abandonedBehind).repository .empty 100000 limit

end Sample

/-- One candidate is abandoned and one may be listed, but the listed one is the one that waits. -/
theorem queued_listed_before_abandoned :
    (∃ after summary, Sample.reconciled .inMemory (.ofInt 1) = .ok (after, summary) ∧
      ¬ RecoversAbandoned .inMemory 100000 1
        (Storage.inMemory.after Sample.abandonedBehind).repository after) ∧
    ∃ after summary, Sample.reconciled .postgres (.ofInt 1) = .ok (after, summary) ∧
      ¬ RecoversAbandoned .postgres 100000 1
        (Storage.postgres.after Sample.abandonedBehind).repository after := by
  constructor
  · refine ⟨_, _, rfl, fun h => ?_⟩
    have hnone := (h (by decide)).none_abandoned
    exact absurd hnone (by decide)
  · refine ⟨_, _, rfl, fun h => ?_⟩
    have hnone := (h (by decide)).none_abandoned
    exact absurd hnone (by decide)

/-- Two may be listed, and the one whose worker is gone waits for a retry. -/
theorem reconcile_recovers_abandoned_iff_two :
    ∃ after summary, Sample.reconciled .postgres (.ofInt 2) = .ok (after, summary) ∧
      after.sent.map (·.jobId) = ["a", "c"] ∧
      ∃ row, after.repository.candidates.get? "c" = some row ∧ row.status = .retryWait := by
  have hown : AttemptsOwn (Storage.postgres.after Sample.abandonedBehind).repository :=
    attemptsOwn_after (by decide)
  have hreach : WithinReach .postgres .inserted 100000 2
      (Storage.postgres.after Sample.abandonedBehind).repository := by
    refine ⟨by decide, fun candidate hcandidate habandoned hretry => ?_, by decide⟩
    have hfound : ∀ candidate ∈ (Storage.postgres.after
        Sample.abandonedBehind).repository.candidates.rows, candidate.abandoned 100000 = true →
          candidate.hasRetry = true → (Storage.postgres.dispatchOf (Storage.postgres.after
            Sample.abandonedBehind).repository candidate).any (·.state ≠ .cancelled) = true := by
      decide
    obtain ⟨dispatch, hdispatch, hstate⟩ :=
      (Option.any_eq_true _ _).mp (hfound candidate hcandidate habandoned hretry)
    exact ⟨dispatch, hdispatch, of_decide_eq_true hstate⟩
  obtain ⟨candidate, hcandidate, hid, habandoned, hretry⟩ :
      ∃ candidate ∈ (Storage.postgres.after Sample.abandonedBehind).repository.candidates.rows,
        candidate.candidateId = "c" ∧ candidate.abandoned 100000 = true ∧
          candidate.hasRetry = true := by
    decide
  refine ⟨_, _, rfl, by decide, ?_⟩
  have hiff := reconcile_recovers_abandoned_iff .postgres Sample.ports _ .empty 100000 (.ofInt 2) _ _
    hown rfl
  obtain ⟨row, -, hrow, hstatus, -⟩ :=
    (hiff.mpr (fun _ => hreach) (by decide)).retried candidate hcandidate habandoned hretry
  exact ⟨row, hid ▸ hrow, hstatus⟩

end Cryptox.Backtesting
