import Mathlib.Data.List.Find
import Cryptox.Backtesting.Repository.Correspondence

/-!
# Where the two repositories agree

Call by call, from corresponding states, and then on every state that a run reaches.
-/
namespace Cryptox.Backtesting

open Cryptox.Library
open Storage (PicksRunning)

namespace Related

variable {memory database : RepositoryState}

theorem refl (state : RepositoryState) : Related state state :=
  ⟨rfl, rfl, rfl, fun _ => rfl, rfl, rfl⟩

theorem symm (h : Related memory database) : Related database memory :=
  ⟨h.candidates.symm, h.candidateIdempotency.symm, h.attempts.symm,
    fun attemptId => (h.trades attemptId).symm, h.dispatches.symm, h.experiments.symm⟩

theorem trans {other : RepositoryState} (h : Related memory database)
    (h' : Related database other) : Related memory other :=
  ⟨h.candidates.trans h'.candidates, h.candidateIdempotency.trans h'.candidateIdempotency,
    h.attempts.trans h'.attempts, fun attemptId => (h.trades attemptId).trans (h'.trades attemptId),
    h.dispatches.trans h'.dispatches, h.experiments.trans h'.experiments⟩

theorem attemptsOf (h : Related memory database) (candidateId : String) :
    memory.attemptsOf candidateId = database.attemptsOf candidateId := by
  rw [RepositoryState.attemptsOf, RepositoryState.attemptsOf, h.attempts]

theorem putCandidate (h : Related memory database) (row : StoredCandidate) :
    Related (memory.putCandidate row) (database.putCandidate row) :=
  { h with candidates := congrArg (·.put row) h.candidates }

theorem putAttempt (h : Related memory database) (attempt : BacktestAttemptAudit) :
    Related (memory.putAttempt attempt) (database.putAttempt attempt) :=
  { h with attempts := congrArg (·.put attempt) h.attempts }

theorem putDispatch (h : Related memory database) (dispatch : BacktestDispatch) :
    Related (memory.putDispatch dispatch) (database.putDispatch dispatch) :=
  { h with dispatches := congrArg (·.put dispatch) h.dispatches }

/-- The rows written last under one id are the same row. -/
theorem candidate_eq {row row' : StoredCandidate}
    (h : Related (memory.putCandidate row) (database.putCandidate row'))
    (hid : row.candidateId = row'.candidateId) : row = row' := by
  have hget := congrArg (·.get? row.candidateId) h.candidates
  simp only [RepositoryState.putCandidate] at hget
  rw [Table.get?_put_of_eq _ rfl, Table.get?_put_of_eq _ hid] at hget
  exact Option.some.inj hget

end Related

variable {memory database : RepositoryState}

theorem completionFailed_eq_iff (candidate copy : StoredCandidate) (retryAt : Option Int)
    (now : Int) (error : String) :
    candidate.completionFailed candidate retryAt now error =
        candidate.completionFailed copy retryAt now error ↔
      (candidate.Exhausted ↔ copy.Exhausted) ∧ (¬ candidate.Exhausted →
        candidate.failureKind = copy.failureKind ∧ candidate.failureCode = copy.failureCode) := by
  simp only [StoredCandidate.Exhausted, StoredCandidate.completionFailed]
  by_cases hc : candidate.completionMaxAttempts ≤ candidate.completionAttemptCount <;>
    by_cases hs : copy.completionMaxAttempts ≤ copy.completionAttemptCount <;> simp [hc, hs]

/-- Two failed copies leave the same table only if they are copies of one running attempt. -/
theorem failedAs_eq {attempts attempts' : Table BacktestAttemptAudit.attemptId}
    {attempt other : BacktestAttemptAudit} {now : Int} {error : String}
    (hget : attempts.get? attempt.attemptId = some attempt)
    (hother : attempts.get? other.attemptId = some other) (hrunning : attempt.status = .running)
    (hsame : attempts = attempts')
    (h : attempts.put (attempt.failedAs .infrastructure now error) =
      attempts'.put (other.failedAs .infrastructure now error)) : attempt = other := by
  have hid : attempt.attemptId = other.attemptId := by
    by_contra hne
    have hput : (attempts.put (attempt.failedAs .infrastructure now error)).get? attempt.attemptId =
      some (attempt.failedAs .infrastructure now error) := Table.get?_put_of_eq _ rfl
    have hkept : (attempts'.put (other.failedAs .infrastructure now error)).get? attempt.attemptId =
      attempts'.get? attempt.attemptId := Table.get?_put_of_ne _ hne
    rw [h, hkept, ← hsame, hget] at hput
    have hstatus := congrArg BacktestAttemptAudit.status (Option.some.inj hput)
    rw [hrunning] at hstatus
    cases hstatus
  rw [hid, hother] at hget
  exact (Option.some.inj hget).symm

/-- Failing what runs leaves corresponding states only if it is the same attempt in both. -/
theorem failRunning_eq_iff {candidate : StoredCandidate} {candidateId : String}
    {running running' : Option BacktestAttemptAudit} (now : Int) (error : String)
    (h : memory.attempts = database.attempts)
    (hpick : PicksRunning memory candidateId running)
    (hpick' : PicksRunning memory candidateId running') :
    (memory.failRunning candidate running now error).attempts =
        (database.failRunning candidate running' now error).attempts ↔ running = running' := by
  have hof : memory.attemptsOf = database.attemptsOf := by
    funext id
    rw [RepositoryState.attemptsOf, RepositoryState.attemptsOf, h]
  constructor
  · intro hsame
    cases running with
    | none =>
      cases running' with
      | none => rfl
      | some other => exact absurd hpick'.2 (hpick other hpick'.1)
    | some attempt =>
      cases running' with
      | none => exact absurd hpick.2 (hpick' attempt hpick.1)
      | some other =>
        rw [failedAs_eq (Storage.mem_attemptsOf.mp hpick.1).1 (Storage.mem_attemptsOf.mp hpick'.1).1
          hpick.2 h hsame]
  · rintro rfl
    cases running with
    | some attempt => exact congrArg (·.put (attempt.failedAs .infrastructure now error)) h
    | none =>
      simp only [RepositoryState.failRunning, hof]
      split
      · exact congrArg (·.put (recoveryAttempt candidate now error)) h
      · exact h

theorem Related.failRunning (h : Related memory database) (candidate : StoredCandidate)
    (running : Option BacktestAttemptAudit) (now : Int) (error : String) :
    Related (memory.failRunning candidate running now error)
      (database.failRunning candidate running now error) := by
  cases running with
  | some attempt => exact h.putAttempt _
  | none =>
    simp only [RepositoryState.failRunning, h.attemptsOf]
    split
    · exact h.putAttempt _
    · exact h

theorem picksRunning_database (h : Related memory database) (candidateId : String) :
    PicksRunning memory candidateId (Postgres.runningAttempt database candidateId) := by
  have hpick : PicksRunning database candidateId (Postgres.runningAttempt database candidateId) :=
    Storage.picksRunning_postgres candidateId
  cases hrunning : Postgres.runningAttempt database candidateId <;>
    simpa only [PicksRunning, hrunning, h.attemptsOf] using hpick

/-- The database fails the running attempt of the highest number. -/
theorem runningAttempt_eq_iff (h : Related memory database) {candidateId : String}
    (hkeyed : ∀ attempt ∈ memory.attemptsOf candidateId,
      attempt.attemptId = .delivery candidateId attempt.attemptNumber)
    {attempt : BacktestAttemptAudit} (hmem : attempt ∈ memory.attemptsOf candidateId)
    (hrunning : attempt.status = .running) :
    Postgres.runningAttempt database candidateId = some attempt ↔
      memory.RunsUpTo candidateId attempt.attemptNumber := by
  have htotal : Std.Total fun left right : BacktestAttemptAudit =>
      right.attemptNumber ≤ left.attemptNumber :=
    ⟨fun left right => Nat.le_total right.attemptNumber left.attemptNumber⟩
  have htrans : IsTrans BacktestAttemptAudit fun left right =>
      right.attemptNumber ≤ left.attemptNumber :=
    ⟨fun _ _ _ hab hbc => Nat.le_trans hbc hab⟩
  have hmax : ∀ highest, Postgres.runningAttempt database candidateId = some highest →
      memory.RunsUpTo candidateId highest.attemptNumber := by
    intro highest hhighest other hother hruns
    rw [h.attemptsOf] at hother
    have hkept : other ∈ (database.attemptsOf candidateId).filter fun attempt =>
        attempt.status == .running := List.mem_filter.mpr ⟨hother, by rw [hruns]; rfl⟩
    rcases head?_insertionSort_rel hhighest hkept with heq | hle
    · rw [heq]
    · exact hle
  constructor
  · intro hpicked
    exact hmax attempt hpicked
  · intro hupTo
    have hpick := picksRunning_database h candidateId
    cases hpicked : Postgres.runningAttempt database candidateId with
    | none =>
      rw [hpicked] at hpick
      exact absurd hrunning (hpick attempt hmem)
    | some highest =>
      rw [hpicked] at hpick
      obtain ⟨hhighest, hruns⟩ := hpick
      have hnumber : highest.attemptNumber = attempt.attemptNumber :=
        Nat.le_antisymm (hupTo highest hhighest hruns) (hmax highest hpicked attempt hmem hrunning)
      have hid : highest.attemptId = attempt.attemptId := by
        rw [hkeyed highest hhighest, hkeyed attempt hmem, hnumber]
      have hget := (Storage.mem_attemptsOf.mp hhighest).1
      rw [hid, (Storage.mem_attemptsOf.mp hmem).1] at hget
      exact hget.symm

theorem listTrades_putTrades (state : RepositoryState) (attemptId : AttemptId)
    (trades : List Trade) (other : AttemptId) :
    listTrades (state.putTrades attemptId trades) other =
      if other = attemptId then trades else listTrades state other := by
  simp only [listTrades, RepositoryState.putTrades, Table.get?_put]
  split <;> rfl

/-- The trades table takes all of the trades, or the insertion throws. -/
theorem saveTrades_iff {stored trades : List Trade} :
    (∃ rows, Postgres.saveTrades stored trades = .ok rows) ↔ Storable trades ∧
      ∀ trade ∈ trades, ∀ old ∈ stored, old.sequence ≠ trade.sequence ∧ old.id ≠ trade.id := by
  induction trades generalizing stored with
  | nil => simp [Postgres.saveTrades, Storable]
  | cons trade rest ih =>
    have hrisk : (!Postgres.validRiskField trade.stopLoss || !Postgres.validRiskField trade.takeProfit)
        = false ↔ Postgres.validRiskField trade.stopLoss = true ∧
          Postgres.validRiskField trade.takeProfit = true := by
      rw [Bool.or_eq_false_iff, Bool.not_eq_false', Bool.not_eq_false']
    have hclash : (stored.any fun old => old.sequence == trade.sequence || old.id == trade.id) =
        false ↔ ∀ old ∈ stored, old.sequence ≠ trade.sequence ∧ old.id ≠ trade.id := by
      simp [List.any_eq_false]
    have hstorable : Storable (trade :: rest) ↔
        (Postgres.validRiskField trade.stopLoss = true ∧
          Postgres.validRiskField trade.takeProfit = true) ∧
        (∀ later ∈ rest, trade.sequence ≠ later.sequence ∧ trade.id ≠ later.id) ∧ Storable rest := by
      simp only [Storable, List.forall_mem_cons, List.pairwise_cons]
      constructor
      · rintro ⟨⟨hfirst, hvalid⟩, hapart, hrest⟩
        exact ⟨hfirst, hapart, hvalid, hrest⟩
      · rintro ⟨hfirst, hapart, hvalid, hrest⟩
        exact ⟨⟨hfirst, hvalid⟩, hapart, hrest⟩
    rw [hstorable, ← hrisk, List.forall_mem_cons, ← hclash, Postgres.saveTrades]
    cases (!Postgres.validRiskField trade.stopLoss || !Postgres.validRiskField trade.takeProfit) with
    | true => simp
    | false =>
      cases stored.any fun old => old.sequence == trade.sequence || old.id == trade.id with
      | true => simp
      | false =>
        simp only [Bool.false_eq_true, if_false, true_and]
        rw [ih]
        simp only [List.forall_mem_append, List.forall_mem_singleton]
        constructor
        · rintro ⟨hrest, hall⟩
          exact ⟨⟨fun later hmem => (hall later hmem).2, hrest⟩, fun later hmem => (hall later hmem).1⟩
        · rintro ⟨⟨hapart, hrest⟩, hall⟩
          exact ⟨hrest, fun later hmem => ⟨hall later hmem, hapart later hmem⟩⟩

theorem Related.putTrades (h : Related memory database) (attemptId : AttemptId)
    (trades : List Trade) :
    Related (memory.putTrades attemptId trades) (database.putTrades attemptId trades) where
  candidates := h.candidates
  candidateIdempotency := h.candidateIdempotency
  attempts := h.attempts
  trades other := by rw [listTrades_putTrades, listTrades_putTrades, h.trades]
  dispatches := h.dispatches
  experiments := h.experiments

/-- Without trades the database writes no row, and none is missed. -/
theorem Related.putNoTrades (h : Related memory database) {attemptId : AttemptId}
    (hfresh : listTrades database attemptId = []) :
    Related (memory.putTrades attemptId []) database where
  candidates := h.candidates
  candidateIdempotency := h.candidateIdempotency
  attempts := h.attempts
  trades other := by
    rw [listTrades_putTrades, h.trades]
    split
    next hid => rw [hid, hfresh]
    next => rfl
  dispatches := h.dispatches
  experiments := h.experiments

theorem insertTrades_related (h : Related memory database) {attemptId : AttemptId}
    {trades : List Trade} (hfresh : listTrades database attemptId = [])
    (hstorable : Storable trades) :
    ∃ inserted, Postgres.insertTrades database attemptId trades = .ok inserted ∧
      Related (memory.putTrades attemptId trades) inserted := by
  unfold Postgres.insertTrades
  split
  next hempty =>
    rw [List.isEmpty_iff.mp hempty]
    exact ⟨database, rfl, h.putNoTrades hfresh⟩
  next =>
    obtain ⟨rows, hrows⟩ := saveTrades_iff.mpr
      (And.intro hstorable fun trade _ old hold => absurd hold List.not_mem_nil)
    rw [show ((database.trades.get? attemptId).map (·.trades)).getD [] = [] from hfresh, hrows]
    refine ⟨database.putTrades attemptId rows, rfl, ?_⟩
    rw [saveTrades_ok hrows]
    exact h.putTrades attemptId trades

theorem storable_of_insertTrades {attemptId : AttemptId} {trades : List Trade}
    {inserted : RepositoryState} (hfresh : listTrades database attemptId = [])
    (hinserted : Postgres.insertTrades database attemptId trades = .ok inserted) :
    Storable trades := by
  unfold Postgres.insertTrades at hinserted
  split at hinserted
  next hempty =>
    rw [List.isEmpty_iff.mp hempty]
    exact ⟨fun trade hmem => (by cases hmem), .nil⟩
  next =>
    rw [show ((database.trades.get? attemptId).map (·.trades)).getD [] = [] from hfresh]
      at hinserted
    obtain ⟨rows, hrows, -⟩ := bind_eq_ok.mp hinserted
    exact (saveTrades_iff.mp ⟨rows, hrows⟩).1

/-- In memory a worker write without a fence throws. -/
theorem failWorkerAttempt_unfenced {input : WorkerFailureInput}
    (hf : ∀ candidate attempt, ¬ memory.FenceOn input.candidateId input.attemptId input.fenceToken
      candidate attempt) :
    InMemory.failWorkerAttempt memory input = (memory, .error "BACKTEST_FENCE_LOST") := by
  unfold InMemory.failWorkerAttempt
  split
  next candidate attempt hcandidate hattempt =>
    rw [if_neg fun hfence => hf candidate attempt ⟨hcandidate, hattempt, hfence⟩]
  next => rfl

theorem persistWorkerSuccess_unfenced {input : WorkerSuccessInput}
    (hf : ∀ candidate attempt, ¬ memory.FenceOn input.candidateId input.attemptId input.fenceToken
      candidate attempt) :
    InMemory.persistWorkerSuccess memory input = (memory, .error "BACKTEST_FENCE_LOST") := by
  unfold InMemory.persistWorkerSuccess
  split
  next candidate attempt hcandidate hattempt =>
    rw [if_neg fun hfence => hf candidate attempt ⟨hcandidate, hattempt, hfence⟩]
  next => rfl

/-- In memory it is the attempt of the active number, when that one is running. -/
theorem runningAttempt_inMemory {candidate : StoredCandidate} {number : Nat}
    {attempt : BacktestAttemptAudit}
    (hkeyed : ∀ attempt ∈ memory.attemptsOf candidate.candidateId,
      attempt.attemptId = .delivery candidate.candidateId attempt.attemptNumber)
    (hnumber : candidate.activeAttemptNumber = some number)
    (hmem : attempt ∈ memory.attemptsOf candidate.candidateId)
    (hattempt : attempt.attemptNumber = number) (hrunning : attempt.status = .running) :
    InMemory.runningAttempt memory candidate = some attempt := by
  unfold InMemory.runningAttempt
  dsimp only
  cases hfind : (memory.attemptsOf candidate.candidateId).find? fun attempt =>
      attempt.status == .running && some attempt.attemptNumber == candidate.activeAttemptNumber with
  | none =>
    have hnot := List.find?_eq_none.mp hfind attempt hmem
    simp [hrunning, hattempt, hnumber] at hnot
  | some found =>
    have hfound := List.mem_of_find?_eq_some hfind
    have htest := List.find?_some hfind
    simp only [hnumber, Bool.and_eq_true, beq_iff_eq, Option.some.injEq] at htest
    have hid : found.attemptId = attempt.attemptId := by
      rw [hkeyed found hfound, hkeyed attempt hmem, htest.2, hattempt]
    have hget := (Storage.mem_attemptsOf.mp hfound).1
    rw [hid, (Storage.mem_attemptsOf.mp hmem).1] at hget
    exact hget.symm

/-- The dispatch of a candidate is the one under its id. -/
theorem redispatch_related (h : Related memory database)
    (hdispatched : ∀ jobId dispatch, memory.dispatches.get? jobId = some dispatch →
      dispatch.candidateId = jobId) (candidateId : String) (now : Int) (error : String) :
    Related (InMemory.redispatch memory candidateId now error)
      (Postgres.redispatch database candidateId now error) := by
  have hfind : (memory.dispatches.rows.find? fun dispatch => dispatch.candidateId == candidateId) =
      memory.dispatches.get? candidateId := by
    apply List.find?_congr
    intro dispatch hmem
    rw [hdispatched _ _ (Table.get?_of_mem_rows hmem)]
    rfl
  rw [InMemory.redispatch, Postgres.redispatch, ← h.dispatches, hfind]
  cases memory.dispatches.get? candidateId with
  | none => exact h
  | some dispatch =>
    by_cases hcancelled : dispatch.state = .cancelled
    · simp only [if_pos hcancelled]
      exact h
    · simp only [if_neg hcancelled]
      exact h.putDispatch _

/-- Only the attempts change. -/
theorem failRunning_frame (state : RepositoryState) (candidate : StoredCandidate)
    (running : Option BacktestAttemptAudit) (now : Int) (error : String) :
    (state.failRunning candidate running now error).candidates = state.candidates ∧
      (state.failRunning candidate running now error).dispatches = state.dispatches := by
  unfold RepositoryState.failRunning
  split
  · exact ⟨rfl, rfl⟩
  · split <;> exact ⟨rfl, rfl⟩

/-- What recovery leaves corresponds exactly if both have failed the same attempt. -/
theorem recovered_agree (h : Related memory database) {candidate row : StoredCandidate}
    {candidateId : String} {running running' : Option BacktestAttemptAudit} {now : Int}
    {error : String} (retrying : Bool)
    (hpick : PicksRunning memory candidateId running)
    (hpick' : PicksRunning memory candidateId running')
    (hdispatched : ∀ jobId dispatch, memory.dispatches.get? jobId = some dispatch →
      dispatch.candidateId = jobId) :
    let failed := (memory.failRunning candidate running now error).putCandidate row
    let failed' := (database.failRunning candidate running' now error).putCandidate row
    Agree (answered .recovered (if retrying then InMemory.redispatch failed candidateId now error
          else failed, .ok true))
        (answered .recovered (if retrying then Postgres.redispatch failed' candidateId now error
          else failed', .ok true)) ↔ running = running' := by
  intro failed failed'
  constructor
  · rintro ⟨-, hrelated⟩
    rw [← failRunning_eq_iff now error h.attempts hpick hpick']
    have hattempts := hrelated.attempts
    cases retrying with
    | false => exact hattempts
    | true =>
      have hmemory := (Storage.redispatch_inMemory failed candidateId now error).attempts
      have hdatabase := (Storage.redispatch_postgres failed' candidateId now error).attempts
      exact hmemory.symm.trans (hattempts.trans hdatabase)
  · rintro rfl
    have hfailed : Related failed failed' :=
      (h.failRunning candidate running now error).putCandidate row
    cases retrying with
    | false => exact ⟨rfl, hfailed⟩
    | true =>
      refine ⟨rfl, redispatch_related hfailed (fun jobId dispatch hget => ?_) candidateId now error⟩
      have hsame : failed.dispatches = memory.dispatches :=
        (failRunning_frame memory candidate running now error).2
      rw [hsame] at hget
      exact hdispatched jobId dispatch hget

theorem listAttempts_eq_nil {state : RepositoryState} {candidateId : String} :
    Postgres.listAttempts state candidateId = [] ↔ state.attemptsOf candidateId = [] := by
  rw [Postgres.listAttempts, ← List.length_eq_zero_iff, List.length_insertionSort,
    List.length_eq_zero_iff]

/-- The attempt that was claimed is among those of the answered candidate. -/
theorem listAttempts_claimed (state : RepositoryState) (candidate : StoredCandidate)
    {attempt : BacktestAttemptAudit} (howner : attempt.candidateId = candidate.candidateId) :
    Postgres.listAttempts ((state.putAttempt attempt).putCandidate candidate) candidate.candidateId
      ≠ [] := by
  rw [Ne, listAttempts_eq_nil]
  have hput : (state.putAttempt attempt).attempts.get? attempt.attemptId = some attempt :=
    Table.get?_put_of_eq _ rfl
  have hmem : attempt ∈ (state.putAttempt attempt).attemptsOf candidate.candidateId :=
    List.mem_filter.mpr ⟨Table.mem_rows_of_get? hput, beq_iff_eq.mpr howner⟩
  exact List.ne_nil_of_mem hmem

section Calls

variable (h : Related memory database) (scan : Postgres.ScanOrder)
include h

/-- A completion write under the fence that both repositories check. -/
theorem fencedWrite_agree (copy : StoredCandidate) (claimToken : String) (now : Int)
    (allowed : CandidateStatus → Bool) (write write' : StoredCandidate → StoredCandidate)
    (hid : ∀ candidate, (write candidate).candidateId = (write' candidate).candidateId) :
    Agree (answered (fun _ => .done) (memory.fencedWrite copy claimToken now allowed write))
        (answered (fun _ => .done) (database.fencedWrite copy claimToken now allowed write')) ↔
      ∀ candidate, memory.candidates.get? copy.candidateId = some candidate →
        allowed candidate.status = true → candidate.completionFence copy claimToken now = true →
        write candidate = write' candidate := by
  simp only [RepositoryState.fencedWrite, ← h.candidates]
  cases hstored : memory.candidates.get? copy.candidateId with
  | none => exact ⟨fun _ candidate hsome => (by cases hsome), fun _ => ⟨trivial, h⟩⟩
  | some candidate =>
    by_cases hguard : allowed candidate.status = true ∧
        candidate.completionFence copy claimToken now = true
    · simp only [if_pos hguard]
      constructor
      · rintro ⟨-, hrelated⟩ found hfound - -
        cases hfound
        exact hrelated.candidate_eq (hid candidate)
      · intro hsame
        rw [hsame candidate rfl hguard.1 hguard.2]
        exact ⟨rfl, h.putCandidate _⟩
    · simp only [if_neg hguard]
      refine ⟨fun _ found hfound hallowed hfence => ?_, fun _ => ⟨trivial, h⟩⟩
      cases hfound
      exact absurd ⟨hallowed, hfence⟩ hguard

theorem claimCompletion_agree (candidateId claimToken : String) (now leaseExpiresAt : Int) :
    Agree (RepositoryCall.run .inMemory scan memory
          (.claimCompletion candidateId claimToken now leaseExpiresAt))
        (RepositoryCall.run .postgres scan database
          (.claimCompletion candidateId claimToken now leaseExpiresAt)) ↔
      SameBranch memory (.claimCompletion candidateId claimToken now leaseExpiresAt) := by
  simp only [RepositoryCall.run, Storage.claimCompletion, InMemory.claimCompletion,
    Postgres.claimCompletion, ← h.candidates, SameBranch, StoredCandidate.Exhausted, Nat.not_le]
  cases hstored : memory.candidates.get? candidateId with
  | none => exact ⟨fun _ candidate hsome => (by cases hsome), fun _ => ⟨rfl, h⟩⟩
  | some candidate =>
    have hid : candidate.candidateId = candidateId := Table.key_of_get? hstored
    by_cases hguard : candidate.completionDue now = true ∧
        candidate.completionAttemptCount < candidate.completionMaxAttempts
    · simp only [if_pos hguard]
      generalize hclaimed : candidate.completionClaimed claimToken now leaseExpiresAt = claimed
      have hkey : claimed.candidateId = candidateId := by
        rw [← hclaimed]
        exact hid
      have hlist : Postgres.listAttempts (database.putCandidate claimed) claimed.candidateId = [] ↔
          memory.attemptsOf candidateId = [] := by
        rw [listAttempts_eq_nil, hkey, h.attemptsOf]
        rfl
      constructor
      · rintro ⟨hanswer, -⟩ found hfound - -
        have hclaim := Option.some.inj (RepositoryAnswer.completionClaim.inj hanswer)
        exact hlist.mp (congrArg (·.candidate.attempts) hclaim).symm
      · intro hbranch
        have hempty := hlist.mpr (hbranch candidate rfl hguard.1 hguard.2)
        refine ⟨?_, h.putCandidate _⟩
        simp only [answered, Except.map, Postgres.candidateFrom, hempty]
        rfl
    · simp only [if_neg hguard]
      refine ⟨fun _ found hfound hdue hbudget => ?_, fun _ => ⟨rfl, h⟩⟩
      cases hfound
      exact absurd ⟨hdue, hbudget⟩ hguard

theorem readLatestCompletedAttempt_agree (candidateId : String) :
    Agree (RepositoryCall.run .inMemory scan memory (.readLatestCompletedAttempt candidateId))
      (RepositoryCall.run .postgres scan database (.readLatestCompletedAttempt candidateId)) := by
  refine ⟨?_, h⟩
  simp only [RepositoryCall.run, Storage.readLatestCompletedAttempt,
    InMemory.readLatestCompletedAttempt, Postgres.readLatestCompletedAttempt,
    h.attemptsOf candidateId]
  rfl

omit h in
/-- The database may deliver the rows in any order. -/
theorem exists_scan {rows scanned : List StoredCandidate} (hperm : scanned.Perm rows) :
    ∃ scan : Postgres.ScanOrder, scan.candidates rows = scanned := by
  refine ⟨{ Postgres.ScanOrder.inserted with
    candidates := fun delivered => if delivered = rows then scanned else delivered
    candidates_perm := fun delivered => ?_ }, if_pos rfl⟩
  split
  next heq => rwa [heq]
  next => exact .refl delivered

omit h in
/-- The rows that are due may come in any order of their own. -/
theorem exists_scan_filter (p : StoredCandidate → Bool) {rows scanned : List StoredCandidate}
    (hperm : scanned.Perm (rows.filter p)) :
    ∃ scan : Postgres.ScanOrder, (scan.candidates rows).filter p = scanned := by
  have hrows : (scanned ++ rows.filter fun row => !p row).Perm rows :=
    (hperm.append_right _).trans (List.filter_append_perm p rows)
  obtain ⟨scan, hscan⟩ := exists_scan hrows
  refine ⟨scan, ?_⟩
  have hkept : scanned.filter p = scanned := List.filter_eq_self.mpr fun row hrow =>
    (List.mem_filter.mp (hperm.mem_iff.mp hrow)).2
  rw [hscan, List.filter_append, hkept, List.filter_filter]
  simp

omit h in
/-- Rows of one table are told apart by their ids. -/
theorem map_candidateId_inj {rows rows' : List StoredCandidate}
    (hrows : ∀ row ∈ rows, row ∈ memory.candidates.rows)
    (hrows' : ∀ row ∈ rows', row ∈ memory.candidates.rows)
    (hids : rows.map (·.candidateId) = rows'.map (·.candidateId)) : rows = rows' := by
  have hread : ∀ listed : List StoredCandidate, (∀ row ∈ listed, row ∈ memory.candidates.rows) →
      (listed.map (·.candidateId)).map memory.candidates.get? = listed.map some := by
    intro listed hmem
    rw [List.map_map]
    exact List.map_congr_left fun row hrow => Table.get?_of_mem_rows (hmem row hrow)
  have hsome : rows.map some = rows'.map some := by
    rw [← hread rows hrows, ← hread rows' hrows', hids]
  exact (Option.some_injective _).list_map hsome

theorem listDueCompletions_agree (now : Int) (limit : Nat) :
    (∀ scan, Agree (RepositoryCall.run .inMemory scan memory (.listDueCompletions now limit))
        (RepositoryCall.run .postgres scan database (.listDueCompletions now limit))) ↔
      SameBranch memory (.listDueCompletions now limit) := by
  have hdue : ∀ candidate, candidate ∈ memory.dueCompletions now ↔
      candidate ∈ memory.candidates.rows.filter fun candidate => candidate.completionDue now :=
    fun candidate => List.mem_insertionSort _
  have hbranch := @take_scan_iff _ StoredCandidate.updatedAt _ (fun candidate =>
    decide (candidate.completionAttemptCount < candidate.completionMaxAttempts)) limit
    (memory.candidates.rows.filter fun candidate => candidate.completionDue now)
  simp only [← hdue, decide_eq_true_eq] at hbranch
  simp only [SameBranch, StoredCandidate.Exhausted, Nat.not_le]
  have hlisted : ∀ scan, Postgres.listDueCompletions scan database now limit =
      (((((scan.candidates memory.candidates.rows).filter (·.completionDue now)).filter
        fun candidate => decide (candidate.completionAttemptCount < candidate.completionMaxAttempts)
        ).insertionSort fun left right => left.updatedAt ≤ right.updatedAt).take limit).map
          (·.candidateId) := by
    intro scan
    rw [Postgres.listDueCompletions, ← h.candidates, List.filter_filter]
    simp only [Bool.and_comm]
  refine Iff.trans ⟨fun hall scanned hperm => ?_, fun hall scan => ?_⟩ hbranch
  · obtain ⟨scan, rfl⟩ := exists_scan_filter (·.completionDue now) hperm
    have hids := RepositoryAnswer.due.inj (hall scan).1
    simp only [InMemory.listDueCompletions, Storage.listDueCompletions, hlisted] at hids
    refine @map_candidateId_inj memory _ _ (fun row hrow => ?_) (fun row hrow => ?_) hids
    · exact (List.mem_filter.mp ((hdue row).mp (List.mem_of_mem_take hrow))).1
    · have hmem := (List.mem_insertionSort _).mp (List.mem_of_mem_take hrow)
      exact (List.mem_filter.mp (hperm.mem_iff.mp (List.mem_filter.mp hmem).1)).1
  · refine ⟨?_, h⟩
    have hsame := hall _ ((scan.candidates_perm memory.candidates.rows).filter (·.completionDue now))
    simp only [RepositoryCall.run, SameAnswer, InMemory.listDueCompletions,
      Storage.listDueCompletions, hlisted]
    exact congrArg (fun rows => RepositoryAnswer.due (rows.map (·.candidateId))) hsame

theorem failCompletion_agree (copy : StoredCandidate) (claimToken : String)
    (retryAt : Option Int) (now : Int) (error : String) :
    Agree (RepositoryCall.run .inMemory scan memory
          (.failCompletion copy claimToken retryAt now error))
        (RepositoryCall.run .postgres scan database
          (.failCompletion copy claimToken retryAt now error)) ↔
      SameBranch memory (.failCompletion copy claimToken retryAt now error) := by
  have hwrite := fencedWrite_agree h copy claimToken now (fun _ => true)
    (fun candidate => candidate.completionFailed candidate retryAt now error)
    (fun candidate => candidate.completionFailed copy retryAt now error) fun _ => rfl
  simp only [completionFailed_eq_iff, true_implies] at hwrite
  exact hwrite

section Claims

variable {input : WorkerClaimInput}
  (hclaimable : ∀ candidate, memory.candidates.get? input.candidateId = some candidate →
    Postgres.claimable candidate input.now = InMemory.claimable candidate input.now)
  (hattempt : ∀ candidate, memory.candidates.get? input.candidateId = some candidate →
    InMemory.claimable candidate input.now = true →
    Postgres.attemptNumbered database input.candidateId input.deliveryAttempt =
      memory.attempts.get? input.attemptId)
include hclaimable hattempt

/-- Both find the attempt of the delivery and claim from the same rows, but what the database
answers with is never without attempts. -/
theorem claimWorkerAttempt_agree :
    Agree (RepositoryCall.run .inMemory scan memory (.claimWorkerAttempt input))
        (RepositoryCall.run .postgres scan database (.claimWorkerAttempt input)) ↔
      SameBranch memory (.claimWorkerAttempt input) := by
  simp only [RepositoryCall.run, Storage.claimWorkerAttempt, InMemory.claimWorkerAttempt,
    Postgres.claimWorkerAttempt, ← h.candidates, ← h.attempts, SameBranch]
  cases hstored : memory.candidates.get? input.candidateId with
  | none => exact ⟨fun _ candidate hsome => (by cases hsome), fun _ => ⟨rfl, h⟩⟩
  | some candidate =>
    have hid : candidate.candidateId = input.candidateId := Table.key_of_get? hstored
    simp only [hclaimable candidate hstored]
    by_cases hguard : candidate.queueJobId = input.queueJobId ∧
        InMemory.claimable candidate input.now = true
    · simp only [if_pos hguard, hattempt candidate hstored hguard.2]
      have howner : ∀ attempt, memory.attempts.get? input.attemptId = some attempt →
          attempt.candidateId = input.candidateId := by
        intro attempt hget
        rw [← hattempt candidate hstored hguard.2] at hget
        exact (Storage.mem_attemptsOf.mp (List.mem_of_find?_eq_some hget)).2
      refine iff_of_false ?_ fun hbranch => ?_
      · rintro ⟨hanswer, -⟩
        cases hget : memory.attempts.get? input.attemptId with
        | none =>
          rw [hget] at hanswer
          have hclaim := Option.some.inj (RepositoryAnswer.workerClaim.inj hanswer)
          exact listAttempts_claimed database (candidate.claimed input) hid.symm
            (congrArg (·.candidate.attempts) hclaim).symm
        | some attempt =>
          rw [hget] at hanswer
          have hclaim := Option.some.inj (RepositoryAnswer.workerClaim.inj hanswer)
          have hlisted := @listAttempts_claimed database (candidate.claimed input)
            (attempt.claimed input) ((howner attempt hget).trans hid.symm)
          exact hlisted (congrArg (·.candidate.attempts) hclaim).symm
      · have hnone := hbranch candidate rfl hguard.1
        rw [hguard.2] at hnone
        cases hnone
    · simp only [if_neg hguard]
      refine ⟨fun _ found hfound hqueue => ?_, fun _ => ⟨rfl, h⟩⟩
      cases hfound
      exact Bool.eq_false_iff.mpr fun hclaim => hguard ⟨hqueue, hclaim⟩

/-- But for the attempts of the candidate the answers to a worker are the same. -/
theorem claimWorkerAttempt_related :
    let claimed := RepositoryCall.run .inMemory scan memory (.claimWorkerAttempt input)
    let claimed' := RepositoryCall.run .postgres scan database (.claimWorkerAttempt input)
    claimed.2.map (·.withoutAttempts) = claimed'.2.map (·.withoutAttempts) ∧
      Related claimed.1 claimed'.1 := by
  simp only [RepositoryCall.run, Storage.claimWorkerAttempt, InMemory.claimWorkerAttempt,
    Postgres.claimWorkerAttempt, ← h.candidates, ← h.attempts]
  cases hstored : memory.candidates.get? input.candidateId with
  | none => exact ⟨rfl, h⟩
  | some candidate =>
    simp only [hclaimable candidate hstored]
    by_cases hguard : candidate.queueJobId = input.queueJobId ∧
        InMemory.claimable candidate input.now = true
    · simp only [if_pos hguard, hattempt candidate hstored hguard.2]
      cases hget : memory.attempts.get? input.attemptId with
      | none => exact ⟨rfl, (h.putAttempt _).putCandidate _⟩
      | some attempt => exact ⟨rfl, (h.putAttempt _).putCandidate _⟩
    · simp only [if_neg hguard]
      exact ⟨rfl, h⟩

end Claims

/-- So are the answers to a completion processor. -/
theorem claimCompletion_related (candidateId claimToken : String) (now leaseExpiresAt : Int) :
    let call := RepositoryCall.claimCompletion candidateId claimToken now leaseExpiresAt
    (call.run .inMemory scan memory).2.map (·.withoutAttempts) =
        (call.run .postgres scan database).2.map (·.withoutAttempts) ∧
      Related (call.run .inMemory scan memory).1 (call.run .postgres scan database).1 := by
  simp only [RepositoryCall.run, Storage.claimCompletion, InMemory.claimCompletion,
    Postgres.claimCompletion, ← h.candidates]
  cases memory.candidates.get? candidateId with
  | none => exact ⟨rfl, h⟩
  | some candidate =>
    by_cases hguard : candidate.completionDue now = true ∧
        candidate.completionAttemptCount < candidate.completionMaxAttempts
    · simp only [if_pos hguard]
      exact ⟨rfl, h.putCandidate _⟩
    · simp only [if_neg hguard]
      exact ⟨rfl, h⟩

theorem fenced_of_fenceOn {candidateId fenceToken : String} {attemptId : AttemptId}
    {candidate : StoredCandidate} {attempt : BacktestAttemptAudit}
    (hf : memory.FenceOn candidateId attemptId fenceToken candidate attempt)
    (hwritable : Postgres.workerWritable candidate.status = true) :
    Postgres.fenced database candidateId attemptId fenceToken =
      if attempt.status = .running then some (candidate, attempt) else none := by
  obtain ⟨hcandidate, hattempt, htoken, htoken'⟩ := hf
  simp only [Postgres.fenced, ← h.candidates, ← h.attempts, hcandidate, hattempt, htoken, htoken',
    hwritable, true_and, and_true]

theorem fenced_of_not_fenceOn {candidateId fenceToken : String} {attemptId : AttemptId}
    (hf : ∀ candidate attempt,
      ¬ memory.FenceOn candidateId attemptId fenceToken candidate attempt) :
    Postgres.fenced database candidateId attemptId fenceToken = none := by
  cases hfenced : Postgres.fenced database candidateId attemptId fenceToken with
  | none => rfl
  | some found =>
    obtain ⟨hcandidate, hattempt, htoken, htoken', -⟩ := Storage.fenced_postgres hfenced
    rw [← h.candidates] at hcandidate
    rw [← h.attempts] at hattempt
    exact absurd ⟨hcandidate, hattempt, htoken, htoken'⟩ (hf found.1 found.2)

theorem failWorkerAttempt_agree {input : WorkerFailureInput}
    (hwritable : ∀ candidate attempt,
      memory.FenceOn input.candidateId input.attemptId input.fenceToken candidate attempt →
      Postgres.workerWritable candidate.status = true) :
    Agree (RepositoryCall.run .inMemory scan memory (.failWorkerAttempt input))
        (RepositoryCall.run .postgres scan database (.failWorkerAttempt input)) ↔
      SameBranch memory (.failWorkerAttempt input) := by
  simp only [RepositoryCall.run, Storage.failWorkerAttempt, Postgres.failWorkerAttempt, SameBranch]
  by_cases hf : ∃ candidate attempt,
      memory.FenceOn input.candidateId input.attemptId input.fenceToken candidate attempt
  · obtain ⟨candidate, attempt, hf⟩ := hf
    rw [fenced_of_fenceOn h hf (hwritable candidate attempt hf)]
    obtain ⟨hcandidate, hattempt, htoken, htoken'⟩ := hf
    have hmemory := InMemory.failWorkerAttempt.eq_1 memory input
    simp only [hcandidate, hattempt, if_pos (And.intro htoken htoken')] at hmemory
    rw [hmemory]
    constructor
    · rintro ⟨hanswer, hrelated⟩ found row ⟨hfound, hrow, -⟩
      cases hcandidate.symm.trans hfound
      cases hattempt.symm.trans hrow
      by_cases hrunning : attempt.status = .running
      · refine ⟨hrunning, fun hcancelled => ?_⟩
        simp only [if_pos hrunning, hcancelled, decide_true, if_true] at hrelated
        have hwritten := hrelated.candidate_eq rfl
        exact ⟨congrArg StoredCandidate.failureKind hwritten,
          congrArg StoredCandidate.failureCode hwritten,
          congrArg StoredCandidate.lastError hwritten⟩
      · simp only [if_neg hrunning] at hanswer
        exact hanswer.elim
    · intro hbranch
      obtain ⟨hrunning, hclean⟩ := hbranch candidate attempt ⟨hcandidate, hattempt, htoken, htoken'⟩
      simp only [if_pos hrunning]
      by_cases hcancelled : candidate.status = .cancelled
      · obtain ⟨hkind, hcode, herror⟩ := hclean hcancelled
        simp only [hcancelled, decide_true, if_true]
        simp only [StoredCandidate.released, hkind, hcode, herror]
        exact ⟨rfl, (h.putAttempt _).putCandidate _⟩
      · simp only [hcancelled, decide_false]
        exact ⟨rfl, (h.putAttempt _).putCandidate _⟩
  · simp only [not_exists] at hf
    rw [fenced_of_not_fenceOn h hf, failWorkerAttempt_unfenced hf]
    exact ⟨fun _ candidate attempt hfound => absurd hfound (hf candidate attempt),
      fun _ => ⟨trivial, h⟩⟩

theorem persistWorkerSuccess_agree {input : WorkerSuccessInput}
    (hwritable : ∀ candidate attempt,
      memory.FenceOn input.candidateId input.attemptId input.fenceToken candidate attempt →
      Postgres.workerWritable candidate.status = true)
    (hfresh : ∀ attempt, memory.attempts.get? input.attemptId = some attempt →
      attempt.status = .running → listTrades memory input.attemptId = []) :
    Agree (RepositoryCall.run .inMemory scan memory (.persistWorkerSuccess input))
        (RepositoryCall.run .postgres scan database (.persistWorkerSuccess input)) ↔
      SameBranch memory (.persistWorkerSuccess input) := by
  simp only [RepositoryCall.run, Storage.persistWorkerSuccess, Postgres.persistWorkerSuccess,
    SameBranch]
  by_cases hf : ∃ candidate attempt,
      memory.FenceOn input.candidateId input.attemptId input.fenceToken candidate attempt
  · obtain ⟨candidate, attempt, hf⟩ := hf
    rw [fenced_of_fenceOn h hf (hwritable candidate attempt hf)]
    obtain ⟨hcandidate, hattempt, htoken, htoken'⟩ := hf
    have hmemory := InMemory.persistWorkerSuccess.eq_1 memory input
    simp only [hcandidate, hattempt, if_pos (And.intro htoken htoken')] at hmemory
    rw [hmemory]
    have hfresh' : attempt.status = .running → listTrades database input.attemptId = [] :=
      fun hrunning => (h.trades _).symm.trans (hfresh attempt hattempt hrunning)
    by_cases hrunning : attempt.status = .running
    · have hnone : ∀ written, listTrades (database.putAttempt written) input.attemptId = [] :=
        fun _ => (h.trades _).symm.trans (hfresh attempt hattempt hrunning)
      have hid : attempt.attemptId = input.attemptId := Table.key_of_get? hattempt
      have hkey : (attempt.completed (decide (candidate.status = .cancelled)) input.trades.length
          input.completedAt).attemptId = input.attemptId := hid
      simp only [if_pos hrunning]
      generalize attempt.completed (decide (candidate.status = .cancelled)) input.trades.length
        input.completedAt = completed at hkey
      rw [hkey]
      constructor
      · rintro ⟨hanswer, hrelated⟩ found row ⟨hfound, hrow, -⟩
        cases hcandidate.symm.trans hfound
        cases hattempt.symm.trans hrow
        cases hinserted : Postgres.insertTrades (database.putAttempt completed) input.attemptId
            input.trades with
        | error error =>
          simp only [hinserted] at hanswer
          exact hanswer.elim
        | ok inserted =>
          simp only [hinserted] at hrelated
          refine ⟨hrunning, fun hcancelled => ?_, storable_of_insertTrades (hnone _) hinserted⟩
          simp only [if_pos hcancelled] at hrelated
          exact congrArg StoredCandidate.completionNextRetryAt (hrelated.candidate_eq rfl)
      · intro hbranch
        obtain ⟨-, hclean, hstorable⟩ :=
          hbranch candidate attempt ⟨hcandidate, hattempt, htoken, htoken'⟩
        obtain ⟨inserted, hinserted, hrelated⟩ :=
          insertTrades_related (h.putAttempt completed) (hnone _) hstorable
        simp only [hinserted]
        by_cases hcancelled : candidate.status = .cancelled
        · simp only [if_pos hcancelled, StoredCandidate.released, hclean hcancelled]
          exact ⟨rfl, hrelated.putCandidate _⟩
        · simp only [if_neg hcancelled]
          exact ⟨rfl, hrelated.putCandidate _⟩
    · simp only [if_neg hrunning]
      exact ⟨fun hagree => hagree.1.elim, fun hbranch =>
        absurd (hbranch candidate attempt ⟨hcandidate, hattempt, htoken, htoken'⟩).1 hrunning⟩
  · simp only [not_exists] at hf
    rw [fenced_of_not_fenceOn h hf, persistWorkerSuccess_unfenced hf]
    exact ⟨fun _ candidate attempt hfound => absurd hfound (hf candidate attempt),
      fun _ => ⟨trivial, h⟩⟩

theorem recoverAbandonedAttempt_agree {candidateId : String} {now : Int} {error : String}
    (hrunning : ∀ candidate, memory.candidates.get? candidateId = some candidate →
      candidate.status = .backtesting → ∃ attempt ∈ memory.attemptsOf candidateId,
        candidate.activeAttemptNumber = some attempt.attemptNumber ∧ attempt.status = .running)
    (hkeyed : ∀ candidate, memory.candidates.get? candidateId = some candidate →
      candidate.status = .backtesting → ∀ attempt ∈ memory.attemptsOf candidateId,
        attempt.attemptId = .delivery candidateId attempt.attemptNumber)
    (hqueued : ∀ candidate, memory.candidates.get? candidateId = some candidate →
      candidate.queueJobId = candidateId)
    (hdispatched : ∀ jobId dispatch, memory.dispatches.get? jobId = some dispatch →
      dispatch.candidateId = jobId) :
    Agree (RepositoryCall.run .inMemory scan memory (.recoverAbandonedAttempt candidateId now error))
        (RepositoryCall.run .postgres scan database (.recoverAbandonedAttempt candidateId now error)) ↔
      SameBranch memory (.recoverAbandonedAttempt candidateId now error) := by
  simp only [RepositoryCall.run, Storage.recoverAbandonedAttempt, InMemory.recoverAbandonedAttempt,
    Postgres.recoverAbandonedAttempt, SameBranch, ← h.candidates]
  cases hstored : memory.candidates.get? candidateId with
  | none => exact ⟨fun _ candidate _ hsome => (by cases hsome), fun _ => ⟨rfl, h⟩⟩
  | some candidate =>
    by_cases hguard : candidate.status = .backtesting ∧
        candidate.activeLeaseExpiresAt.any (· ≤ now) = true
    · have hid : candidate.candidateId = candidateId := Table.key_of_get? hstored
      obtain ⟨attempt, hmem, hnumber, hruns⟩ := hrunning candidate hstored hguard.1
      have hkeys := hkeyed candidate hstored hguard.1
      have hmemory : InMemory.runningAttempt memory candidate = some attempt :=
        runningAttempt_inMemory (hid ▸ hkeys) hnumber (hid ▸ hmem) rfl hruns
      have hpick : PicksRunning memory candidateId (Postgres.runningAttempt database candidateId) :=
        picksRunning_database h candidateId
      have hbranch : (∀ found number, some candidate = some found → found.status = .backtesting →
          found.activeLeaseExpiresAt.any (· ≤ now) = true →
          found.activeAttemptNumber = some number → memory.RunsUpTo candidateId number) ↔
          Postgres.runningAttempt database candidateId = some attempt := by
        rw [runningAttempt_eq_iff h hkeys hmem hruns]
        constructor
        · intro hall
          exact hall candidate attempt.attemptNumber rfl hguard.1 hguard.2 hnumber
        · rintro hupTo found number ⟨⟩ - - hfound
          cases hnumber.symm.trans hfound
          exact hupTo
      rw [hbranch]
      have hpickMemory : PicksRunning memory candidateId (some attempt) := ⟨hmem, hruns⟩
      simp only [if_pos hguard, hmemory, hnumber, hqueued candidate hstored, Option.getD_some]
      exact (recovered_agree h _ hpickMemory hpick hdispatched).trans eq_comm
    · simp only [if_neg hguard]
      refine ⟨?_, fun _ => ⟨rfl, h⟩⟩
      rintro - found number ⟨⟩ hstatus hlease -
      exact absurd ⟨hstatus, hlease⟩ hguard

theorem repairTerminalQueueFailure_agree {candidateId error : String} {now : Int}
    (hkeyed : ∀ candidate, memory.candidates.get? candidateId = some candidate →
      early candidate.status = true → ∀ attempt ∈ memory.attemptsOf candidateId,
        attempt.attemptId = .delivery candidateId attempt.attemptNumber) :
    Agree (RepositoryCall.run .inMemory scan memory
          (.repairTerminalQueueFailure candidateId error now))
        (RepositoryCall.run .postgres scan database
          (.repairTerminalQueueFailure candidateId error now)) ↔
      SameBranch memory (.repairTerminalQueueFailure candidateId error now) := by
  simp only [RepositoryCall.run, Storage.repairTerminalQueueFailure,
    InMemory.repairTerminalQueueFailure, Postgres.repairTerminalQueueFailure, SameBranch,
    ← h.candidates]
  cases hstored : memory.candidates.get? candidateId with
  | none => exact ⟨fun _ candidate hsome => (by cases hsome), fun _ => ⟨rfl, h⟩⟩
  | some candidate =>
    have hid : candidate.candidateId = candidateId := Table.key_of_get? hstored
    by_cases hdone : terminal candidate.status = true ∨ candidate.status = .terminalFailurePending
    · simp only [if_pos hdone]
      refine ⟨?_, fun _ => ⟨rfl, h⟩⟩
      rintro - found ⟨⟩ hopen hpending
      rcases hdone with hterminal | hstatus
      · rw [hterminal] at hopen
        cases hopen
      · exact absurd hstatus hpending
    · obtain ⟨hopen, hpending⟩ := not_or.mp hdone
      rw [Bool.not_eq_true] at hopen
      simp only [if_neg hdone]
      by_cases hearly : early candidate.status = true
      · have hwritten : candidate.status = .queued ∨ candidate.status = .backtesting ∨
            candidate.status = .retryWait := by
          cases hs : candidate.status <;> simp [hs, early] at hearly ⊢
        have hkeys := hkeyed candidate hstored hearly
        have hpick : PicksRunning memory candidateId ((memory.attemptsOf candidateId).find?
          fun attempt => attempt.status == .running) := Storage.picksRunning_find? candidateId
        have hpick' := picksRunning_database h candidateId
        have hbranch : (∀ found, some candidate = some found → terminal found.status = false →
            found.status ≠ .terminalFailurePending → early found.status = true ∧
            ∀ first, (memory.attemptsOf candidateId).find? (·.status == .running) = some first →
              memory.RunsUpTo candidateId first.attemptNumber) ↔
            ((memory.attemptsOf candidateId).find? fun attempt => attempt.status == .running) =
              Postgres.runningAttempt database candidateId := by
          cases hfind : (memory.attemptsOf candidateId).find? fun attempt =>
              attempt.status == .running with
          | none =>
            rw [hfind] at hpick
            cases hpicked : Postgres.runningAttempt database candidateId with
            | none =>
              refine ⟨fun _ => rfl, ?_⟩
              rintro - found ⟨⟩ - -
              exact ⟨hearly, fun first hfirst => by cases hfirst⟩
            | some highest =>
              rw [hpicked] at hpick'
              exact absurd hpick'.2 (hpick highest hpick'.1)
          | some first =>
            rw [hfind] at hpick
            rw [eq_comm, runningAttempt_eq_iff h hkeys hpick.1 hpick.2]
            constructor
            · intro hall
              exact (hall candidate rfl hopen hpending).2 first rfl
            · rintro hupTo found ⟨⟩ - -
              refine ⟨hearly, ?_⟩
              rintro other ⟨⟩
              exact hupTo
        rw [hbranch]
        simp only [if_pos hwritten]
        generalize ((memory.attemptsOf candidateId).find? fun attempt => attempt.status == .running)
          = running at hpick
        constructor
        · rintro ⟨-, hrelated⟩
          exact (failRunning_eq_iff now error h.attempts hpick hpick').mp hrelated.attempts
        · rintro rfl
          exact ⟨rfl, (h.failRunning candidate _ now error).putCandidate _⟩
      · have hlate : ¬ (candidate.status = .queued ∨ candidate.status = .backtesting ∨
            candidate.status = .retryWait) := by
          cases hs : candidate.status <;> simp [hs, early] at hearly ⊢
        simp only [if_neg hlate]
        constructor
        · rintro ⟨-, hrelated⟩
          have hkept : (database.failRunning candidate
              (Postgres.runningAttempt database candidateId) now error).candidates.get? candidateId =
              some candidate := by
            rw [(failRunning_frame database candidate _ now error).1, ← h.candidates, hstored]
          have hrow := congrArg (·.get? candidateId) hrelated.candidates
          have hput := Table.get?_put_of_eq (v := candidate.repaired now error)
            (memory.failRunning candidate ((memory.attemptsOf candidateId).find?
              fun attempt => attempt.status == .running) now error).candidates hid.symm
          have hsame := Option.some.inj (hput.symm.trans (hrow.trans hkept))
          exact absurd (congrArg StoredCandidate.status hsame).symm hpending
        · intro hall
          exact absurd (hall candidate rfl hopen hpending).1 hearly

end Calls

/-- What runs keep of the workers and of the rows that are running. -/
def ReachInv (world : World) : Prop := WorkerInv world ∧ RunningInv world

theorem reachInv_after (storage : Storage) {steps : List Step}
    (hlegal : storage.system.Legal (fun _ _ => True) World.start steps) :
    ReachInv (storage.after steps) := by
  refine hlegal.invariant ReachInv ?_ ⟨Storage.workerInv_start, Storage.runningInv_start⟩
  rintro world step ⟨hworkers, hrunning⟩ henabled -
  exact ⟨Storage.workerInv_next hworkers henabled,
    Storage.runningInv_next hworkers hrunning henabled⟩

section Reached

variable {world : World} (hmemory : Related memory world.repository)
include hmemory

theorem stored_memory (candidateId : String) :
    world.stored candidateId = memory.candidates.get? candidateId :=
  congrArg (·.get? candidateId) hmemory.candidates.symm

variable (hinv : ReachInv world)
include hinv

theorem workerWritable_of_fenceOn {candidateId fenceToken : String} {attemptId : AttemptId}
    {candidate : StoredCandidate} {attempt : BacktestAttemptAudit}
    (hf : memory.FenceOn candidateId attemptId fenceToken candidate attempt) :
    Postgres.workerWritable candidate.status = true := by
  obtain ⟨hcandidate, -, htoken, -⟩ := hf
  have hstored := (stored_memory hmemory candidateId).trans hcandidate
  rcases hinv.1.fenced _ _ hstored (by simp [htoken]) with hs | hs <;> rw [hs] <;> rfl

theorem attemptId_memory {candidateId : String} {candidate : StoredCandidate}
    (hcandidate : memory.candidates.get? candidateId = some candidate)
    (hearly : early candidate.status = true) {attempt : BacktestAttemptAudit}
    (hmem : attempt ∈ memory.attemptsOf candidateId) :
    attempt.attemptId = .delivery candidateId attempt.attemptNumber := by
  rw [hmemory.attemptsOf] at hmem
  exact Storage.attemptId_of_early hinv.1 ((stored_memory hmemory candidateId).trans hcandidate)
    hearly hmem

/-- The attempt of the active number runs while the candidate does. -/
theorem running_memory {candidateId : String} {candidate : StoredCandidate}
    (hcandidate : memory.candidates.get? candidateId = some candidate)
    (hs : candidate.status = .backtesting) : ∃ attempt ∈ memory.attemptsOf candidateId,
      candidate.activeAttemptNumber = some attempt.attemptNumber ∧ attempt.status = .running := by
  have hstored := (stored_memory hmemory candidateId).trans hcandidate
  obtain ⟨number, attempt, hnumber, hget, hruns⟩ := hinv.2.running _ _ hstored hs
  obtain ⟨howner, hattempt⟩ := hinv.1.keyed _ _ hget
  have hmem : attempt ∈ world.repository.attemptsOf candidateId :=
    Storage.mem_attemptsOf.mpr ⟨Table.get?_key hget, howner⟩
  rw [← hmemory.attemptsOf] at hmem
  exact ⟨attempt, hmem, by rw [hnumber, hattempt]; rfl, hruns⟩

theorem claimable_memory {candidateId : String} {candidate : StoredCandidate}
    (hcandidate : memory.candidates.get? candidateId = some candidate) (now : Int) :
    Postgres.claimable candidate now = InMemory.claimable candidate now := by
  have hstored := (stored_memory hmemory candidateId).trans hcandidate
  cases hs : candidate.status with
  | backtesting =>
    obtain ⟨lease, hlease⟩ := Option.isSome_iff_exists.mp (hinv.2.leased _ _ hstored hs)
    simp [Postgres.claimable, InMemory.claimable, hs, hlease, ← decide_not]
  | _ => simp [Postgres.claimable, InMemory.claimable, hs]

/-- No trades are stored for an attempt that is running. -/
theorem listTrades_memory {attemptId : AttemptId} {attempt : BacktestAttemptAudit}
    (hget : memory.attempts.get? attemptId = some attempt) (hruns : attempt.status = .running) :
    listTrades memory attemptId = [] := by
  rw [hmemory.trades, listTrades]
  cases htrades : world.repository.trades.get? attemptId with
  | none => rfl
  | some trades =>
    rw [hmemory.attempts] at hget
    exact absurd hruns ((hinv.2.traded _ _ htrades).2 attempt hget)

theorem claimable_reached (input : WorkerClaimInput) : ∀ candidate,
    memory.candidates.get? input.candidateId = some candidate →
      Postgres.claimable candidate input.now = InMemory.claimable candidate input.now :=
  fun _ hcandidate => claimable_memory hmemory hinv hcandidate input.now

/-- The attempt of a delivery is found by its number as by its id. -/
theorem attemptNumbered_reached {database : RepositoryState}
    (hdatabase : Related database world.repository) {input : WorkerClaimInput}
    (hid : input.attemptId = .delivery input.candidateId input.deliveryAttempt) : ∀ candidate,
    memory.candidates.get? input.candidateId = some candidate →
      InMemory.claimable candidate input.now = true →
      Postgres.attemptNumbered database input.candidateId input.deliveryAttempt =
        memory.attempts.get? input.attemptId := by
  intro candidate hcandidate hclaimable
  have hearly : early candidate.status = true :=
    Storage.early_of_claimable (show Storage.claimable .inMemory _ _ = true from hclaimable)
  have hof : Storage.attemptOf .postgres world.repository input = _ :=
    Storage.attemptOf_eq hinv.1 hid ((stored_memory hmemory _).trans hcandidate) hearly
  rw [hmemory.attempts, hid, ← hof, Storage.attemptOf, Postgres.attemptNumbered,
    Postgres.attemptNumbered, hdatabase.attemptsOf]

end Reached

/-- From corresponding states that the service can reach, the two repositories answer alike and
leave corresponding states, in whatever order the database reads its rows, exactly where
`SameBranch` holds of the call. -/
theorem repositories_agree (storage : Storage) {steps : List Step}
    (hlegal : storage.system.Legal (fun _ _ => True) World.start steps)
    {memory database : RepositoryState}
    (hmemory : Related memory (storage.after steps).repository)
    (hdatabase : Related database (storage.after steps).repository)
    {call : RepositoryCall} (henabled : (storage.after steps).enabled call.step) :
    (∀ scan, Agree (call.run .inMemory scan memory) (call.run .postgres scan database)) ↔
      SameBranch memory call := by
  have hinv := reachInv_after storage hlegal
  generalize storage.after steps = world at hmemory hdatabase henabled hinv
  have h : Related memory database := hmemory.trans hdatabase.symm
  cases call with
  | claimWorkerAttempt input =>
    have hsame := claimWorkerAttempt_agree h .inserted (claimable_reached hmemory hinv input)
      (attemptNumbered_reached hmemory hinv hdatabase henabled)
    exact Iff.trans ⟨fun hall => hall .inserted, fun hone _ => hone⟩ hsame
  | failWorkerAttempt input =>
    exact Iff.trans ⟨fun hall => hall .inserted, fun hone _ => hone⟩
      (failWorkerAttempt_agree h .inserted fun candidate attempt =>
        workerWritable_of_fenceOn hmemory hinv)
  | persistWorkerSuccess input =>
    exact Iff.trans ⟨fun hall => hall .inserted, fun hone _ => hone⟩
      (persistWorkerSuccess_agree h .inserted
        (fun candidate attempt => workerWritable_of_fenceOn hmemory hinv)
        fun attempt => listTrades_memory hmemory hinv)
  | recoverAbandonedAttempt candidateId now error =>
    refine Iff.trans ⟨fun hall => hall .inserted, fun hone _ => hone⟩
      (recoverAbandonedAttempt_agree h .inserted ?_ ?_ ?_ ?_)
    · intro candidate hcandidate hs
      exact running_memory hmemory hinv hcandidate hs
    · intro candidate hcandidate hs attempt hmem
      exact attemptId_memory hmemory hinv hcandidate (by rw [hs]; rfl) hmem
    · intro candidate hcandidate
      have hid : candidate.candidateId = candidateId := Table.key_of_get? hcandidate
      rw [hinv.2.queued _ _ ((stored_memory hmemory candidateId).trans hcandidate), hid]
    · intro jobId dispatch hget
      rw [hmemory.dispatches] at hget
      exact hinv.2.dispatched jobId dispatch hget
  | repairTerminalQueueFailure candidateId error now =>
    refine Iff.trans ⟨fun hall => hall .inserted, fun hone _ => hone⟩
      (repairTerminalQueueFailure_agree h .inserted ?_)
    intro candidate hcandidate hearly attempt hmem
    exact attemptId_memory hmemory hinv hcandidate hearly hmem
  | claimCompletion candidateId claimToken now leaseExpiresAt =>
    have hsame := claimCompletion_agree h .inserted candidateId claimToken now leaseExpiresAt
    exact Iff.trans ⟨fun hall => hall .inserted, fun hone _ => hone⟩ hsame
  | listDueCompletions now limit => exact listDueCompletions_agree h now limit
  | finalizeCompletion copy experimentId claimToken now =>
    exact ⟨fun _ => trivial, fun _ _ =>
      (fencedWrite_agree h copy claimToken now _ _ _ fun _ => rfl).mpr fun _ _ _ _ => rfl⟩
  | finalizeTerminalFailure copy claimToken now =>
    exact ⟨fun _ => trivial, fun _ _ =>
      (fencedWrite_agree h copy claimToken now _ _ _ fun _ => rfl).mpr fun _ _ _ _ => rfl⟩
  | failCompletion copy claimToken retryAt now error =>
    have hsame := failCompletion_agree h .inserted copy claimToken retryAt now error
    exact Iff.trans ⟨fun hall => hall .inserted, fun hone _ => hone⟩ hsame
  | readLatestCompletedAttempt candidateId =>
    exact ⟨fun _ => trivial, fun _ scan => readLatestCompletedAttempt_agree h scan candidateId⟩

/-- A claim is granted by both or by neither and leaves corresponding states, and what they answer
differs in the attempts of the candidate alone. -/
theorem claims_agree_withoutAttempts (storage : Storage) {steps : List Step}
    (hlegal : storage.system.Legal (fun _ _ => True) World.start steps)
    {memory database : RepositoryState}
    (hmemory : Related memory (storage.after steps).repository)
    (hdatabase : Related database (storage.after steps).repository) (scan : Postgres.ScanOrder)
    {call : RepositoryCall} (henabled : (storage.after steps).enabled call.step)
    (hclaim : call.isClaim = true) :
    ((call.run .inMemory scan memory).2.map (·.withoutAttempts) =
        (call.run .postgres scan database).2.map (·.withoutAttempts)) ∧
      Related (call.run .inMemory scan memory).1 (call.run .postgres scan database).1 := by
  have hinv := reachInv_after storage hlegal
  generalize storage.after steps = world at hmemory hdatabase henabled hinv
  have h : Related memory database := hmemory.trans hdatabase.symm
  cases call with
  | claimWorkerAttempt input =>
    exact claimWorkerAttempt_related h scan (claimable_reached hmemory hinv input)
      (attemptNumbered_reached hmemory hinv hdatabase henabled)
  | claimCompletion candidateId claimToken now leaseExpiresAt =>
    exact claimCompletion_related h scan candidateId claimToken now leaseExpiresAt
  | _ => cases hclaim

namespace Sample

/-- The second delivery claims when the lease of the first has run out, and both attempts run. -/
def twoDeliveries : List Step :=
  [.submit candidate dispatch none, .claimWorkerAttempt (delivery 1 "t1" 0),
    .claimWorkerAttempt (delivery 2 "t2" 70000)]

/-- A result is waiting for its completion. -/
def resultWaiting : List Step :=
  [.submit candidate dispatch none, .claimWorkerAttempt (delivery 1 "t1" 0),
    .persistWorkerSuccess (success 1 "t1" 1000)]

end Sample

/-- Both recover the second delivery, which runs with the highest number. -/
theorem repositories_agree_twoDeliveries :
    Agree (RepositoryCall.run .inMemory .inserted
        (Storage.inMemory.after Sample.twoDeliveries).repository
        (.recoverAbandonedAttempt "c" 200000 "WORKER_LOST"))
      (RepositoryCall.run .postgres .inserted
        (Storage.inMemory.after Sample.twoDeliveries).repository
        (.recoverAbandonedAttempt "c" 200000 "WORKER_LOST")) := by
  refine (repositories_agree .inMemory (by decide) (Related.refl _) (Related.refl _)
    (by exact trivial)).mpr ?_ .inserted
  rintro candidate number hcandidate - - hnumber
  have hactive : ((Storage.inMemory.after Sample.twoDeliveries).repository.candidates.get? "c").bind
      (·.activeAttemptNumber) = some 2 := by decide
  rw [hcandidate, Option.bind_some, hnumber] at hactive
  cases hactive
  change ∀ attempt ∈ (Storage.inMemory.after Sample.twoDeliveries).repository.attemptsOf "c",
    attempt.status = .running → attempt.attemptNumber ≤ 2
  decide

/-- A failure signal of the queue while a result waits: in memory it ends the candidate, in the
database the candidate stays as it is. -/
theorem repositories_differ : ¬ ∀ (storage : Storage) (steps : List Step),
    storage.system.Legal (fun _ _ => True) World.start steps →
    ∀ memory database, Related memory (storage.after steps).repository →
    Related database (storage.after steps).repository →
    ∀ call : RepositoryCall, (storage.after steps).enabled call.step →
      ∀ scan, Agree (call.run .inMemory scan memory) (call.run .postgres scan database) := by
  intro hall
  have hagree := hall .inMemory Sample.resultWaiting (by decide) _ _ (Related.refl _)
    (Related.refl _) (.repairTerminalQueueFailure "c" "STALLED" 2000) trivial .inserted
  have hstatus := congrArg (fun rows => (rows.get? "c").map (·.status)) hagree.2.candidates
  exact absurd hstatus (by decide)

end Cryptox.Backtesting
