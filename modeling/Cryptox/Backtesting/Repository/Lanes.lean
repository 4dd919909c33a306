import Cryptox.Backtesting.Repository.Terminal

/-!
# The result lane and the failure lane

Without cancellations a pending result can only be completed, or fail for its own processing, and
a pending failure can only fail, with the kind it has. Two writers cross over: the in-memory queue
repair, which turns a pending result into a failure, and `failCompletion`, which leaves a pending
failure as a pending result.
-/
namespace Cryptox.Backtesting

open Cryptox.Library

/-- The steps that keep the lanes apart; users do not cancel here. -/
def KeepsLanes (storage : Storage) (world : World) : Step → Prop
  | .cancel .. => False
  | .repairTerminalQueueFailure candidateId _ _ => storage = .inMemory →
      ∀ candidate ∈ world.stored candidateId, candidate.status ≠ .processingResult
  | .failCompletion copy claimToken _ now _ => ∀ candidate ∈ world.stored copy.candidateId,
      candidate.status = .terminalFailurePending →
        candidate.completionFence copy claimToken now = false
  | _ => True

instance (storage : Storage) (world : World) : ∀ step, Decidable (KeepsLanes storage world step)
  | .cancel .. => inferInstanceAs (Decidable False)
  | .repairTerminalQueueFailure candidateId _ _ =>
    inferInstanceAs (Decidable (_ → ∀ candidate ∈ world.stored candidateId, _))
  | .failCompletion copy .. =>
    inferInstanceAs (Decidable (∀ candidate ∈ world.stored copy.candidateId, _ → _))
  | .tick _ | .submit .. | .read _ | .claimWorkerAttempt _ | .persistWorkerSuccess _
  | .failWorkerAttempt _ | .recoverAbandonedAttempt .. | .claimCompletion ..
  | .finalizeCompletion .. | .finalizeTerminalFailure .. | .markDispatchCancelled .. =>
    inferInstanceAs (Decidable True)

/-- Where a pending result can go. -/
def ResultLane (candidate : StoredCandidate) : Prop :=
  candidate.status = .processingResult ∨ candidate.status = .completed ∨
    candidate.status = .failed ∧ candidate.failureKind = some .completionProcessing

/-- Where a pending failure of a kind can go. -/
def FailureLane (kind : Option FailureKind) (candidate : StoredCandidate) : Prop :=
  (candidate.status = .terminalFailurePending ∨ candidate.status = .failed) ∧
    candidate.failureKind = kind

namespace Storage

variable {storage : Storage} {world : World} {step : Step}

/-- What holds of the rows while nothing is cancelled. -/
structure LiveInv (world : World) : Prop where
  rows : RowsInv world
  live : ∀ candidateId candidate, world.stored candidateId = some candidate →
    candidate.status ≠ .cancelled

theorem liveInv_start : LiveInv World.start := ⟨rowsInv_start, fun _ _ h => by cases h⟩

/-- Without cancelled rows only cancellations disturb a terminal row. -/
theorem leavesTerminal_of_live (h : LiveInv world) (hstep : ∀ copy now, step ≠ .cancel copy now) :
    LeavesTerminal world step := by
  cases step with
  | cancel copy now => exact absurd rfl (hstep copy now)
  | failCompletion copy claimToken retryAt now error =>
    exact fun candidate hstored hcancelled => absurd hcancelled (h.live _ _ hstored)
  | _ => trivial

theorem liveInv_next (h : LiveInv world) (hstep : ∀ copy now, step ≠ .cancel copy now) :
    LiveInv (storage.next world step) := by
  refine ⟨rowsInv_next h.rows (leavesTerminal_of_live h hstep), rows_next h.live ?_⟩
  intro row attempt trades hw
  cases hw with
  | submitted => nofun
  | claimed hstored => nofun
  | persisted hfenced hlive => nofun
  | persistedAudit retryAt hfenced hcancelled =>
    exact absurd hcancelled (h.live _ _ hfenced.candidate_stored)
  | @failed input => cases input.retrying <;> simp [StoredCandidate.workerFailed]
  | failedAudit kind code error hfenced hcancelled =>
    exact absurd hcancelled (h.live _ _ hfenced.candidate_stored)
  | recovered retrying => cases retrying <;> nofun
  | repaired => nofun
  | @completionClaimed candidateId claimToken now leaseExpiresAt candidate hstored =>
    exact fun hcancelled => h.live _ candidate hstored hcancelled
  | completionFinalized => nofun
  | terminalFailureFinalized => nofun
  | completionFailed =>
    simp only [StoredCandidate.completionFailed]
    split <;> nofun
  | @cancelled copy now => exact absurd rfl (hstep copy now)

theorem not_cancel_of_keepsLanes (h : KeepsLanes storage world step) (copy : StoredCandidate)
    (now : Int) : step ≠ .cancel copy now := by
  rintro rfl
  exact h

/-- What can be written over a settled row. -/
inductive SettledWrite (storage : Storage) (world : World) (candidate : StoredCandidate) :
    Step → StoredCandidate → Prop
  | repaired {candidateId error : String} {now : Int}
      (stored : world.stored candidateId = some candidate)
      (open' : terminal candidate.status = false ∧ candidate.status ≠ .terminalFailurePending)
      (before : candidate.status = .processingResult → storage = inMemory) :
      SettledWrite storage world candidate (.repairTerminalQueueFailure candidateId error now)
        (candidate.repaired now error)
  | completionClaimed {candidateId claimToken : String} {now leaseExpiresAt : Int} :
      SettledWrite storage world candidate (.claimCompletion candidateId claimToken now leaseExpiresAt)
        (candidate.completionClaimed claimToken now leaseExpiresAt)
  | completionFinalized {copy : StoredCandidate} {experimentId claimToken : String} {now : Int}
      (pending : candidate.status = .processingResult) :
      SettledWrite storage world candidate (.finalizeCompletion copy experimentId claimToken now)
        (candidate.completionFinalized experimentId now)
  | terminalFailureFinalized {copy : StoredCandidate} {claimToken : String} {now : Int}
      (pending : candidate.status = .terminalFailurePending) :
      SettledWrite storage world candidate (.finalizeTerminalFailure copy claimToken now)
        (candidate.terminalFailureFinalized now)
  | completionFailed {copy source : StoredCandidate} {claimToken error : String}
      {retryAt : Option Int} {now : Int}
      (fenced : CompletionFenced world.repository copy claimToken now candidate) :
      SettledWrite storage world candidate (.failCompletion copy claimToken retryAt now error)
        (candidate.completionFailed source retryAt now error)
  | cancelled {copy row : StoredCandidate} {now : Int} :
      SettledWrite storage world candidate (.cancel copy now) row

theorem settled_write {candidate row : StoredCandidate} {attempt : Option BacktestAttemptAudit}
    {trades : Option AttemptTrades}
    (hw : Write storage world.repository step (some row) attempt trades)
    (henabled : world.enabled step) (hinv : RowInv candidate)
    (hstored : world.stored row.candidateId = some candidate)
    (hs : settled candidate.status = true) : SettledWrite storage world candidate step row := by
  cases hw with
  | @submitted submission dispatch key =>
    have hfresh : (world.stored submission.candidateId).isNone := henabled.1
    rw [show world.stored submission.candidateId = some candidate from hstored] at hfresh
    cases hfresh
  | @claimed input found hfound hclaimable =>
    obtain rfl := found_eq hfound hstored
    rcases claimable_status hclaimable with h | h | h <;> simp [h, settled] at hs
  | @persisted input found attempt trades hfenced =>
    obtain rfl := found_eq hfenced.candidate_stored hstored
    exact absurd hfenced (not_fenced hinv hs)
  | @persistedAudit input found attempt trades retryAt hfenced =>
    obtain rfl := found_eq hfenced.candidate_stored hstored
    exact absurd hfenced (not_fenced hinv hs)
  | @failed input found attempt category hfenced =>
    obtain rfl := found_eq hfenced.candidate_stored hstored
    exact absurd hfenced (not_fenced hinv hs)
  | @failedAudit input found attempt kind code error hfenced =>
    obtain rfl := found_eq hfenced.candidate_stored hstored
    exact absurd hfenced (not_fenced hinv hs)
  | @recovered candidateId error now found attempt retrying hfound h =>
    obtain rfl := found_eq hfound hstored
    simp [h, settled] at hs
  | repaired hfound hopen hbefore =>
    obtain rfl := found_eq hfound hstored
    exact .repaired hfound hopen hbefore
  | completionClaimed hfound =>
    obtain rfl := found_eq hfound hstored
    exact .completionClaimed
  | completionFinalized hfenced hpending =>
    obtain rfl := found_eq hfenced.candidate_stored hstored
    exact .completionFinalized hpending
  | terminalFailureFinalized hfenced hpending =>
    obtain rfl := found_eq hfenced.candidate_stored hstored
    exact .terminalFailureFinalized hpending
  | completionFailed hfenced =>
    obtain rfl := found_eq hfenced.candidate_stored hstored
    exact .completionFailed hfenced
  | cancelled stored => exact .cancelled

theorem resultLane_write {candidate row : StoredCandidate} (hc : KeepsLanes storage world step)
    (hw : SettledWrite storage world candidate step row) (hlane : ResultLane candidate) :
    ResultLane row := by
  cases hw with
  | repaired hstored hopen hbefore =>
    rcases hlane with hs | hs | ⟨hs, -⟩
    · exact absurd hs (hc (hbefore hs) candidate hstored)
    · simp [hs, terminal] at hopen
    · simp [hs, terminal] at hopen
  | completionClaimed => exact hlane
  | completionFinalized => exact Or.inr (Or.inl rfl)
  | terminalFailureFinalized hpending =>
    rcases hlane with hs | hs | ⟨hs, -⟩ <;> simp [hpending] at hs
  | completionFailed =>
    simp only [ResultLane, StoredCandidate.completionFailed]
    split <;> simp
  | cancelled => exact hc.elim

theorem failureLane_write {candidate row : StoredCandidate} {kind : Option FailureKind}
    (h : LiveInv world) (hc : KeepsLanes storage world step)
    (hw : SettledWrite storage world candidate step row) (hlane : FailureLane kind candidate) :
    FailureLane kind row := by
  cases hw with
  | repaired hstored hopen =>
    rcases hlane.1 with hs | hs
    · exact absurd hs hopen.2
    · simp [hs, terminal] at hopen
  | completionClaimed => exact hlane
  | completionFinalized hpending => rcases hlane.1 with hs | hs <;> simp [hpending] at hs
  | terminalFailureFinalized => exact ⟨Or.inr rfl, hlane.2⟩
  | completionFailed hfenced =>
    have hlive := h.live _ _ hfenced.candidate_stored
    have hin := completing_of_fenced (h.rows _ _ hfenced.candidate_stored)
      (fun hcancelled => absurd hcancelled hlive) hfenced
    rcases hlane.1 with hs | hs
    · have hfence := fence_of_completionFenced hfenced
      simp [hc _ hfenced.candidate_stored hs] at hfence
    · simp [hs, completing] at hin
  | cancelled => exact hc.elim

end Storage

/-- A pending result stays in the result lane and a pending failure in its own. -/
def LanesKept (world later : World) : Prop :=
  ∀ candidateId candidate, world.stored candidateId = some candidate →
    (candidate.status = .processingResult →
      ∃ row, later.stored candidateId = some row ∧ ResultLane row) ∧
    (candidate.status = .terminalFailurePending →
      ∃ row, later.stored candidateId = some row ∧ FailureLane candidate.failureKind row)

namespace Storage

variable {storage : Storage}

/-- A lane that every write over it keeps is kept by a step. -/
theorem lane_next {world : World} {step : Step} {lane : StoredCandidate → Prop}
    {candidateId : String} (h : LiveInv world) (henabled : world.enabled step)
    (hsettled : ∀ candidate, lane candidate → settled candidate.status = true)
    (hwrite : ∀ candidate row, SettledWrite storage world candidate step row → lane candidate →
      lane row)
    (hlane : ∃ row, world.stored candidateId = some row ∧ lane row) :
    ∃ row, (storage.next world step).stored candidateId = some row ∧ lane row := by
  obtain ⟨row, hrow, hin⟩ := hlane
  rcases stored_next_cases storage world step candidateId with
    ⟨written, attempt, trades, hw, hid, hwritten⟩ | hsame
  · have hstored : world.stored written.candidateId = some row := by
      rw [hid]
      exact hrow
    exact ⟨written, hwritten, hwrite row written
      (settled_write hw henabled (h.rows _ _ hrow) hstored (hsettled row hin)) hin⟩
  · exact ⟨row, hsame.trans hrow, hin⟩

theorem lanesKept_next {first world : World} {step : Step} (h : LiveInv world)
    (hkept : LanesKept first world) (henabled : world.enabled step)
    (hc : KeepsLanes storage world step) : LanesKept first (storage.next world step) := by
  intro candidateId candidate hfirst
  obtain ⟨hresult, hfailure⟩ := hkept candidateId candidate hfirst
  constructor
  · intro hs
    refine lane_next h henabled ?_ (fun _ _ => resultLane_write hc) (hresult hs)
    rintro row (hs | hs | ⟨hs, -⟩) <;> simp [hs, settled]
  · intro hs
    refine lane_next h henabled ?_ (fun _ _ => failureLane_write h hc) (hfailure hs)
    rintro row ⟨hs | hs, -⟩ <;> simp [hs, settled]

/-- In every run without the two crossing writes and without cancellations, a pending result and
a pending failure never turn into each other. -/
theorem lanes_apart (storage : Storage) (steps later : List Step)
    (h : storage.system.Legal (KeepsLanes storage) World.start (steps ++ later)) :
    LanesKept (storage.after steps) (storage.after (steps ++ later)) := by
  obtain ⟨hbefore, hafter⟩ := GuardedSystem.legal_append.mp h
  have hnext : ∀ world step, LiveInv world → world.enabled step → KeepsLanes storage world step →
      LiveInv (storage.next world step) := fun _ _ hlive _ hc =>
    liveInv_next hlive (not_cancel_of_keepsLanes hc)
  have hlive : LiveInv (storage.after steps) := hbefore.invariant LiveInv hnext liveInv_start
  rw [after_append]
  refine hafter.stable LiveInv (LanesKept (storage.after steps)) hnext ?_ hlive ?_
  · exact fun _ _ hl hkept henabled hc => lanesKept_next hl hkept henabled hc
  · intro candidateId candidate hstored
    exact ⟨fun hs => ⟨candidate, hstored, Or.inl hs⟩,
      fun hs => ⟨candidate, hstored, Or.inl hs, rfl⟩⟩

def untilPendingResult : List Step :=
  [.submit Sample.candidate Sample.dispatch none,
    .claimWorkerAttempt (Sample.delivery 1 "f" 0),
    .persistWorkerSuccess (Sample.success 1 "f" 1000)]

def untilPendingFailure : List Step :=
  [.submit Sample.candidate Sample.dispatch none,
    .claimWorkerAttempt (Sample.delivery 3 "f" 0),
    .failWorkerAttempt (Sample.failure 3 "f" false 1000)]

/-- The row of a candidate whose failure a processor has claimed. -/
def claimedFailure : StoredCandidate :=
  ((Sample.candidate.claimed (Sample.delivery 3 "f" 0)).workerFailed false 1000
    "BACKTEST_EXECUTION_FAILED").completionClaimed "k" 2000 62000

/-- A late queue failure does not touch a result in the database, and the result is completed. -/
theorem lanes_apart_completed :
    ((postgres.after untilPendingResult).stored "c").map (·.status) = some .processingResult ∧
      LanesKept (postgres.after untilPendingResult)
        (postgres.after (untilPendingResult ++
          [.repairTerminalQueueFailure "c" "BACKTEST_RETRIES_EXHAUSTED" 1500,
            .claimCompletion "c" "k" 2000 62000, .read "c",
            .finalizeCompletion (((Sample.candidate.claimed (Sample.delivery 1 "f" 0)).persisted
              1000).completionClaimed "k" 2000 62000) "e" "k" 3000])) :=
  ⟨by decide, lanes_apart postgres _ _ (by decide)⟩

theorem not_lanesKept_result {world later : World} (candidateId : String)
    (hbefore : (world.stored candidateId).map (·.status) = some .processingResult)
    (hafter : (later.stored candidateId).map (·.status) = some .terminalFailurePending) :
    ¬ LanesKept world later := by
  intro hkept
  obtain ⟨candidate, hstored, hs⟩ := Option.map_eq_some_iff.mp hbefore
  obtain ⟨row, hrow, hlane⟩ := (hkept candidateId candidate hstored).1 hs
  rw [hrow, Option.map_some, Option.some_inj] at hafter
  rcases hlane with h | h | ⟨h, -⟩ <;> simp [h] at hafter

theorem not_lanesKept_failure {world later : World} (candidateId : String)
    (hbefore : (world.stored candidateId).map (·.status) = some .terminalFailurePending)
    (hafter : (later.stored candidateId).map (·.status) = some .processingResult) :
    ¬ LanesKept world later := by
  intro hkept
  obtain ⟨candidate, hstored, hs⟩ := Option.map_eq_some_iff.mp hbefore
  obtain ⟨row, hrow, hlane⟩ := (hkept candidateId candidate hstored).2 hs
  rw [hrow, Option.map_some, Option.some_inj] at hafter
  rcases hlane.1 with h | h <;> simp [h] at hafter

/-- Two legal runs, without cancellations, that cross over. In memory a queue failure that arrives
after the result turns it into a pending failure. In both repositories an error while a pending
failure is finalized leaves a pending result. -/
theorem lanes_crossed :
    (inMemory.system.Legal (fun _ _ => True) World.start (untilPendingResult ++
        [.repairTerminalQueueFailure "c" "BACKTEST_RETRIES_EXHAUSTED" 2000]) ∧
      ¬ LanesKept (inMemory.after untilPendingResult) (inMemory.after (untilPendingResult ++
        [.repairTerminalQueueFailure "c" "BACKTEST_RETRIES_EXHAUSTED" 2000]))) ∧
    (postgres.system.Legal (fun _ _ => True) World.start (untilPendingFailure ++
        [.claimCompletion "c" "k" 2000 62000, .read "c",
          .failCompletion claimedFailure "k" (some 4000) 3000 "BACKTEST_COMPLETION_FAILED"]) ∧
      ¬ LanesKept (postgres.after untilPendingFailure) (postgres.after (untilPendingFailure ++
        [.claimCompletion "c" "k" 2000 62000, .read "c",
          .failCompletion claimedFailure "k" (some 4000) 3000 "BACKTEST_COMPLETION_FAILED"]))) := by
  refine ⟨⟨by decide, ?_⟩, by decide, ?_⟩
  · exact not_lanesKept_result "c" (by decide) (by decide)
  · exact not_lanesKept_failure "c" (by decide) (by decide)

end Storage

end Cryptox.Backtesting
