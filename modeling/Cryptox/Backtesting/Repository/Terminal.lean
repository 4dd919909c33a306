import Cryptox.Backtesting.Repository.Writes

/-!
# Terminal statuses absorb

A worker's fence is gone once its candidate has a result or a failure, and a completion token is
held only in the completion lane or on a cancelled row. With these two facts no writer reaches a
terminal row except two: a cancellation that read the row earlier, and `failCompletion`, which
asks for no status.
-/
namespace Cryptox.Backtesting

open Cryptox.Library

/-- The statuses a worker no longer writes from. -/
def settled : CandidateStatus → Bool
  | .processingResult | .terminalFailurePending | .completed | .failed => true
  | _ => false

structure RowInv (candidate : StoredCandidate) : Prop where
  unfenced : settled candidate.status = true → candidate.activeFenceToken = none
  token_open : candidate.activeCompletionClaimToken ≠ none →
    completing candidate.status = true ∨ candidate.status = .cancelled

/-- The steps that leave a terminal status alone: no cancellation over a completed or failed row,
and no `failCompletion` that passes its fence on a cancelled row. -/
def LeavesTerminal (world : World) : Step → Prop
  | .cancel copy _ => ∀ candidate ∈ world.stored copy.candidateId,
      candidate.status ≠ .completed ∧ candidate.status ≠ .failed
  | .failCompletion copy claimToken _ now _ => ∀ candidate ∈ world.stored copy.candidateId,
      candidate.status = .cancelled → candidate.completionFence copy claimToken now = false
  | _ => True

instance (world : World) : ∀ step, Decidable (LeavesTerminal world step)
  | .cancel copy _ =>
    inferInstanceAs (Decidable (∀ candidate ∈ world.stored copy.candidateId, _ ∧ _))
  | .failCompletion copy .. =>
    inferInstanceAs (Decidable (∀ candidate ∈ world.stored copy.candidateId, _ → _))
  | .tick _ | .submit .. | .read _ | .claimWorkerAttempt _ | .persistWorkerSuccess _
  | .failWorkerAttempt _ | .recoverAbandonedAttempt .. | .repairTerminalQueueFailure ..
  | .claimCompletion .. | .finalizeCompletion .. | .finalizeTerminalFailure ..
  | .markDispatchCancelled .. => inferInstanceAs (Decidable True)

namespace Storage

variable {storage : Storage} {world : World} {step : Step}

theorem fence_of_completionFenced {state : RepositoryState} {copy candidate : StoredCandidate}
    {claimToken : String} {now : Int}
    (h : CompletionFenced state copy claimToken now candidate) :
    candidate.completionFence copy claimToken now = true := by
  obtain ⟨lease, hlease, hnow⟩ := h.lease
  simp [StoredCandidate.completionFence, h.token, h.generation, hlease, hnow]

/-- A row that a worker's fence still names is unsettled. -/
theorem unsettled_of_fenced {candidate : StoredCandidate} (h : RowInv candidate) {token : String}
    (ht : candidate.activeFenceToken = some token) : settled candidate.status = false := by
  cases hs : settled candidate.status with
  | false => rfl
  | true => simp [h.unfenced hs] at ht

/-- Outside the completion lane and cancellation no completion token is held. -/
theorem tokenless {candidate : StoredCandidate} (h : RowInv candidate)
    (hl : completing candidate.status = false) (hc : candidate.status ≠ .cancelled) :
    candidate.activeCompletionClaimToken = none := by
  by_contra hne
  rcases h.token_open hne with h' | h'
  · simp [hl] at h'
  · exact hc h'

theorem claimable_status {candidate : StoredCandidate} {now : Int}
    (h : storage.claimable candidate now = true) :
    candidate.status = .queued ∨ candidate.status = .retryWait ∨ candidate.status = .backtesting := by
  cases storage <;> cases hs : candidate.status <;>
    simp_all [claimable, InMemory.claimable, Postgres.claimable]

theorem settled_of_completing {status : CandidateStatus} (h : completing status = true) :
    settled status = true := by
  cases status <;> simp_all [completing, settled]

theorem not_terminal_of_completing {status : CandidateStatus} (h : completing status = true) :
    terminal status = false := by
  cases status <;> simp_all [completing, terminal]

/-- A completion write that passes its fence finds a row of the completion lane. -/
theorem completing_of_fenced {copy candidate : StoredCandidate} {claimToken : String} {now : Int}
    (h : RowInv candidate) (hc : candidate.status = .cancelled →
      candidate.completionFence copy claimToken now = false)
    (hf : CompletionFenced world.repository copy claimToken now candidate) :
    completing candidate.status = true := by
  rcases h.token_open (by simp [hf.token]) with hlane | hcancelled
  · exact hlane
  · have hfence := fence_of_completionFenced hf
    simp [hc hcancelled] at hfence

theorem rowInv_write
    (hrows : ∀ candidateId candidate, world.stored candidateId = some candidate → RowInv candidate)
    (hc : LeavesTerminal world step) (row : StoredCandidate) (attempt : Option BacktestAttemptAudit)
    (trades : Option AttemptTrades)
    (hw : Write storage world.repository step (some row) attempt trades) : RowInv row := by
  cases hw with
  | submitted => exact ⟨fun _ => rfl, fun h => absurd rfl h⟩
  | @claimed input candidate hstored hclaimable =>
    have hnone : candidate.activeCompletionClaimToken = none := by
      apply tokenless (hrows _ _ hstored) <;>
        rcases claimable_status hclaimable with hs | hs | hs <;> simp [hs, completing]
    exact ⟨nofun, fun h => absurd hnone h⟩
  | persisted hfenced hlive => exact ⟨fun _ => rfl, fun _ => Or.inl rfl⟩
  | persistedAudit retryAt hfenced hcancelled => exact ⟨fun _ => rfl, fun _ => Or.inr hcancelled⟩
  | @failed input candidate attempt category hfenced hlive =>
    have hinv := hrows _ _ hfenced.candidate_stored
    have hunsettled := unsettled_of_fenced hinv hfenced.candidate_token
    have hnone : candidate.activeCompletionClaimToken = none := by
      refine tokenless hinv ?_ hlive
      rw [← Bool.not_eq_true]
      exact fun hlane => by simp [settled_of_completing hlane] at hunsettled
    exact ⟨fun _ => rfl, fun h => absurd hnone h⟩
  | failedAudit kind code error hfenced hcancelled => exact ⟨fun _ => rfl, fun _ => Or.inr hcancelled⟩
  | @recovered candidateId error now candidate attempt retrying hstored hs =>
    have hnone : candidate.activeCompletionClaimToken = none :=
      tokenless (hrows _ _ hstored) (by simp [hs, completing]) (by simp [hs])
    exact ⟨fun _ => rfl, fun h => absurd hnone h⟩
  | repaired hstored => exact ⟨fun _ => rfl, fun _ => Or.inl rfl⟩
  | @completionClaimed candidateId claimToken now leaseExpiresAt candidate hstored hdue =>
    have hlane : completing candidate.status = true := by
      rw [StoredCandidate.completionDue, Bool.and_eq_true, Bool.and_eq_true] at hdue
      exact hdue.1.1
    exact ⟨(hrows _ _ hstored).unfenced, fun _ => Or.inl hlane⟩
  | completionFinalized hfenced hs =>
    have hinv := hrows _ _ hfenced.candidate_stored
    exact ⟨fun _ => hinv.unfenced (by simp [hs, settled]), fun h => absurd rfl h⟩
  | terminalFailureFinalized hfenced hs =>
    have hinv := hrows _ _ hfenced.candidate_stored
    exact ⟨fun _ => hinv.unfenced (by simp [hs, settled]), fun h => absurd rfl h⟩
  | completionFailed hfenced =>
    have hinv := hrows _ _ hfenced.candidate_stored
    have hlane := completing_of_fenced hinv (hc _ hfenced.candidate_stored) hfenced
    exact ⟨fun _ => hinv.unfenced (settled_of_completing hlane), fun h => absurd rfl h⟩
  | cancelled stored => exact ⟨nofun, fun _ => Or.inr rfl⟩

/-- Every stored row satisfies `RowInv`. -/
def RowsInv (world : World) : Prop :=
  ∀ candidateId candidate, world.stored candidateId = some candidate → RowInv candidate

theorem rowsInv_start : RowsInv World.start := fun _ _ h => by cases h

theorem rowsInv_next (hrows : RowsInv world) (hc : LeavesTerminal world step) :
    RowsInv (storage.next world step) :=
  rows_next hrows (rowInv_write hrows hc)

theorem found_eq {candidateId : String} {found candidate : StoredCandidate}
    (hfound : world.repository.candidates.get? candidateId = some found)
    (hstored : world.stored found.candidateId = some candidate) : found = candidate :=
  Option.some.inj ((Table.get?_key hfound).symm.trans hstored)

/-- A settled row that passes no worker fence. -/
theorem not_fenced {candidateId fenceToken : String} {attemptId : AttemptId}
    {candidate : StoredCandidate} {attempt : BacktestAttemptAudit} (hinv : RowInv candidate)
    (hs : settled candidate.status = true) :
    ¬ Fenced storage world.repository candidateId attemptId fenceToken candidate attempt :=
  fun hf => by simpa [hs] using unsettled_of_fenced hinv hf.candidate_token

/-- The status a write leaves on a terminal row. -/
theorem terminal_write {candidate row : StoredCandidate} {attempt : Option BacktestAttemptAudit}
    {trades : Option AttemptTrades}
    (hw : Write storage world.repository step (some row) attempt trades)
    (henabled : world.enabled step) (hc : LeavesTerminal world step) (hinv : RowInv candidate)
    (hstored : world.stored row.candidateId = some candidate)
    (ht : terminal candidate.status = true) : row.status = candidate.status := by
  have hsettled : candidate.status ≠ .cancelled → settled candidate.status = true := by
    cases hs : candidate.status <;> simp_all [terminal, settled]
  cases hw with
  | @submitted submission dispatch key =>
    have hfresh : (world.stored submission.candidateId).isNone := henabled.1
    rw [show world.stored submission.candidateId = some candidate from hstored] at hfresh
    cases hfresh
  | @claimed input found hfound hclaimable =>
    obtain rfl := found_eq hfound hstored
    rcases claimable_status hclaimable with hs | hs | hs <;> simp [hs, terminal] at ht
  | @persisted input found attempt trades hfenced hlive =>
    obtain rfl := found_eq hfenced.candidate_stored hstored
    exact absurd hfenced (not_fenced hinv (hsettled hlive))
  | @persistedAudit input found attempt trades retryAt hfenced hcancelled =>
    obtain rfl := found_eq hfenced.candidate_stored hstored
    rfl
  | @failed input found attempt category hfenced hlive =>
    obtain rfl := found_eq hfenced.candidate_stored hstored
    exact absurd hfenced (not_fenced hinv (hsettled hlive))
  | @failedAudit input found attempt kind code error hfenced hcancelled =>
    obtain rfl := found_eq hfenced.candidate_stored hstored
    rfl
  | @recovered candidateId error now found attempt retrying hfound hs =>
    obtain rfl := found_eq hfound hstored
    simp [hs, terminal] at ht
  | @repaired candidateId error now found attempt hfound hopen =>
    obtain rfl := found_eq hfound hstored
    simp [hopen.1] at ht
  | completionClaimed hfound hdue =>
    obtain rfl := found_eq hfound hstored
    rfl
  | completionFinalized hfenced hs =>
    obtain rfl := found_eq hfenced.candidate_stored hstored
    simp [hs, terminal] at ht
  | terminalFailureFinalized hfenced hs =>
    obtain rfl := found_eq hfenced.candidate_stored hstored
    simp [hs, terminal] at ht
  | completionFailed hfenced =>
    obtain rfl := found_eq hfenced.candidate_stored hstored
    have hlane := completing_of_fenced hinv (hc _ hfenced.candidate_stored) hfenced
    simp [not_terminal_of_completing hlane] at ht
  | @cancelled copy now stored hsame =>
    have hrow : world.stored copy.candidateId = some candidate := by
      rw [← hsame]
      exact hstored
    have hnot := hc candidate hrow
    change CandidateStatus.cancelled = candidate.status
    cases hs : candidate.status <;> simp_all [terminal]

end Storage

/-- No candidate leaves a terminal status between two worlds. -/
def TerminalKept (world later : World) : Prop :=
  ∀ candidateId candidate, world.stored candidateId = some candidate →
    terminal candidate.status = true →
    ∃ row, later.stored candidateId = some row ∧ row.status = candidate.status

namespace Storage

variable {storage : Storage}

theorem terminalKept_next {first world : World} {step : Step} (hrows : RowsInv world)
    (hkept : TerminalKept first world) (henabled : world.enabled step)
    (hc : LeavesTerminal world step) : TerminalKept first (storage.next world step) := by
  intro candidateId candidate hfirst ht
  obtain ⟨row, hrow, hstatus⟩ := hkept candidateId candidate hfirst ht
  rcases stored_next_cases storage world step candidateId with
    ⟨written, attempt, trades, hw, hid, hwritten⟩ | hsame
  · refine ⟨written, hwritten, ?_⟩
    rw [← hstatus]
    refine terminal_write hw henabled hc (hrows candidateId row hrow) ?_ (by rw [hstatus, ht])
    rw [hid]
    exact hrow
  · exact ⟨row, hsame.trans hrow, hstatus⟩

theorem rowsInv_after {cond : World → Step → Prop}
    (hcond : ∀ world step, cond world step → LeavesTerminal world step) {steps : List Step}
    (h : storage.system.Legal cond World.start steps) : RowsInv (storage.after steps) :=
  h.invariant RowsInv (fun _ _ hrows _ hc => rowsInv_next hrows (hcond _ _ hc)) rowsInv_start

/-- Once a candidate is completed, failed or cancelled, no later step changes that, in every
run without the two disturbing writes. -/
theorem terminal_absorbing (storage : Storage) (steps later : List Step)
    (h : storage.system.Legal LeavesTerminal World.start (steps ++ later)) :
    TerminalKept (storage.after steps) (storage.after (steps ++ later)) := by
  obtain ⟨hbefore, hafter⟩ := GuardedSystem.legal_append.mp h
  have hrows : RowsInv (storage.after steps) := rowsInv_after (fun _ _ hc => hc) hbefore
  rw [after_append]
  refine hafter.stable RowsInv (TerminalKept (storage.after steps)) ?_ ?_ hrows ?_
  · exact fun _ _ hrows _ hc => rowsInv_next hrows hc
  · exact fun _ _ hrows hkept henabled hc => terminalKept_next hrows hkept henabled hc
  · exact fun _ candidate hstored _ => ⟨candidate, hstored, rfl⟩

/-- The row of a candidate whose result a processor has claimed. -/
def claimedResult : StoredCandidate :=
  ((Sample.candidate.claimed (Sample.delivery 1 "f" 0)).persisted 1000).completionClaimed
    "k" 2000 62000

def untilClaimedResult : List Step :=
  [.submit Sample.candidate Sample.dispatch none,
    .claimWorkerAttempt (Sample.delivery 1 "f" 0),
    .persistWorkerSuccess (Sample.success 1 "f" 1000),
    .claimCompletion "c" "k" 2000 62000,
    .read "c"]

/-- A cancelled candidate stays so under a late queue failure and a late completion claim. -/
theorem terminal_absorbing_cancelled :
    ((postgres.after (untilClaimedResult ++ [.cancel claimedResult 3000])).stored "c").map
        (·.status) = some .cancelled ∧
      TerminalKept (postgres.after (untilClaimedResult ++ [.cancel claimedResult 3000]))
        (postgres.after ((untilClaimedResult ++ [.cancel claimedResult 3000]) ++
          [.repairTerminalQueueFailure "c" "BACKTEST_RETRIES_EXHAUSTED" 4000,
            .claimCompletion "c" "l" 70000 130000])) :=
  ⟨by decide, terminal_absorbing postgres _ _ (by decide)⟩

theorem not_terminalKept {world later : World} (candidateId : String)
    (before afterwards : CandidateStatus)
    (hbefore : (world.stored candidateId).map (·.status) = some before)
    (ht : terminal before = true)
    (hafter : (later.stored candidateId).map (·.status) = some afterwards)
    (hne : afterwards ≠ before) : ¬ TerminalKept world later := by
  intro hkept
  obtain ⟨candidate, hstored, rfl⟩ := Option.map_eq_some_iff.mp hbefore
  obtain ⟨row, hrow, hstatus⟩ := hkept candidateId candidate hstored ht
  rw [hrow] at hafter
  exact hne ((Option.some.inj hafter).symm.trans hstatus)

/-- Two legal runs that leave a terminal status, in both repositories. The processor that holds
the claim fails after the user's cancellation: the candidate has a pending result again. A
cancellation that read the row before its completion is written afterwards: the completed
candidate is cancelled. -/
theorem terminal_left :
    (inMemory.system.Legal (fun _ _ => True) World.start
        ((untilClaimedResult ++ [.cancel claimedResult 3000]) ++
          [.failCompletion claimedResult "k" (some 5000) 4000 "BACKTEST_COMPLETION_FAILED"]) ∧
      ¬ TerminalKept (inMemory.after (untilClaimedResult ++ [.cancel claimedResult 3000]))
        (inMemory.after ((untilClaimedResult ++ [.cancel claimedResult 3000]) ++
          [.failCompletion claimedResult "k" (some 5000) 4000 "BACKTEST_COMPLETION_FAILED"]))) ∧
    (postgres.system.Legal (fun _ _ => True) World.start
        ((untilClaimedResult ++ [.finalizeCompletion claimedResult "e" "k" 3000]) ++
          [.cancel claimedResult 4000]) ∧
      ¬ TerminalKept
        (postgres.after (untilClaimedResult ++ [.finalizeCompletion claimedResult "e" "k" 3000]))
        (postgres.after ((untilClaimedResult ++ [.finalizeCompletion claimedResult "e" "k" 3000]) ++
          [.cancel claimedResult 4000]))) := by
  refine ⟨⟨by decide, ?_⟩, by decide, ?_⟩
  · exact not_terminalKept "c" .cancelled .processingResult (by decide) rfl (by decide) (by decide)
  · exact not_terminalKept "c" .completed .cancelled (by decide) rfl (by decide) (by decide)

end Storage

end Cryptox.Backtesting
