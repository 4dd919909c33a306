import Cryptox.Backtesting.Repository.Lanes

/-!
# The completion budget

A claim uses one unit of the budget when it is taken; the terminal status is written by its
holder only. A candidate of the completion lane is therefore claimable, or held by a live claim,
as long as no claim that used the last unit lapses.
-/
namespace Cryptox.Backtesting

open Cryptox.Library

/-- A completion lease that ends after an instant. -/
def StoredCandidate.LeasedAfter (candidate : StoredCandidate) (now : Int) : Prop :=
  ∃ lease ∈ candidate.activeCompletionLeaseExpiresAt, now < lease

instance (candidate : StoredCandidate) (now : Int) : Decidable (candidate.LeasedAfter now) :=
  match h : candidate.activeCompletionLeaseExpiresAt with
  | none => isFalse (by simp [StoredCandidate.LeasedAfter, h])
  | some lease => decidable_of_iff (now < lease) (by simp [StoredCandidate.LeasedAfter, h])

/-- The steps after which no claim on the last unit of a budget has lapsed: the step does not pass
the lease of such a claim, and one that takes the last unit takes it for later. Users do not
cancel here. -/
def KeepsBudget (world : World) (step : Step) : Prop :=
  (∀ candidate ∈ world.repository.candidates.rows, completing candidate.status = true →
    candidate.completionMaxAttempts ≤ candidate.completionAttemptCount →
    candidate.LeasedAfter (step.clock world.clock)) ∧
  match step with
  | .cancel .. => False
  | .claimCompletion candidateId _ _ leaseExpiresAt =>
    ∀ candidate ∈ world.stored candidateId,
      candidate.completionAttemptCount + 1 = candidate.completionMaxAttempts →
      step.clock world.clock < leaseExpiresAt
  | _ => True

instance (world : World) (step : Step) : Decidable (KeepsBudget world step) := by
  unfold KeepsBudget
  cases step <;> infer_instance

/-- A row of the completion lane has a live claim or budget left. -/
def NotStranded (world : World) : Prop :=
  ∀ candidateId candidate, world.stored candidateId = some candidate →
    completing candidate.status = true → candidate.LeasedAfter world.clock ∨
      candidate.completionAttemptCount < candidate.completionMaxAttempts

/-- Every claim raises the count and the generation together, from the same budget. -/
structure BudgetInv (candidate : StoredCandidate) : Prop where
  count : candidate.completionAttemptCount = candidate.completionGeneration
  budget : candidate.completionMaxAttempts = 5

/-- An open row has budget left, or its last claim is live. -/
def Funded (clock : Int) (candidate : StoredCandidate) : Prop :=
  terminal candidate.status = false →
    candidate.completionAttemptCount < candidate.completionMaxAttempts ∨
      completing candidate.status = true ∧ candidate.LeasedAfter clock

structure FundedInv (world : World) : Prop where
  live : Storage.LiveInv world
  rows : ∀ candidateId candidate, world.stored candidateId = some candidate → BudgetInv candidate
  copies : ∀ copy ∈ world.copies, BudgetInv copy
  funded : ∀ candidateId candidate, world.stored candidateId = some candidate →
    Funded world.clock candidate

namespace Storage

variable {storage : Storage} {world : World} {step : Step}

theorem not_cancel_of_keepsBudget (h : KeepsBudget world step) (copy : StoredCandidate)
    (now : Int) : step ≠ .cancel copy now := by
  rintro rfl
  exact h.2

theorem fundedInv_start : FundedInv World.start :=
  ⟨liveInv_start, (fun _ _ h => by cases h), by simp [World.start], (fun _ _ h => by cases h)⟩

theorem budgetInv_write
    (hrows : ∀ candidateId candidate, world.stored candidateId = some candidate → BudgetInv candidate)
    (hstep : ∀ copy now, step ≠ .cancel copy now) (row : StoredCandidate)
    (attempt : Option BacktestAttemptAudit) (trades : Option AttemptTrades)
    (hw : Write storage world.repository step (some row) attempt trades) : BudgetInv row := by
  cases hw with
  | submitted => exact ⟨rfl, rfl⟩
  | claimed hstored => exact ⟨(hrows _ _ hstored).count, (hrows _ _ hstored).budget⟩
  | persisted hfenced | persistedAudit retryAt hfenced | failed hfenced
  | failedAudit kind code error hfenced | completionFinalized hfenced
  | terminalFailureFinalized hfenced | completionFailed hfenced =>
    have hinv := hrows _ _ hfenced.candidate_stored
    exact ⟨hinv.count, hinv.budget⟩
  | recovered retrying hstored | repaired hstored =>
    have hinv := hrows _ _ hstored
    exact ⟨hinv.count, hinv.budget⟩
  | completionClaimed hstored =>
    have hinv := hrows _ _ hstored
    exact ⟨congrArg (· + 1) hinv.count, hinv.budget⟩
  | @cancelled copy now => exact absurd rfl (hstep copy now)

/-- The rows are still funded at the instant of an admitted step. -/
theorem funded_clock (h : FundedInv world) (hc : KeepsBudget world step) (candidateId : String)
    (candidate : StoredCandidate) (hstored : world.stored candidateId = some candidate) :
    Funded (step.clock world.clock) candidate := by
  intro hopen
  rcases h.funded candidateId candidate hstored hopen with hbudget | ⟨hlane, -⟩
  · exact Or.inl hbudget
  · by_cases hbudget : candidate.completionAttemptCount < candidate.completionMaxAttempts
    · exact Or.inl hbudget
    · exact Or.inr ⟨hlane, hc.1 candidate (Table.mem_rows_of_get? hstored) hlane (by omega)⟩

/-- An open row outside the completion lane has budget left. -/
theorem budget_of_open {clock : Int} {candidate : StoredCandidate} (h : Funded clock candidate)
    (hopen : terminal candidate.status = false) (hlane : completing candidate.status = false) :
    candidate.completionAttemptCount < candidate.completionMaxAttempts := by
  rcases h hopen with hbudget | ⟨hin, -⟩
  · exact hbudget
  · simp [hlane] at hin

/-- A row that passes a worker's fence is before the completion lane. -/
theorem budget_of_fenced (h : FundedInv world) (hc : KeepsBudget world step)
    {candidateId fenceToken : String} {attemptId : AttemptId} {candidate : StoredCandidate}
    {attempt : BacktestAttemptAudit}
    (hfenced : Fenced storage world.repository candidateId attemptId fenceToken candidate attempt) :
    candidate.completionAttemptCount < candidate.completionMaxAttempts := by
  have hstored := hfenced.candidate_stored
  have hunsettled := unsettled_of_fenced (h.live.rows _ _ hstored) hfenced.candidate_token
  have hlive := h.live.live _ _ hstored
  apply budget_of_open (funded_clock h hc _ _ hstored) <;>
    cases hs : candidate.status <;> simp_all [settled, terminal, completing]

theorem funded_write (h : FundedInv world) (henabled : world.enabled step)
    (hc : KeepsBudget world step) (row : StoredCandidate) (attempt : Option BacktestAttemptAudit)
    (trades : Option AttemptTrades)
    (hw : Write storage world.repository step (some row) attempt trades) :
    Funded (step.clock world.clock) row := by
  intro hopen
  cases hw with
  | submitted => exact Or.inl (show 0 < 5 by decide)
  | @claimed input candidate hstored hclaimable =>
    have hbudget := budget_of_open (funded_clock h hc _ candidate hstored)
    rcases claimable_status hclaimable with hs | hs | hs <;>
      exact Or.inl (hbudget (by simp [hs, terminal]) (by simp [hs, completing]))
  | persisted hfenced | failed hfenced =>
    have hbudget := budget_of_fenced h hc hfenced
    exact Or.inl hbudget
  | persistedAudit retryAt hfenced hcancelled | failedAudit kind code error hfenced hcancelled =>
    exact absurd hcancelled (h.live.live _ _ hfenced.candidate_stored)
  | @recovered candidateId error now candidate attempt retrying hstored hs =>
    have hbudget := budget_of_open (funded_clock h hc _ candidate hstored)
      (by simp [hs, terminal]) (by simp [hs, completing])
    exact Or.inl hbudget
  | @repaired candidateId error now candidate attempt hstored hbefore =>
    rcases funded_clock h hc _ candidate hstored hbefore.1 with hbudget | ⟨-, hlease⟩
    · exact Or.inl hbudget
    · exact Or.inr ⟨rfl, hlease⟩
  | @completionClaimed candidateId claimToken now leaseExpiresAt candidate hstored hdue hbudget =>
    by_cases hlast : candidate.completionAttemptCount + 1 = candidate.completionMaxAttempts
    · refine Or.inr ⟨?_, leaseExpiresAt, rfl, hc.2 candidate hstored hlast⟩
      rw [StoredCandidate.completionDue, Bool.and_eq_true, Bool.and_eq_true] at hdue
      exact hdue.1.1
    · refine Or.inl ?_
      change candidate.completionAttemptCount + 1 < candidate.completionMaxAttempts
      omega
  | completionFinalized => cases hopen
  | terminalFailureFinalized => cases hopen
  | @completionFailed copy candidate source claimToken error retryAt now hfenced hread =>
    -- the budget checked is that of `source`, which has the generation of the stored row
    have hstored := h.rows _ _ hfenced.candidate_stored
    have hsame : source.completionAttemptCount = candidate.completionAttemptCount ∧
        source.completionMaxAttempts = candidate.completionMaxAttempts := by
      rcases hread with rfl | rfl
      · exact ⟨rfl, rfl⟩
      · have hcopy := h.copies source henabled
        rw [hcopy.count, hcopy.budget, hstored.count, hstored.budget, hfenced.generation]
        exact ⟨rfl, rfl⟩
    refine Or.inl ?_
    change candidate.completionAttemptCount < candidate.completionMaxAttempts
    by_contra hnot
    have hexhausted : source.completionMaxAttempts ≤ source.completionAttemptCount := by omega
    simp [StoredCandidate.completionFailed, hexhausted, terminal] at hopen
  | @cancelled copy now => exact absurd rfl (not_cancel_of_keepsBudget hc copy now)

theorem fundedInv_next (h : FundedInv world) (henabled : world.enabled step)
    (hc : KeepsBudget world step) : FundedInv (storage.next world step) where
  live := liveInv_next h.live (not_cancel_of_keepsBudget hc)
  rows := rows_next h.rows (budgetInv_write h.rows (not_cancel_of_keepsBudget hc))
  copies := copies_next h.rows h.copies
  funded := rows_next (funded_clock h hc) (funded_write h henabled hc)

/-- In every run without cancellations in which no claim on the last unit of a budget lapses, a
candidate of the completion lane has a live claim or can be claimed. -/
theorem completion_not_stranded (storage : Storage) (steps : List Step)
    (h : storage.system.Legal KeepsBudget World.start steps) :
    NotStranded (storage.after steps) := by
  have hinv : FundedInv (storage.after steps) :=
    h.invariant FundedInv (fun _ _ hw henabled hc => fundedInv_next hw henabled hc) fundedInv_start
  intro candidateId candidate hstored hlane
  rcases hinv.funded candidateId candidate hstored (not_terminal_of_completing hlane) with
    hbudget | ⟨-, hlease⟩
  · exact Or.inr hbudget
  · exact Or.inl hlease

/-- A claim that lapses before the last unit leaves the candidate to the next processor. -/
theorem completion_not_stranded_lapse :
    NotStranded (postgres.after (untilPendingResult ++
      [.claimCompletion "c" "k" 2000 62000, .tick 70000, .claimCompletion "c" "l" 71000 131000])) :=
  completion_not_stranded postgres _ (by decide)

/-- Five processors claim the result one after the other and crash. -/
def fiveCrashes : List Step :=
  untilPendingResult ++
    [.claimCompletion "c" "k1" 2000 62000, .claimCompletion "c" "k2" 62000 122000,
      .claimCompletion "c" "k3" 122000 182000, .claimCompletion "c" "k4" 182000 242000,
      .claimCompletion "c" "k5" 242000 302000, .tick 302000]

theorem not_notStranded {world : World} (candidateId : String)
    (h : (world.stored candidateId).any fun candidate => completing candidate.status &&
      decide (candidate.completionMaxAttempts ≤ candidate.completionAttemptCount) &&
      decide (¬ candidate.LeasedAfter world.clock)) : ¬ NotStranded world := by
  intro hkept
  rw [Option.any_eq_true] at h
  obtain ⟨candidate, hstored, hcandidate⟩ := h
  simp only [Bool.and_eq_true, decide_eq_true_eq] at hcandidate
  rcases hkept candidateId candidate hstored hcandidate.1.1 with hlease | hbudget
  · exact hcandidate.2 hlease
  · exact absurd hbudget (Nat.not_lt.mpr hcandidate.1.2)

/-- After five crashes the budget is used up, the lease is over and the result still pends. -/
theorem completion_stranded :
    (inMemory.system.Legal (fun _ _ => True) World.start fiveCrashes ∧
      ¬ NotStranded (inMemory.after fiveCrashes)) ∧
    (postgres.system.Legal (fun _ _ => True) World.start fiveCrashes ∧
      ¬ NotStranded (postgres.after fiveCrashes)) :=
  ⟨⟨by decide, not_notStranded "c" (by decide)⟩, by decide, not_notStranded "c" (by decide)⟩

end Storage

end Cryptox.Backtesting
