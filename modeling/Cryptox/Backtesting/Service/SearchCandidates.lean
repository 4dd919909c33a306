import Cryptox.Backtesting.Repository.Terminal
import Cryptox.Backtesting.Service.Runs

/-!
# The candidates of a search run

What the service counts of them, and what no operation changes: a step of the repository leaves the
candidates of a run as they are, but for the columns its updates name.
-/
namespace Cryptox.Backtesting

open Cryptox.Library

/-- The candidates the repository lists for a run, for its owner or for anyone. -/
def listCandidatesBySearchRun (repository : RepositoryState) (searchRunId : String)
    (ownerUserId : Option String) : List StoredCandidate :=
  repository.candidates.rows.filter fun candidate =>
    candidate.searchRunId == some searchRunId && ownerUserId.all (candidate.ownerUserId == ·)

def ownedSearchCandidates (repository : RepositoryState) (searchRunId ownerUserId : String) :
    Except String (List StoredCandidate) :=
  let candidates := listCandidatesBySearchRun repository searchRunId (some ownerUserId)
  if candidates.isEmpty && !(listCandidatesBySearchRun repository searchRunId none).isEmpty then
    .error "BACKTEST_SEARCH_RUN_NOT_FOUND"
  else .ok candidates

/-- The counts a search run reads of the summary. The active candidates and the counts of failures and
of attempts, which no fill looks at, are left out. -/
structure SearchCandidateSummary where
  queuedCount : Nat
  runningCount : Nat
  candidatesTested : Nat
deriving DecidableEq, Repr

def countedRunning (status : CandidateStatus) : Bool :=
  status == .backtesting || status == .retryWait || status == .processingResult

def summarizeSearchCandidates (repository : RepositoryState) (searchRunId ownerUserId : String) :
    Except String SearchCandidateSummary := do
  let candidates ← ownedSearchCandidates repository searchRunId ownerUserId
  return {
    queuedCount := candidates.countP (·.status == .queued)
    runningCount := candidates.countP fun candidate => countedRunning candidate.status
    candidatesTested := candidates.countP fun candidate =>
      candidate.status == .completed || candidate.status == .failed }

/-- The fields of a row that no update names: two rows agree on them exactly when writing one's
columns over the other gives the one. -/
def StoredCandidate.SubmittedAs (row stored : StoredCandidate) : Prop :=
  Postgres.overwritten stored row = row

namespace StoredCandidate.SubmittedAs

variable {row stored other : StoredCandidate}

theorem refl (row : StoredCandidate) : row.SubmittedAs row := rfl

theorem trans (h : row.SubmittedAs stored) (h' : stored.SubmittedAs other) :
    row.SubmittedAs other := by
  have hrow : row = Postgres.overwritten stored row := h.symm
  rw [← h'] at hrow
  exact hrow.symm

theorem symm (h : row.SubmittedAs stored) : stored.SubmittedAs row := by
  rw [SubmittedAs, ← h]
  rfl

theorem candidateId (h : row.SubmittedAs stored) : row.candidateId = stored.candidateId := by
  rw [← h]
  rfl

theorem searchRunId (h : row.SubmittedAs stored) : row.searchRunId = stored.searchRunId := by
  rw [← h]
  rfl

theorem iterationNumber (h : row.SubmittedAs stored) :
    row.iterationNumber = stored.iterationNumber := by
  rw [← h]
  rfl

theorem ownerUserId (h : row.SubmittedAs stored) : row.ownerUserId = stored.ownerUserId := by
  rw [← h]
  rfl

end StoredCandidate.SubmittedAs

/-- Every row that was read is the present one, but for the columns of an update. -/
def World.Sourced (world : World) : Prop :=
  ∀ copy ∈ world.copies, ∃ stored, world.stored copy.candidateId = some stored ∧
    copy.SubmittedAs stored

theorem sourced_start : World.start.Sourced := fun _ hmem => by cases hmem

namespace Storage

variable {storage : Storage} {state : RepositoryState} {world : World} {step : Step}

/-- A step other than a submission writes a row over the stored one, or over the one that a
cancellation read. -/
theorem write_submittedAs {row : StoredCandidate} {attempt : Option BacktestAttemptAudit}
    {trades : Option AttemptTrades} (h : Write storage state step (some row) attempt trades)
    (hstep : step.isSubmit = false) :
    ∃ stored, row.SubmittedAs stored ∧
      (state.candidates.get? row.candidateId = some stored ∨ ∃ now, step = .cancel stored now) := by
  cases h with
  | submitted => cases hstep
  | @claimed input candidate hstored =>
    exact ⟨candidate, rfl, Or.inl (Table.get?_key hstored)⟩
  | @persisted input candidate attempt trades hfenced
  | @persistedAudit input candidate attempt trades retryAt hfenced
  | @failed input candidate attempt category hfenced
  | @failedAudit input candidate attempt kind code error hfenced =>
    exact ⟨candidate, rfl, Or.inl (Table.get?_key hfenced.candidate_stored)⟩
  | @recovered candidateId error now candidate attempt retrying hstored
  | @repaired candidateId error now candidate attempt hstored
  | @completionClaimed candidateId claimToken now leaseExpiresAt candidate hstored =>
    exact ⟨candidate, rfl, Or.inl (Table.get?_key hstored)⟩
  | @completionFinalized copy candidate experimentId claimToken now hfenced
  | @terminalFailureFinalized copy candidate claimToken now hfenced
  | @completionFailed copy candidate source claimToken error retryAt now hfenced =>
    exact ⟨candidate, rfl, Or.inl (Table.get?_key hfenced.candidate_stored)⟩
  | @cancelled copy now stored same beneath =>
    rcases beneath with rfl | hstored
    · exact ⟨stored, rfl, Or.inr ⟨now, rfl⟩⟩
    · exact ⟨stored, rfl, Or.inl (Table.get?_key hstored)⟩

/-- The candidates after a step other than a submission: the same, or one of them written over. -/
theorem candidates_next (storage : Storage) (hsourced : world.Sourced) (henabled : world.enabled step)
    (hstep : step.isSubmit = false) :
    (storage.next world step).repository.candidates = world.repository.candidates ∨
      ∃ row stored attempt trades, Write storage world.repository step (some row) attempt trades ∧
        world.stored row.candidateId = some stored ∧ row.SubmittedAs stored ∧
        (storage.next world step).repository.candidates = world.repository.candidates.put row := by
  obtain ⟨candidate, attempt, trades, hwrite, hwrote⟩ := apply_writes storage world.repository step
  have hcandidates : (storage.next world step).repository.candidates =
      world.repository.candidates.putOption candidate := hwrote.candidates
  cases candidate with
  | none => exact Or.inl hcandidates
  | some row =>
    obtain ⟨stored, hrow, hstored | ⟨now, rfl⟩⟩ := write_submittedAs hwrite hstep
    · exact Or.inr ⟨row, stored, attempt, trades, hwrite, hstored, hrow, hcandidates⟩
    · obtain ⟨beneath, hbeneath, hcopy⟩ := hsourced stored henabled.1
      refine Or.inr ⟨row, beneath, attempt, trades, hwrite, ?_, hrow.trans hcopy, hcandidates⟩
      rw [hrow.candidateId]
      exact hbeneath

/-- A submission is stored, and answered with, or it stores nothing. -/
theorem createQueuedSubmission_cases (storage : Storage) (repository : RepositoryState)
    {candidate : StoredCandidate} (h : candidate.submitted = candidate)
    (dispatch : BacktestDispatch) (key : Option String) :
    (storage.createQueuedSubmission repository candidate dispatch key).1.candidates =
        repository.candidates ∨
      (storage.createQueuedSubmission repository candidate dispatch key).1.candidates =
          repository.candidates.put candidate ∧
        (storage.createQueuedSubmission repository candidate dispatch key).2 = .ok candidate := by
  cases storage with
  | inMemory =>
    simp only [Storage.createQueuedSubmission, InMemory.createQueuedSubmission]
    split
    · exact Or.inl rfl
    · split
      · exact Or.inl rfl
      · exact Or.inr ⟨rfl, rfl⟩
  | postgres =>
    have hrow : Postgres.insertedRow candidate = candidate := by
      rw [← h]
      rfl
    simp only [Storage.createQueuedSubmission, Postgres.createQueuedSubmission]
    split
    · exact Or.inl rfl
    · split
      · exact Or.inl rfl
      · refine Or.inr ⟨?_, rfl⟩
        rw [hrow]
        cases key <;> rfl

/-- A submission without a key for an iteration of which there is no candidate is refused, or it is
stored. -/
theorem createQueuedSubmission_new (storage : Storage) {repository : RepositoryState}
    {candidate : StoredCandidate} (h : candidate.submitted = candidate)
    (hsearch : (candidate.searchRunId.isSome && candidate.iterationNumber.isSome) = true)
    (hnone : (repository.candidates.rows.find? fun stored =>
      stored.searchRunId == candidate.searchRunId
        && stored.iterationNumber == candidate.iterationNumber) = none)
    (dispatch : BacktestDispatch) :
    (∃ error, (storage.createQueuedSubmission repository candidate dispatch none).2 =
        .error error) ∨
      (storage.createQueuedSubmission repository candidate dispatch none).1.candidates =
        repository.candidates.put candidate := by
  cases storage with
  | inMemory =>
    simp only [Storage.createQueuedSubmission, InMemory.createQueuedSubmission,
      InMemory.findIteration, hsearch, if_true, hnone]
    exact Or.inr rfl
  | postgres =>
    have hrow : Postgres.insertedRow candidate = candidate := by
      rw [← h]
      rfl
    simp only [Storage.createQueuedSubmission, Postgres.createQueuedSubmission,
      Postgres.findIteration, hsearch, if_true, hnone, hrow]
    split
    · exact Or.inl ⟨_, rfl⟩
    · exact Or.inr rfl

/-- The candidates after a submission: the same, or one more at the end, which is answered. -/
theorem candidates_submit (storage : Storage) {candidate : StoredCandidate}
    {dispatch : BacktestDispatch} {key : Option String}
    (henabled : world.enabled (.submit candidate dispatch key)) :
    (storage.next world (.submit candidate dispatch key)).repository.candidates =
        world.repository.candidates ∨
      ((storage.next world (.submit candidate dispatch key)).repository.candidates =
          world.repository.candidates.put candidate.submitted ∧
        (storage.next world (.submit candidate dispatch key)).repository.candidates.rows =
          world.repository.candidates.rows ++ [candidate.submitted] ∧
        (storage.createQueuedSubmission world.repository candidate.submitted dispatch key).2 =
          .ok candidate.submitted) := by
  have hfresh : world.repository.candidates.get? candidate.submitted.candidateId = none :=
    Option.isNone_iff_eq_none.mp henabled.1
  have hsubmitted : candidate.submitted.submitted = candidate.submitted := rfl
  rcases createQueuedSubmission_cases storage world.repository hsubmitted dispatch key with
    hsame | ⟨hput, hanswer⟩
  · exact Or.inl hsame
  · refine Or.inr ⟨hput, ?_, hanswer⟩
    rw [← Table.rows_put_of_none hfresh, ← hput]
    rfl

/-- A submission for an iteration is stored only where the run has no candidate of that iteration.
Otherwise the candidate there answers it, or it is refused. -/
theorem candidates_submit_iteration (storage : Storage) {candidate : StoredCandidate}
    {dispatch : BacktestDispatch} {searchRunId : String} {iteration : Nat}
    (henabled : world.enabled (.submit candidate dispatch none))
    (hrun : candidate.searchRunId = some searchRunId)
    (hiteration : candidate.iterationNumber = some iteration) :
    ((storage.next world (.submit candidate dispatch none)).repository.candidates =
        world.repository.candidates ∧
      ((∃ stored ∈ world.repository.candidates.rows, stored.searchRunId = some searchRunId ∧
          stored.iterationNumber = some iteration) ∨
        ∃ error, (storage.createQueuedSubmission world.repository candidate.submitted dispatch
          none).2 = .error error)) ∨
      ((∀ stored ∈ world.repository.candidates.rows, stored.searchRunId = some searchRunId →
          stored.iterationNumber ≠ some iteration) ∧
        (storage.next world (.submit candidate dispatch none)).repository.candidates.rows =
          world.repository.candidates.rows ++ [candidate.submitted] ∧
        (storage.createQueuedSubmission world.repository candidate.submitted dispatch none).2 =
          .ok candidate.submitted) := by
  have hsearch : (candidate.submitted.searchRunId.isSome
      && candidate.submitted.iterationNumber.isSome) = true := by
    rw [show candidate.submitted.searchRunId = some searchRunId from hrun,
      show candidate.submitted.iterationNumber = some iteration from hiteration]
    rfl
  cases hfound : world.repository.candidates.rows.find? fun stored =>
    stored.searchRunId == candidate.submitted.searchRunId
      && stored.iterationNumber == candidate.submitted.iterationNumber with
  | some stored =>
    refine Or.inl ⟨?_, Or.inl ⟨stored, List.mem_of_find?_eq_some hfound, ?_⟩⟩
    · cases storage <;>
        simp only [next, apply, createQueuedSubmission, InMemory.createQueuedSubmission,
          Postgres.createQueuedSubmission, InMemory.findIteration, Postgres.findIteration, hsearch,
          if_true, hfound]
    · have hsame := List.find?_some hfound
      rw [Bool.and_eq_true, beq_iff_eq, beq_iff_eq] at hsame
      exact ⟨hsame.1.trans hrun, hsame.2.trans hiteration⟩
  | none =>
    have hnone : ∀ stored ∈ world.repository.candidates.rows,
        stored.searchRunId = some searchRunId → stored.iterationNumber ≠ some iteration := by
      intro stored hmem hstored hsame
      have hnot := List.find?_eq_none.mp hfound stored hmem
      apply hnot
      rw [hstored, hsame, show candidate.submitted.searchRunId = some searchRunId from hrun,
        show candidate.submitted.iterationNumber = some iteration from hiteration]
      simp
    have hsubmitted : candidate.submitted.submitted = candidate.submitted := rfl
    rcases candidates_submit storage henabled with hsame | ⟨-, hstored⟩
    · refine Or.inl ⟨hsame, Or.inr ?_⟩
      rcases createQueuedSubmission_new storage hsubmitted hsearch hfound dispatch with
        hrefused | hput
      · exact hrefused
      · -- the row would be there now
        have hfresh : world.repository.candidates.get? candidate.submitted.candidateId = none :=
          Option.isNone_iff_eq_none.mp henabled.1
        have hthere : (storage.next world (.submit candidate dispatch none)).repository.candidates =
            world.repository.candidates.put candidate.submitted := hput
        rw [← hsame, hthere, Table.get?_put_of_eq _ rfl] at hfresh
        cases hfresh
    · exact Or.inr ⟨hnone, hstored⟩

/-- A row stays what was submitted. -/
theorem stored_next (storage : Storage) (hsourced : world.Sourced)
    (henabled : world.enabled step) {candidateId : String}
    {stored : StoredCandidate} (h : world.stored candidateId = some stored) :
    ∃ row, (storage.next world step).stored candidateId = some row ∧ row.SubmittedAs stored := by
  by_cases hstep : step.isSubmit = true
  · cases step with
    | submit candidate dispatch key =>
      refine ⟨stored, ?_, .refl stored⟩
      rcases candidates_submit storage henabled with hsame | ⟨hput, -⟩
      · rw [World.stored, hsame]
        exact h
      · rw [World.stored, hput, Table.get?_put_of_ne]
        · exact h
        · rintro rfl
          have hnone := Option.isNone_iff_eq_none.mp henabled.1
          rw [show world.stored candidate.candidateId = some stored from h] at hnone
          cases hnone
    | _ => cases hstep
  · rcases candidates_next storage hsourced henabled (Bool.not_eq_true _ ▸ hstep) with
      hsame | ⟨row, beneath, attempt, trades, -, hbeneath, hrow, hput⟩
    · refine ⟨stored, ?_, .refl stored⟩
      rw [World.stored, hsame]
      exact h
    · by_cases hid : candidateId = row.candidateId
      · rw [hid, hbeneath] at h
        cases h
        refine ⟨row, ?_, hrow⟩
        rw [World.stored, hput, Table.get?_put_of_eq _ hid]
      · refine ⟨stored, ?_, .refl stored⟩
        rw [World.stored, hput, Table.get?_put_of_ne _ hid]
        exact h

theorem sourced_next (storage : Storage) (hsourced : world.Sourced) (henabled : world.enabled step) :
    (storage.next world step).Sourced := by
  intro copy hmem
  have hold : ∀ stored, world.stored copy.candidateId = some stored → copy.SubmittedAs stored →
      ∃ row, (storage.next world step).stored copy.candidateId = some row ∧
        copy.SubmittedAs row := by
    intro stored hstored hcopy
    obtain ⟨row, hrow, hsubmitted⟩ := stored_next storage hsourced henabled hstored
    exact ⟨row, hrow, hcopy.trans hsubmitted.symm⟩
  rcases List.mem_append.mp hmem with hseen | hbefore
  · cases step with
    | read candidateId =>
      have hstored := Option.mem_toList.mp hseen
      exact hold copy (Table.get?_key hstored) (.refl copy)
    | _ => cases hseen
  · obtain ⟨stored, hstored, hcopy⟩ := hsourced copy hbefore
    exact hold stored hstored hcopy

end Storage

/-! The candidates of one run, whoever owns them. -/

/-- The candidates submitted for a run, in the order of their submission. -/
def World.ofRun (world : World) (searchRunId : String) : List StoredCandidate :=
  listCandidatesBySearchRun world.repository searchRunId none

/-- The run's candidates that are not completed, failed or cancelled. -/
def World.liveCount (world : World) (searchRunId : String) : Nat :=
  (world.ofRun searchRunId).countP fun candidate => !terminal candidate.status

def StoredCandidate.submission (candidate : StoredCandidate) : String × Option Nat × String :=
  (candidate.candidateId, candidate.iterationNumber, candidate.ownerUserId)

/-- The step submits a candidate for the run. -/
def Step.submitsFor (step : Step) (searchRunId : String) : Bool :=
  match step with
  | submit candidate .. => candidate.searchRunId == some searchRunId
  | _ => false

namespace World

variable {world later : World} {searchRunId : String}

theorem mem_ofRun {candidate : StoredCandidate} :
    candidate ∈ world.ofRun searchRunId ↔ candidate ∈ world.repository.candidates.rows ∧
      candidate.searchRunId = some searchRunId := by
  simp [ofRun, listCandidatesBySearchRun]

theorem ofRun_congr (h : later.repository.candidates = world.repository.candidates) :
    later.ofRun searchRunId = world.ofRun searchRunId := by
  rw [ofRun, listCandidatesBySearchRun, h]
  rfl

theorem ofRun_append {candidate : StoredCandidate}
    (h : later.repository.candidates.rows = world.repository.candidates.rows ++ [candidate]) :
    later.ofRun searchRunId = world.ofRun searchRunId ++
      if candidate.searchRunId = some searchRunId then [candidate] else [] := by
  rw [ofRun, listCandidatesBySearchRun, h, List.filter_append]
  by_cases hrun : candidate.searchRunId = some searchRunId <;>
    simp [hrun, ofRun, listCandidatesBySearchRun]

/-- A row written over another one of the same submission is not seen by who looks at the
submissions of a run only. -/
theorem submissions_put {row stored : StoredCandidate}
    (hstored : world.stored row.candidateId = some stored) (hrow : row.SubmittedAs stored)
    (hput : later.repository.candidates = world.repository.candidates.put row) :
    (later.ofRun searchRunId).map (·.submission) = (world.ofRun searchRunId).map (·.submission) := by
  have hfilter : ∀ candidates : List StoredCandidate,
      (candidates.filter fun candidate => candidate.searchRunId == some searchRunId && true).map
        (·.submission) = candidates.filterMap fun candidate =>
          if candidate.searchRunId = some searchRunId then some candidate.submission else none := by
    intro candidates
    induction candidates with
    | nil => rfl
    | cons candidate rest ih =>
      by_cases hrun : candidate.searchRunId = some searchRunId <;> simp [hrun] <;> simpa using ih
  show ((later.repository.candidates.rows.filter _).map _) = _
  rw [hput]
  refine (hfilter _).trans ((Table.filterMap_put hstored _ ?_).trans (hfilter _).symm)
  rw [hrow.searchRunId, StoredCandidate.submission, hrow.candidateId, hrow.iterationNumber,
    hrow.ownerUserId]
  rfl

theorem liveCount_put {row stored : StoredCandidate}
    (hstored : world.stored row.candidateId = some stored) (hrow : row.SubmittedAs stored)
    (hterminal : terminal stored.status = true → terminal row.status = true)
    (hput : later.repository.candidates = world.repository.candidates.put row) :
    later.liveCount searchRunId ≤ world.liveCount searchRunId := by
  rw [liveCount, liveCount, ofRun, ofRun, listCandidatesBySearchRun, listCandidatesBySearchRun,
    List.countP_filter, List.countP_filter, hput]
  apply Table.countP_put_le hstored
  rw [hrow.searchRunId]
  cases hs : terminal stored.status with
  | false => simp
  | true => simp [hterminal hs]

end World

namespace Storage

variable {storage : Storage} {world : World} {step : Step} {searchRunId : String}

/-- A submission for another run, or for none. -/
theorem ofRun_submit_other {candidate : StoredCandidate} {dispatch : BacktestDispatch}
    {key : Option String} (henabled : world.enabled (.submit candidate dispatch key))
    (hother : (Step.submit candidate dispatch key).submitsFor searchRunId = false) :
    (storage.next world (.submit candidate dispatch key)).ofRun searchRunId =
      world.ofRun searchRunId := by
  have hrun : ¬ candidate.searchRunId = some searchRunId := by simpa [Step.submitsFor] using hother
  rcases candidates_submit storage henabled with hsame | ⟨-, hrows, -⟩
  · exact World.ofRun_congr hsame
  · rw [World.ofRun_append hrows, if_neg (show ¬ candidate.submitted.searchRunId = _ from hrun),
      List.append_nil]

/-- The submissions of a run after a step that makes none for it. -/
theorem submissions_next (storage : Storage) (hsourced : world.Sourced) (henabled : world.enabled step)
    (hother : step.submitsFor searchRunId = false) :
    ((storage.next world step).ofRun searchRunId).map (·.submission) =
      (world.ofRun searchRunId).map (·.submission) := by
  by_cases hstep : step.isSubmit = true
  · cases step with
    | submit candidate dispatch key =>
      rw [ofRun_submit_other henabled hother]
    | _ => cases hstep
  · rcases candidates_next storage hsourced henabled (Bool.not_eq_true _ ▸ hstep) with
      hsame | ⟨row, stored, attempt, trades, -, hstored, hrow, hput⟩
    · rw [World.ofRun_congr hsame]
    · exact World.submissions_put hstored hrow hput

/-- A step that makes no submission for a run and leaves terminal candidates alone adds nothing to
the run's live candidates. -/
theorem liveCount_next (storage : Storage) (hsourced : world.Sourced) (hrows : RowsInv world)
    (henabled : world.enabled step) (hc : LeavesTerminal world step)
    (hother : step.submitsFor searchRunId = false) :
    (storage.next world step).liveCount searchRunId ≤ world.liveCount searchRunId := by
  by_cases hstep : step.isSubmit = true
  · cases step with
    | submit candidate dispatch key =>
      rw [World.liveCount, ofRun_submit_other henabled hother, World.liveCount]
    | _ => cases hstep
  · rcases candidates_next storage hsourced henabled (Bool.not_eq_true _ ▸ hstep) with
      hsame | ⟨row, stored, attempt, trades, hwrite, hstored, hrow, hput⟩
    · rw [World.liveCount, World.ofRun_congr hsame, World.liveCount]
    · refine World.liveCount_put hstored hrow ?_ hput
      intro hterminal
      rw [terminal_write hwrite henabled hc (hrows _ _ hstored) hstored hterminal]
      exact hterminal

end Storage

/-! The counts of a summary. -/

/-- No candidate is ever in the first of the statuses. -/
def World.NoneCreated (world : World) : Prop :=
  ∀ candidateId candidate, world.stored candidateId = some candidate → candidate.status ≠ .created

theorem noneCreated_start : World.start.NoneCreated := fun _ _ h => by cases h

theorem Storage.noneCreated_next {storage : Storage} {world : World} {step : Step}
    (h : world.NoneCreated) : (storage.next world step).NoneCreated := by
  refine rows_next h fun row attempt trades hwrite => ?_
  cases hwrite with
  | submitted | claimed | persisted | repaired | completionFinalized | terminalFailureFinalized
  | cancelled => nofun
  | persistedAudit retryAt hfenced | failedAudit kind code error hfenced =>
    have hstatus := h _ _ hfenced.candidate_stored
    exact hstatus
  | @failed input => cases input.retrying <;> nofun
  | recovered retrying => cases retrying <;> nofun
  | completionClaimed hstored =>
    have hstatus := h _ _ hstored
    exact hstatus
  | completionFailed =>
    show (if _ then CandidateStatus.failed else .processingResult) ≠ .created
    split <;> nofun

def pendingFailures (candidates : List StoredCandidate) : Nat :=
  candidates.countP (·.status == .terminalFailurePending)

/-- What a summary counts as in flight misses the candidates whose failure is pending. -/
theorem counted_add_pending (candidates : List StoredCandidate)
    (h : ∀ candidate ∈ candidates, candidate.status ≠ .created) :
    candidates.countP (·.status == .queued)
        + candidates.countP (fun candidate => countedRunning candidate.status)
        + pendingFailures candidates =
      candidates.countP fun candidate => !terminal candidate.status := by
  induction candidates with
  | nil => rfl
  | cons candidate rest ih =>
    have hrest := ih fun candidate hmem => h candidate (List.mem_cons_of_mem _ hmem)
    have hcreated := h candidate List.mem_cons_self
    simp only [pendingFailures, List.countP_cons] at hrest ⊢
    cases hs : candidate.status <;> simp_all [countedRunning, terminal] <;> omega

/-- The summary of a run all of whose candidates are its owner's. -/
theorem summarize_eq_ok {world : World} {searchRunId ownerUserId : String}
    (howner : ∀ candidate ∈ world.ofRun searchRunId, candidate.ownerUserId = ownerUserId) :
    summarizeSearchCandidates world.repository searchRunId ownerUserId = .ok
      { queuedCount := (world.ofRun searchRunId).countP (·.status == .queued)
        runningCount := (world.ofRun searchRunId).countP fun candidate =>
          countedRunning candidate.status
        candidatesTested := (world.ofRun searchRunId).countP fun candidate =>
          candidate.status == .completed || candidate.status == .failed } := by
  have hlist : listCandidatesBySearchRun world.repository searchRunId (some ownerUserId) =
      world.ofRun searchRunId := by
    refine List.filter_congr fun candidate hmem => ?_
    by_cases hrun : candidate.searchRunId = some searchRunId
    · have hown := howner candidate (World.mem_ofRun.mpr ⟨hmem, hrun⟩)
      simp [hrun, hown]
    · simp [hrun]
  have hopen : ((world.ofRun searchRunId).isEmpty
      && !(listCandidatesBySearchRun world.repository searchRunId none).isEmpty) = false := by
    show ((world.ofRun searchRunId).isEmpty && !(world.ofRun searchRunId).isEmpty) = false
    cases (world.ofRun searchRunId).isEmpty <;> rfl
  rw [summarizeSearchCandidates, ownedSearchCandidates, hlist]
  simp only [hopen, Bool.false_eq_true, if_false]
  rfl

end Cryptox.Backtesting
