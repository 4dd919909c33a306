import Cryptox.Backtesting.Service.Completion
import Cryptox.Backtesting.Service.SearchCandidates

/-!
# The sealed policy and the executed one

No operation after the submission writes a candidate's scope or execution policy, so the row that
a worker or a replay reads carries the policy that was sealed. What is executed is that policy with
the scope's risk policy under it, which differs as soon as a supplied policy leaves out what the
scope sets.
-/
namespace Cryptox.Backtesting

open Cryptox.Library

/-- The fields of a row that are written once, at submission. -/
structure SealedFields where
  candidateId : String
  leaderboardScopeId : String
  executionPolicy : Option ExecutionPolicySnapshot
deriving DecidableEq, Repr

def StoredCandidate.sealedFields (candidate : StoredCandidate) : SealedFields :=
  ⟨candidate.candidateId, candidate.leaderboardScopeId, candidate.executionPolicy⟩

theorem sealedFields_of_submittedAs {row stored : StoredCandidate} (h : row.SubmittedAs stored) :
    row.sealedFields = stored.sealedFields := by
  rw [← h]
  rfl

namespace Storage

variable {storage : Storage} {state : RepositoryState} {step : Step}

/-- The row a claim is granted on, as it was stored. -/
theorem claimAnswered_submittedAs {claim : WorkerAttemptClaim}
    (h : claimAnswered storage state step = some claim) :
    ∃ candidateId stored, state.candidates.get? candidateId = some stored
      ∧ claim.candidate.SubmittedAs stored := by
  cases step with
  | claimWorkerAttempt input =>
    simp only [claimAnswered] at h
    split at h
    next claim' hanswer =>
      subst h
      cases storage with
      | inMemory =>
        simp only [claimWorkerAttempt, InMemory.claimWorkerAttempt] at hanswer
        split at hanswer
        next => cases hanswer
        next candidate hstored =>
          split at hanswer
          next =>
            cases hanswer
            exact ⟨_, candidate, hstored, rfl⟩
          next => cases hanswer
      | postgres =>
        simp only [claimWorkerAttempt, Postgres.claimWorkerAttempt] at hanswer
        split at hanswer
        next => cases hanswer
        next candidate hstored =>
          split at hanswer
          next =>
            split at hanswer
            next =>
              cases hanswer
              exact ⟨_, candidate, hstored, rfl⟩
            next =>
              split at hanswer
              · cases hanswer
              · cases hanswer
                exact ⟨_, candidate, hstored, rfl⟩
          next => cases hanswer
    next => cases h
  | _ => cases h

end Storage

/-- The submission seals these fields: its candidate, its scope, and the normalized policy. -/
def Submission.Seals (policyHash : NormalizedPolicy → String) (made : Submission)
    (fields : SealedFields) : Prop :=
  fields.candidateId = made.candidateId ∧ fields.leaderboardScopeId = made.scope.id ∧
    ∃ policy, fields.executionPolicy = some policy ∧
      normalizeExecutionPolicy policyHash made.command.executionPolicy (some made.warmupCandles)
        made.scope.riskPolicy = .ok policy

/-- A row that is stored, was read, or came with a granted claim. -/
def ServiceWorld.Known (service : ServiceWorld) (row : StoredCandidate) : Prop :=
  (∃ candidateId, service.world.stored candidateId = some row) ∨ row ∈ service.world.copies ∨
    ∃ claim ∈ service.claims, claim.candidate.toStoredCandidate = row

variable {policyHash : NormalizedPolicy → String} {storage : Storage} {service : ServiceWorld}

theorem findScope_eq_ok {scopes : ScopeTable} {scopeId : String} {owner : Option String}
    {scope : StoredBenchmarkScope} (h : findScope scopes scopeId owner = .ok scope) :
    scopes.get? scopeId = some scope := by
  unfold findScope at h
  split at h
  next found hread =>
    cases h
    exact (Option.filter_eq_some_iff.mp hread).1
  next => cases h

theorem prepareSubmission_seals {deps : Dependencies} {scopes : ScopeTable}
    {command : StartBacktestCommand} {request : SubmissionRequest} {scope : StoredBenchmarkScope}
    {candidate : StoredCandidate}
    (h : prepareSubmission policyHash deps scopes command request = .ok (scope, candidate)) :
    scopes.get? scope.id = some scope ∧
      (Submission.mk request.candidateId command scope candidate.warmupCandles).Seals policyHash
        candidate.sealedFields := by
  simp only [prepareSubmission, bind_eq_ok, pure_eq_ok] at h
  obtain ⟨scope', hscope, references, -, _, -, candles, -, _, -, _, -, policy, hpolicy,
    record, hrecord, hpair⟩ := h
  obtain ⟨rfl, rfl⟩ := Prod.mk.inj hpair
  simp only [candidateRecord, bind_eq_ok, pure_eq_ok] at hrecord
  obtain ⟨_, -, rfl⟩ := hrecord
  have hget := findScope_eq_ok hscope
  exact ⟨Table.get?_key hget, rfl, rfl, policy, rfl, hpolicy⟩

/-- Sending a dispatch writes dispatches only. -/
theorem dispatchOne_eq (deps : Dependencies) (storage : Storage) (repository : RepositoryState)
    (dispatch : BacktestDispatch) (now : Int) :
    ∃ dispatches,
      dispatchOne deps storage repository dispatch now = { repository with dispatches } := by
  unfold dispatchOne
  split
  · exact ⟨repository.dispatches, rfl⟩
  · split <;> cases storage <;>
      simp only [Storage.markDispatchDispatched, Storage.markDispatchFailed,
        InMemory.markDispatchDispatched, InMemory.markDispatchFailed,
        Postgres.markDispatchDispatched, Postgres.markDispatchFailed] <;>
      split <;> first
        | exact ⟨repository.dispatches, rfl⟩
        | exact ⟨_, rfl⟩
        | (split <;> first | exact ⟨repository.dispatches, rfl⟩ | exact ⟨_, rfl⟩)

theorem dispatchOne_candidates (deps : Dependencies) (storage : Storage)
    (repository : RepositoryState) (dispatch : BacktestDispatch) (now : Int) :
    (dispatchOne deps storage repository dispatch now).candidates = repository.candidates := by
  obtain ⟨dispatches, heq⟩ := dispatchOne_eq deps storage repository dispatch now
  rw [heq]

/-- A submission changes nothing but dispatches, beside what `createQueuedSubmission` does. -/
theorem submit_eq (policyHash : NormalizedPolicy → String) (storage : Storage) (deps : Dependencies)
    (scopes : ScopeTable) (repository : RepositoryState) (command : StartBacktestCommand)
    (request : SubmissionRequest) :
    (submit policyHash deps storage scopes repository command request).1 = repository ∨
      ∃ scope candidate dispatches,
        prepareSubmission policyHash deps scopes command request = .ok (scope, candidate) ∧
        (submit policyHash deps storage scopes repository command request).1 =
          { (storage.createQueuedSubmission repository candidate
              (dispatchRecord candidate scope request.now) request.submissionIdempotencyKey).1 with
            dispatches } := by
  unfold submit
  split
  · exact Or.inl rfl
  · split
    · exact Or.inl rfl
    next scope candidate hprepared =>
      refine Or.inr ⟨scope, candidate, ?_⟩
      dsimp only
      generalize storage.createQueuedSubmission repository candidate
        (dispatchRecord candidate scope request.now) request.submissionIdempotencyKey = stored
      obtain ⟨created, error | saved⟩ := stored
      · exact ⟨created.dispatches, hprepared, rfl⟩
      · dsimp only
        generalize (if saved.candidateId = candidate.candidateId then
            some (dispatchRecord candidate scope request.now)
          else created.dispatches.get? saved.queueJobId) = sent
        cases sent with
        | none => exact ⟨created.dispatches, hprepared, rfl⟩
        | some dispatch =>
          obtain ⟨dispatches, heq⟩ := dispatchOne_eq deps storage created dispatch request.now
          exact ⟨dispatches, hprepared, heq⟩

/-- What a submission stores: nothing, or the record it prepared and answers with. -/
theorem submit_cases (policyHash : NormalizedPolicy → String) (storage : Storage)
    (deps : Dependencies) (scopes : ScopeTable) (repository : RepositoryState)
    (command : StartBacktestCommand) (request : SubmissionRequest) :
    (submit policyHash deps storage scopes repository command request).1.candidates =
        repository.candidates ∨
      ∃ scope candidate,
        prepareSubmission policyHash deps scopes command request = .ok (scope, candidate) ∧
        (submit policyHash deps storage scopes repository command request).1.candidates =
          repository.candidates.put candidate ∧
        (submit policyHash deps storage scopes repository command request).2 =
          .ok candidate.accepted := by
  unfold submit
  split
  · exact Or.inl rfl
  · split
    · exact Or.inl rfl
    next scope candidate hprepared =>
      have hcases := Storage.createQueuedSubmission_cases storage repository
        (prepareSubmission_submitted hprepared) (dispatchRecord candidate scope request.now)
        request.submissionIdempotencyKey
      dsimp only
      generalize storage.createQueuedSubmission repository candidate
        (dispatchRecord candidate scope request.now) request.submissionIdempotencyKey = stored
        at hcases ⊢
      obtain ⟨created, error | saved⟩ := stored
      · rcases hcases with hsame | ⟨-, herror⟩
        · exact Or.inl hsame
        · cases herror
      · dsimp only
        generalize (if saved.candidateId = candidate.candidateId then
            some (dispatchRecord candidate scope request.now)
          else created.dispatches.get? saved.queueJobId) = sent
        rcases hcases with hsame | ⟨hput, hsaved⟩
        · refine Or.inl (Eq.trans ?_ hsame)
          cases sent with
          | none => rfl
          | some dispatch => exact dispatchOne_candidates deps storage created dispatch request.now
        · cases hsaved
          refine Or.inr ⟨scope, candidate, hprepared, Eq.trans ?_ hput, rfl⟩
          cases sent with
          | none => rfl
          | some dispatch => exact dispatchOne_candidates deps storage created dispatch request.now

/-- The submission that a stored record is logged as. -/
theorem submissionMade_eq {deps : Dependencies} {command : StartBacktestCommand}
    {request : SubmissionRequest} {scope : StoredBenchmarkScope} {candidate : StoredCandidate}
    (hprepared :
      prepareSubmission policyHash deps service.scopes command request = .ok (scope, candidate))
    (hanswer : (submit policyHash deps storage service.scopes service.repository command request).2 =
      .ok candidate.accepted) :
    submissionMade policyHash storage deps service command request =
      [⟨request.candidateId, command, scope, candidate.warmupCandles⟩] := by
  have hid : candidate.accepted.candidateId = request.candidateId :=
    (prepareSubmission_seals hprepared).2.1
  simp only [submissionMade, hanswer, hprepared, if_pos hid]

/-- Every logged submission was prepared against a stored scope. -/
theorem mem_submissionMade {deps : Dependencies} {command : StartBacktestCommand}
    {request : SubmissionRequest} {made : Submission}
    (h : made ∈ submissionMade policyHash storage deps service command request) :
    made.candidateId = request.candidateId ∧ service.scopes.get? made.scope.id = some made.scope ∧
      ∃ fields, made.Seals policyHash fields := by
  unfold submissionMade at h
  split at h
  next accepted scope candidate hanswer hprepared =>
    split at h
    next =>
      rw [List.mem_singleton] at h
      subst h
      obtain ⟨hscope, hseals⟩ := prepareSubmission_seals hprepared
      exact ⟨rfl, hscope, _, hseals⟩
    next => cases h
  next => cases h

/-- A row that becomes known was submitted as a known one, or is the record of a submission. -/
theorem known_next_cases {step : ServiceStep} (henabled : service.enabled step) {row : StoredCandidate}
    (h : (serviceNext policyHash storage service step).Known row) :
    (∃ known, service.Known known ∧ row.SubmittedAs known) ∨
      ∃ deps command request scope, step = .submit deps command request ∧
        prepareSubmission policyHash deps service.scopes command request = .ok (scope, row) ∧
        (submit policyHash deps storage service.scopes service.repository command request).2 =
          .ok row.accepted := by
  cases step with
  | createScope scope => exact Or.inl ⟨row, h, .refl row⟩
  | submit deps command request =>
    rcases h with ⟨candidateId, hstored⟩ | hread
    · change (submit policyHash deps storage service.scopes service.repository command
        request).1.candidates.get? candidateId = some row at hstored
      rcases submit_cases policyHash storage deps service.scopes
        service.repository command request with hsame | ⟨scope, candidate, hprepared, hput, hanswer⟩
      · rw [hsame] at hstored
        exact Or.inl ⟨row, Or.inl ⟨candidateId, hstored⟩, .refl row⟩
      · rw [hput, Table.get?_put] at hstored
        split at hstored
        · cases hstored
          exact Or.inr ⟨deps, command, request, scope, rfl, hprepared, hanswer⟩
        · exact Or.inl ⟨row, Or.inl ⟨candidateId, hstored⟩, .refl row⟩
    · exact Or.inl ⟨row, Or.inr hread, .refl row⟩
  | operation step =>
    refine Or.inl ?_
    rcases h with ⟨candidateId, hstored⟩ | hcopy | ⟨claim, hclaim, rfl⟩
    · rcases Storage.stored_next_cases storage service.world step candidateId with
        ⟨written, attempt, trades, hwrite, -, hrow⟩ | hsame
      · rw [show (storage.next service.world step).stored candidateId = some row from hstored] at hrow
        cases hrow
        obtain ⟨stored, hsubmitted, hget | ⟨now, rfl⟩⟩ := Storage.write_submittedAs hwrite henabled.1
        · exact ⟨stored, Or.inl ⟨_, hget⟩, hsubmitted⟩
        · exact ⟨stored, Or.inr (Or.inl henabled.2.1), hsubmitted⟩
      · exact ⟨row, Or.inl ⟨candidateId, hsame ▸ hstored⟩, .refl row⟩
    · rcases List.mem_append.mp hcopy with hseen | hold
      · cases step with
        | read candidateId =>
          exact ⟨row, Or.inl ⟨candidateId, Option.mem_toList.mp hseen⟩, .refl row⟩
        | _ => cases hseen
      · exact ⟨row, Or.inr (Or.inl hold), .refl row⟩
    · rcases List.mem_append.mp hclaim with hgranted | hold
      · obtain ⟨candidateId, stored, hget, hsubmitted⟩ :=
          Storage.claimAnswered_submittedAs (Option.mem_toList.mp hgranted)
        exact ⟨stored, Or.inl ⟨candidateId, hget⟩, hsubmitted⟩
      · exact ⟨claim.candidate.toStoredCandidate, Or.inr (Or.inr ⟨claim, hold, rfl⟩), .refl _⟩

/-- A row that becomes known has the sealed fields of a known one, or is the record of the
submission just made. -/
theorem known_next {step : ServiceStep} (henabled : service.enabled step) {row : StoredCandidate}
    (h : (serviceNext policyHash storage service step).Known row) :
    (∃ known, service.Known known ∧ row.sealedFields = known.sealedFields) ∨
      ∃ made ∈ (serviceNext policyHash storage service step).submissions,
        made.Seals policyHash row.sealedFields := by
  rcases known_next_cases henabled h with
    ⟨known, hknown, hsubmitted⟩ | ⟨deps, command, request, scope, rfl, hprepared, hanswer⟩
  · exact Or.inl ⟨known, hknown, sealedFields_of_submittedAs hsubmitted⟩
  · refine Or.inr ⟨⟨request.candidateId, command, scope, row.warmupCandles⟩, ?_,
      (prepareSubmission_seals hprepared).2⟩
    refine List.mem_append_left _ ?_
    rw [submissionMade_eq hprepared hanswer]
    exact List.mem_singleton_self _

structure SealInv (policyHash : NormalizedPolicy → String) (service : ServiceWorld) : Prop where
  rows : ∀ row, service.Known row → ∃ made ∈ service.submissions, made.Seals policyHash row.sealedFields
  sealing : ∀ made ∈ service.submissions, ∃ fields, made.Seals policyHash fields
  scopes : ∀ made ∈ service.submissions, service.scopes.get? made.scope.id = some made.scope
  distinct : (service.submissions.map (·.candidateId)).Nodup

theorem sealInv_start : SealInv policyHash ServiceWorld.start where
  rows := by
    rintro row (⟨candidateId, hstored⟩ | hcopy | ⟨claim, hclaim, -⟩)
    · simp [ServiceWorld.start, World.start, World.stored, RepositoryState.empty] at hstored
    · simp [ServiceWorld.start, World.start] at hcopy
    · simp [ServiceWorld.start] at hclaim
  sealing := fun made hmade => by simp [ServiceWorld.start] at hmade
  scopes := fun made hmade => by simp [ServiceWorld.start] at hmade
  distinct := List.nodup_nil

theorem sealInv_next {step : ServiceStep} (h : SealInv policyHash service)
    (henabled : service.enabled step) :
    SealInv policyHash (serviceNext policyHash storage service step) := by
  have hgrown : ∀ made ∈ service.submissions,
      made ∈ (serviceNext policyHash storage service step).submissions := by
    intro made hmade
    cases step with
    | submit deps command request => exact List.mem_append_right _ hmade
    | _ => exact hmade
  have hrows : ∀ row, (serviceNext policyHash storage service step).Known row →
      ∃ made ∈ (serviceNext policyHash storage service step).submissions,
        made.Seals policyHash row.sealedFields := by
    intro row hknown
    rcases known_next henabled hknown with ⟨known, hold, hfields⟩ | hmade
    · obtain ⟨made, hmem, hseals⟩ := h.rows known hold
      exact ⟨made, hgrown made hmem, hfields ▸ hseals⟩
    · exact hmade
  cases step with
  | createScope scope =>
    refine ⟨hrows, h.sealing, fun made hmade => ?_, h.distinct⟩
    have hstored := h.scopes made hmade
    have hne : made.scope.id ≠ scope.id := by
      intro heq
      have hnone : (service.scopes.get? scope.id).isNone := henabled
      rw [← heq, hstored] at hnone
      cases hnone
    exact (Table.get?_put_of_ne _ hne).trans hstored
  | submit deps command request =>
    refine ⟨hrows, fun made hmade => ?_, fun made hmade => ?_, ?_⟩
    · rcases List.mem_append.mp hmade with hnew | hold
      · exact (mem_submissionMade hnew).2.2
      · exact h.sealing made hold
    · rcases List.mem_append.mp hmade with hnew | hold
      · exact (mem_submissionMade hnew).2.1
      · exact h.scopes made hold
    · change ((submissionMade policyHash storage deps service command request
        ++ service.submissions).map (·.candidateId)).Nodup
      rw [List.map_append, List.nodup_append]
      refine ⟨?_, h.distinct, ?_⟩
      · unfold submissionMade
        split
        · split
          · exact List.nodup_singleton _
          · exact List.nodup_nil
        · exact List.nodup_nil
      · intro madeId hnew otherId hold
        obtain ⟨made, hmade, rfl⟩ := List.mem_map.mp hnew
        obtain ⟨other, hother, rfl⟩ := List.mem_map.mp hold
        rw [(mem_submissionMade hmade).1]
        exact (henabled other hother).symm
  | operation step => exact ⟨hrows, h.sealing, h.scopes, h.distinct⟩

/-- The simulator is given the percentages of the policy. -/
def Executes (policy : ExecutionPolicySnapshot) (input : SimulationInput) : Prop :=
  input.stopLossPercent = policy.stopLossPercent ∧
    input.takeProfitPercent = policy.takeProfitPercent

/-- A supplied policy sets every percentage that the scope's risk policy sets. -/
def CoversRiskPolicy (supplied : Option SuppliedPolicy) (riskPolicy : Option RiskPolicy) : Prop :=
  ∀ policy ∈ supplied,
    (policy.stopLossPercent = none → riskPolicy.bind (·.stopLossPercent) = none) ∧
      (policy.takeProfitPercent = none → riskPolicy.bind (·.takeProfitPercent) = none)

theorem or_eq_left_iff {α : Type} (a b : Option α) : a.or b = a ↔ (a = none → b = none) := by
  cases a <;> simp

theorem normalizeExecutionPolicy_percents {supplied : Option SuppliedPolicy}
    {warmupCandles : Option Nat} {fallback : Option RiskPolicy} {policy : ExecutionPolicySnapshot}
    (h : normalizeExecutionPolicy policyHash supplied warmupCandles fallback = .ok policy) :
    policy.stopLossPercent =
        supplied.elim (fallback.bind (·.stopLossPercent)) (·.stopLossPercent) ∧
      policy.takeProfitPercent =
        supplied.elim (fallback.bind (·.takeProfitPercent)) (·.takeProfitPercent) := by
  simp only [normalizeExecutionPolicy, bind_eq_ok, pure_eq_ok] at h
  obtain ⟨_, -, _, -, rfl⟩ := h
  cases supplied <;> exact ⟨rfl, rfl⟩

/-- The percentages that both input builders compute from the sealed policy and the scope. -/
theorem executed_eq_sealed_iff {supplied : Option SuppliedPolicy} {warmupCandles : Option Nat}
    {fallback : Option RiskPolicy} {policy : ExecutionPolicySnapshot}
    (h : normalizeExecutionPolicy policyHash supplied warmupCandles fallback = .ok policy)
    {input : SimulationInput}
    (hstop : input.stopLossPercent =
      policy.stopLossPercent.or (fallback.bind (·.stopLossPercent)))
    (htake : input.takeProfitPercent =
      policy.takeProfitPercent.or (fallback.bind (·.takeProfitPercent))) :
    Executes policy input ↔ CoversRiskPolicy supplied fallback := by
  obtain ⟨hsealedStop, hsealedTake⟩ := normalizeExecutionPolicy_percents h
  rw [Executes, hstop, htake, or_eq_left_iff, or_eq_left_iff, hsealedStop, hsealedTake]
  cases supplied with
  | none => simp [CoversRiskPolicy]
  | some supplied => simp [CoversRiskPolicy]

theorem workerInput_percents {deps : Dependencies} {scope : StoredBenchmarkScope}
    {claim : WorkerAttemptClaim} {job : BacktestQueueJob} {input : SimulationInput}
    (h : workerInput deps scope claim job = .ok input) :
    input.stopLossPercent = (claim.candidate.executionPolicy.bind (·.stopLossPercent)).or
        (scope.riskPolicy.bind (·.stopLossPercent)) ∧
      input.takeProfitPercent = (claim.candidate.executionPolicy.bind (·.takeProfitPercent)).or
        (scope.riskPolicy.bind (·.takeProfitPercent)) := by
  simp only [workerInput, bind_eq_ok, pure_eq_ok] at h
  obtain ⟨candles, -, strategy, -, requirements, -, sentimentAt, -, rfl⟩ := h
  exact ⟨rfl, rfl⟩

theorem replayInput_percents {deps : Dependencies} {scope : StoredBenchmarkScope}
    {candidate : StoredCandidate} {attempt : BacktestAttemptAudit} {input : SimulationInput}
    (h : replayInput deps scope candidate attempt = .ok input) :
    input.stopLossPercent = (candidate.executionPolicy.bind (·.stopLossPercent)).or
        (scope.riskPolicy.bind (·.stopLossPercent)) ∧
      input.takeProfitPercent = (candidate.executionPolicy.bind (·.takeProfitPercent)).or
        (scope.riskPolicy.bind (·.takeProfitPercent)) := by
  simp only [replayInput, bind_eq_ok, pure_eq_ok] at h
  obtain ⟨candles, -, strategy, -, requirements, -, sentimentAt, -, rfl⟩ := h
  exact ⟨rfl, rfl⟩

/-- A worker reads the scope of a claim it was granted and builds the simulator's input. -/
def WorkerRuns (service : ServiceWorld) (claim : WorkerAttemptClaim) (input : SimulationInput) :
    Prop :=
  claim ∈ service.claims ∧ ∃ deps job scope,
    findScope service.scopes claim.candidate.leaderboardScopeId none = .ok scope ∧
      workerInput deps scope claim job = .ok input

/-- A replay reads the candidate of an experiment and the experiment's scope, for their owner. The
experiment was staged by a completion of a row of that candidate. -/
def ReplayRuns (service : ServiceWorld) (candidate : StoredCandidate) (input : SimulationInput) :
    Prop :=
  candidate ∈ service.world.copies ∧ ∃ completing ∈ service.world.copies,
    ∃ completionScope completed scored experimentId createdAt,
    findScope service.scopes completing.leaderboardScopeId none = .ok completionScope ∧
      let experiment :=
        completionExperiment completing completionScope completed scored experimentId createdAt
      candidate.candidateId = experiment.candidateId ∧
        ∃ deps ownerUserId scope attempt,
          findScope service.scopes experiment.leaderboardScopeId (some ownerUserId) = .ok scope ∧
            replayInput deps scope candidate attempt = .ok input

/-- Every input the simulator is given has the percentages of the sealed policy. -/
def SealedPolicyExecuted (service : ServiceWorld) : Prop :=
  (∀ claim input, WorkerRuns service claim input →
    ∀ policy, claim.candidate.executionPolicy = some policy → Executes policy input) ∧
  (∀ candidate input, ReplayRuns service candidate input →
    ∀ policy, candidate.executionPolicy = some policy → Executes policy input)

/-- The one submission that made a known row is the one with its id. -/
theorem sealed_known (h : SealInv policyHash service) {made : Submission}
    (hmade : made ∈ service.submissions) {row : StoredCandidate} (hknown : service.Known row)
    (hid : row.candidateId = made.candidateId) : made.Seals policyHash row.sealedFields := by
  obtain ⟨made', hmem, hseals⟩ := h.rows row hknown
  have hsame : made' = made :=
    List.inj_on_of_nodup_map h.distinct hmem hmade (hseals.1.symm.trans hid)
  exact hsame ▸ hseals

/-- In every run, for every submission that made a candidate: the sealed policy is what the
submission normalizes to, every row of the candidate carries it, and the worker and the replay
execute its percentages exactly when the submitted policy covers the scope's risk policy. -/
theorem sealed_policy_executed_iff (policyHash : NormalizedPolicy → String) (storage : Storage)
    (steps : List ServiceStep)
    (hlegal : (serviceSystem policyHash storage).Legal (fun _ _ => True) ServiceWorld.start steps)
    (made : Submission) (hmade : made ∈ (serviceAfter policyHash storage steps).submissions) :
    ∃ policy, normalizeExecutionPolicy policyHash made.command.executionPolicy
        (some made.warmupCandles) made.scope.riskPolicy = .ok policy ∧
      (∀ claim input, WorkerRuns (serviceAfter policyHash storage steps) claim input →
        claim.candidate.candidateId = made.candidateId →
        claim.candidate.executionPolicy = some policy ∧
          (Executes policy input ↔
            CoversRiskPolicy made.command.executionPolicy made.scope.riskPolicy)) ∧
      (∀ candidate input, ReplayRuns (serviceAfter policyHash storage steps) candidate input →
        candidate.candidateId = made.candidateId →
        candidate.executionPolicy = some policy ∧
          (Executes policy input ↔
            CoversRiskPolicy made.command.executionPolicy made.scope.riskPolicy)) := by
  have hinv : SealInv policyHash (serviceAfter policyHash storage steps) :=
    hlegal.invariant (SealInv policyHash) (fun _ _ hi he _ => sealInv_next hi he) sealInv_start
  obtain ⟨fields, -, -, policy, -, hpolicy⟩ := hinv.sealing made hmade
  have hscope := hinv.scopes made hmade
  refine ⟨policy, hpolicy, ?_, ?_⟩
  · rintro claim input ⟨hclaim, deps, job, scope, hfound, hinput⟩ hid
    obtain ⟨-, hscopeId, policy', hsealed, hpolicy'⟩ :=
      sealed_known hinv hmade (Or.inr (Or.inr ⟨claim, hclaim, rfl⟩)) hid
    cases hpolicy.symm.trans hpolicy'
    have hread := findScope_eq_ok hfound
    rw [show claim.candidate.leaderboardScopeId = made.scope.id from hscopeId, hscope] at hread
    cases hread
    obtain ⟨hstop, htake⟩ := workerInput_percents hinput
    rw [show claim.candidate.executionPolicy = some policy from hsealed] at hstop htake
    exact ⟨hsealed, executed_eq_sealed_iff hpolicy hstop htake⟩
  · rintro candidate input ⟨hcopy, completing, hcompleting, completionScope, completed, scored,
      experimentId, createdAt, hstaged, hcandidate, deps, ownerUserId, scope, attempt, hfound,
      hinput⟩ hid
    obtain ⟨-, -, policy', hsealed, hpolicy'⟩ :=
      sealed_known hinv hmade (Or.inr (Or.inl hcopy)) hid
    cases hpolicy.symm.trans hpolicy'
    obtain ⟨-, hscopeId, -⟩ :=
      sealed_known hinv hmade (Or.inr (Or.inl hcompleting)) (hcandidate.symm.trans hid)
    have hstagedScope := findScope_eq_ok hstaged
    rw [show completing.leaderboardScopeId = made.scope.id from hscopeId, hscope] at hstagedScope
    cases hstagedScope
    have hread := findScope_eq_ok hfound
    rw [show (completionExperiment completing made.scope completed scored experimentId
      createdAt).leaderboardScopeId = made.scope.id from rfl, hscope] at hread
    cases hread
    obtain ⟨hstop, htake⟩ := replayInput_percents hinput
    rw [show candidate.executionPolicy = some policy from hsealed] at hstop htake
    exact ⟨hsealed, executed_eq_sealed_iff hpolicy hstop htake⟩

theorem sealed_policy_executed_iff_submitted :
    ∃ policy, normalizeExecutionPolicy (fun _ => Sample.commandSha256)
        Sample.submission.command.executionPolicy (some Sample.submission.warmupCandles)
        Sample.submission.scope.riskPolicy = .ok policy ∧
      ∀ claim input, WorkerRuns
          (serviceAfter (fun _ => Sample.commandSha256) .postgres Sample.submitted) claim input →
        claim.candidate.candidateId = "c" →
          claim.candidate.executionPolicy = some policy ∧ ¬ Executes policy input := by
  obtain ⟨policy, hpolicy, hworker, -⟩ :=
    sealed_policy_executed_iff (fun _ => Sample.commandSha256) .postgres Sample.submitted
      (by decide) Sample.submission (by decide)
  refine ⟨policy, hpolicy, fun claim input hruns hid => ?_⟩
  obtain ⟨hsealed, hiff⟩ := hworker claim input hruns hid
  refine ⟨hsealed, fun hexecutes => ?_⟩
  have hcovers := (hiff.mp hexecutes _ rfl).1 rfl
  cases hcovers

/-- The scope's stop loss is executed though the sealed policy has none. -/
theorem sealed_policy_overridden :
    (serviceSystem (fun _ => Sample.commandSha256) .postgres).Legal (fun _ _ => True)
        ServiceWorld.start Sample.submitted ∧
      ¬ SealedPolicyExecuted
        (serviceAfter (fun _ => Sample.commandSha256) .postgres Sample.submitted) := by
  refine ⟨by decide, fun hclaim => ?_⟩
  obtain ⟨claim, hmem, hsealed, hscope, hbuilds⟩ :
      ∃ claim ∈ (serviceAfter (fun _ => Sample.commandSha256) .postgres Sample.submitted).claims,
        claim.candidate.executionPolicy = some Sample.policy ∧
          findScope (serviceAfter (fun _ => Sample.commandSha256) .postgres Sample.submitted).scopes
            claim.candidate.leaderboardScopeId none = .ok Sample.scope ∧
          (workerInput Sample.deps Sample.scope claim Sample.dispatch.job).toBool = true := by
    decide
  obtain ⟨input, hinput⟩ := exists_ok hbuilds
  have hexecutes := hclaim.1 claim input ⟨hmem, _, _, _, hscope, hinput⟩ Sample.policy hsealed
  have hstop := (workerInput_percents hinput).1
  rw [hexecutes.1, hsealed] at hstop
  cases hstop

end Cryptox.Backtesting
