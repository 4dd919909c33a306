import Cryptox.Backtesting.Simulator.Prescribed
import Cryptox.Backtesting.Service.Replay
import Cryptox.Backtesting.Service.SealedPolicy

/-!
# What a verified replay says

The worker and the replay build the same simulation, but for the runtime and the instants, which no
trade depends on; so an experiment whose records are kept is verified. A match compares some fields
of the trades only. It is sound where every stored trade is the one that its entry leads to, and of
those that match, only there.
-/
namespace Cryptox.Backtesting

open Cryptox.Library
open Cryptox.Evaluation (EvaluationMetrics)

/-- The same simulation under another runtime and at other instants. -/
def SimulationInput.stamped (input : SimulationInput)
    (version sha256 startedAt completedAt : String) : SimulationInput :=
  { input with workerRuntimeVersion := version, workerRuntimeSha256 := sha256, startedAt, completedAt }

namespace Simulation

variable {calendar : Calendar} {input : SimulationInput}
  {version sha256 startedAt completedAt : String}

def stamped (sim : Simulation) (version sha256 startedAt completedAt : String) : Simulation :=
  { sim with input := sim.input.stamped version sha256 startedAt completedAt }

theorem validateCandles_stamped (previous : Option Candle) (candles : List Candle) :
    validateCandles calendar (input.stamped version sha256 startedAt completedAt) previous candles =
      validateCandles calendar input previous candles := by
  induction candles generalizing previous with
  | nil => rfl
  | cons candle rest ih =>
    simp only [validateCandles, ih]
    rfl

theorem prepare_stamped :
    prepare calendar (input.stamped version sha256 startedAt completedAt) =
      (·.stamped version sha256 startedAt completedAt) <$> prepare calendar input := by
  unfold prepare
  simp only [validateCandles_stamped, map_bind, map_pure]
  rfl

theorem loopUpTo_stamped (sim : Simulation) (count : Nat) :
    (sim.stamped version sha256 startedAt completedAt).loopUpTo count = sim.loopUpTo count := by
  induction count with
  | zero => rfl
  | succ index ih =>
    simp only [loopUpTo, ih]
    rfl

theorem finalState_stamped (sim : Simulation) :
    (sim.stamped version sha256 startedAt completedAt).finalState = sim.finalState := by
  have hcandles : (sim.stamped version sha256 startedAt completedAt).candles = sim.candles := rfl
  simp only [finalState]
  rw [hcandles, loopUpTo_stamped]
  rfl

end Simulation

/-- The trades do not depend on the runtime or the instants. -/
theorem simulateBacktest_stamped {calendar : Calendar} {input : SimulationInput}
    {result : CompletedBacktestResult} (h : simulateBacktest calendar input = .ok result)
    (version sha256 startedAt completedAt : String) :
    simulateBacktest calendar (input.stamped version sha256 startedAt completedAt) =
      .ok { result with
        workerRuntimeVersion := version, workerRuntimeSha256 := sha256, startedAt, completedAt } := by
  simp only [simulateBacktest, bind_eq_ok, pure_eq_ok] at h ⊢
  obtain ⟨sim, hsim, state, hstate, rfl⟩ := h
  refine ⟨sim.stamped version sha256 startedAt completedAt, ?_, state,
    (Simulation.finalState_stamped sim).trans hstate, rfl⟩
  rw [Simulation.prepare_stamped, hsim]
  rfl

theorem simulateBacktest_result {calendar : Calendar} {input : SimulationInput}
    {result : CompletedBacktestResult} (h : simulateBacktest calendar input = .ok result) :
    result.candidateId = input.candidateId ∧ result.attemptId = input.attemptId ∧
      result.initialCapital = input.initialCapital := by
  simp only [simulateBacktest, bind_eq_ok, pure_eq_ok] at h
  obtain ⟨sim, -, state, -, rfl⟩ := h
  exact ⟨rfl, rfl, rfl⟩

/-! What a match says of the two lists of trades. -/

/-- Two lists of trades agree in number, and in the given fields one by one. -/
def TradesAgree (fields : TradeField → Prop) (expected actual : List Trade) : Prop :=
  List.Forall₂ (fun expected actual : Trade =>
    ∀ field, fields field → expected.value field = actual.value field) expected actual

theorem tradesAgree_iff {fields : TradeField → Prop} {expected actual : List Trade} :
    TradesAgree fields expected actual ↔ expected.length = actual.length ∧
      ∀ index < max expected.length actual.length, ∀ field, fields field →
        tradeValue expected index field = tradeValue actual index field := by
  constructor
  · intro h
    have hlength := h.length_eq
    refine ⟨hlength, fun index hindex field hfield => ?_⟩
    have hlt : index < expected.length := by omega
    have hlt' : index < actual.length := by omega
    have hpair := h.get hlt hlt' field hfield
    simpa [tradeValue, hlt, hlt'] using hpair
  · rintro ⟨hlength, hall⟩
    refine List.forall₂_iff_get.mpr ⟨hlength, fun index hlt hlt' field hfield => ?_⟩
    have hpair := hall index (by omega) field hfield
    simpa [tradeValue, hlt, hlt'] using hpair

theorem tradesAgree_refl (fields : TradeField → Prop) (trades : List Trade) :
    TradesAgree fields trades trades :=
  tradesAgree_iff.mpr ⟨rfl, fun _ _ _ _ => rfl⟩

theorem TradesAgree.map_value {fields : TradeField → Prop} {expected actual : List Trade}
    (h : TradesAgree fields expected actual) (field : TradeField) (hfield : fields field) :
    expected.map (·.value field) = actual.map (·.value field) := by
  induction h with
  | nil => rfl
  | cons hpair _ ih => rw [List.map_cons, List.map_cons, hpair field hfield, ih]

/-- The metrics are told apart by their values. -/
theorem metricValues_injective {metrics others : EvaluationMetrics}
    (h : metricValues metrics = metricValues others) : metrics = others := by
  simp only [metricValues, List.cons.injEq, Prod.mk.injEq, true_and, and_true, Json.text.injEq,
    Json.number.injEq, Nat.cast_inj] at h
  obtain ⟨hcandidate, htotal, hwin, hcount, hdrawdown, hfactor, hfactorStatus, hsharpe, hsharpeStatus,
    hpolicy, hversion, hsha⟩ := h
  have hfactor' : metrics.profitFactor = others.profitFactor := by
    cases hm : metrics.profitFactor <;> cases ho : others.profitFactor <;> simp_all
  have hfactorStatus' : metrics.profitFactorStatus = others.profitFactorStatus := by
    cases hm : metrics.profitFactorStatus <;> cases ho : others.profitFactorStatus <;>
      simp_all [Json.profitFactorStatus]
  have hsharpeStatus' : metrics.sharpeRatioStatus = others.sharpeRatioStatus := by
    cases hm : metrics.sharpeRatioStatus <;> cases ho : others.sharpeRatioStatus <;>
      simp_all [Json.sharpeRatioStatus]
  cases metrics
  cases others
  simp_all

theorem compare_eq_nil {fieldPath : String} {expected actual : Json} :
    compare fieldPath expected actual = [] ↔ expected = actual := by
  by_cases h : expected = actual <;> simp [compare, h]

/-- Two records with the same keys are compared value by value. -/
theorem compared_eq_nil {expected actual : List (String × Json)}
    (hkeys : expected.map (·.1) = actual.map (·.1)) :
    ((expected.zip actual).flatMap fun (expected, actual) =>
      compare ("metrics." ++ expected.1) expected.2 actual.2) = [] ↔ expected = actual := by
  induction expected generalizing actual with
  | nil =>
    cases actual with
    | nil => exact ⟨fun _ => rfl, fun _ => rfl⟩
    | cons first rest => cases hkeys
  | cons first rest ih =>
    cases actual with
    | nil => cases hkeys
    | cons other others =>
      obtain ⟨hkey, hrest⟩ := List.cons.inj hkeys
      rw [List.zip_cons_cons, List.flatMap_cons, List.append_eq_nil_iff, compare_eq_nil, ih hrest,
        List.cons.injEq, Prod.ext_iff]
      exact ⟨fun h => ⟨⟨hkey, h.1⟩, h.2⟩, fun h => ⟨h.1.2, h.2⟩⟩

namespace Replay

variable {replay : Replay}

/-- Everything that is compared agrees. -/
structure ComparedAlike (replay : Replay) : Prop where
  trades : TradesAgree (· ∈ tradeFields) replay.experiment.trades replay.result.trades
  metrics : replay.experiment.metrics = replay.metrics
  policy : replay.experiment.executionPolicy.getD replay.replayPolicy = replay.replayPolicy

/-- The stored trades and those of the re-run agree in number and in every field, and the metrics
agree. -/
structure Alike (replay : Replay) : Prop where
  trades : TradesAgree (fun _ => True) replay.experiment.trades replay.result.trades
  metrics : replay.experiment.metrics = replay.metrics

theorem metricMismatches_eq_nil :
    replay.metricMismatches = [] ↔ replay.experiment.metrics = replay.metrics := by
  have hkeys : (metricValues replay.experiment.metrics).map (·.1) =
      (metricValues replay.metrics).map (·.1) := rfl
  exact (compared_eq_nil hkeys).trans
    ⟨metricValues_injective, fun h => congrArg metricValues h⟩

theorem mismatches_eq_nil : replay.mismatches = [] ↔ replay.ComparedAlike := by
  have htrades : compare "trades.length" (.number replay.experiment.trades.length)
      (.number replay.result.trades.length) = [] ∧ replay.tradeMismatches = [] ↔
      TradesAgree (· ∈ tradeFields) replay.experiment.trades replay.result.trades := by
    rw [compare_eq_nil, tradesAgree_iff, Json.number.injEq, Nat.cast_inj]
    simp only [tradeMismatches, List.flatMap_eq_nil_iff, List.mem_range, compare_eq_nil, tradeCount]
  rw [mismatches, List.append_eq_nil_iff, List.append_eq_nil_iff, List.append_eq_nil_iff, htrades,
    metricMismatches_eq_nil, compare_eq_nil, Json.policy.injEq]
  constructor
  · rintro ⟨⟨hagree, hmetrics⟩, hpolicy⟩
    exact ⟨hagree, hmetrics, hpolicy⟩
  · rintro ⟨hagree, hmetrics, hpolicy⟩
    exact ⟨⟨hagree, hmetrics⟩, hpolicy⟩

theorem matched_iff : replay.answer.status = .matched ↔ replay.ComparedAlike := by
  rw [← mismatches_eq_nil, ← List.length_eq_zero_iff]
  by_cases h : replay.mismatches.length = 0 <;> simp [answer, h]

end Replay

/-! What holds of every reachable service: a known row's scope is its owner's, and in the database a
running attempt has no trades. -/

variable {policyHash : NormalizedPolicy → String} {storage : Storage} {service : ServiceWorld}

def ServiceWorld.OwnScope (service : ServiceWorld) (row : StoredCandidate) : Prop :=
  ∃ scope, service.scopes.get? row.leaderboardScopeId = some scope ∧
    scope.ownerUserId = row.ownerUserId

structure ReplayInv (policyHash : NormalizedPolicy → String) (storage : Storage)
    (service : ServiceWorld) : Prop where
  sealing : SealInv policyHash service
  workers : WorkerInv service.world
  settled : storage = .postgres → TradesSettled service.world
  owned : ∀ row, service.Known row → service.OwnScope row

theorem replayInv_start : ReplayInv policyHash storage ServiceWorld.start where
  sealing := sealInv_start
  workers := Storage.workerInv_start
  settled := fun _ => tradesSettled_start
  owned := by
    intro row hknown
    have hsealing : SealInv policyHash ServiceWorld.start := sealInv_start
    obtain ⟨made, hmade, -⟩ := hsealing.rows row hknown
    cases hmade

theorem findScope_owner {scopes : ScopeTable} {scopeId ownerUserId : String}
    {scope : StoredBenchmarkScope} (h : findScope scopes scopeId (some ownerUserId) = .ok scope) :
    scope.ownerUserId = ownerUserId := by
  unfold findScope at h
  split at h
  next found hread =>
    cases h
    have howner := (Option.filter_eq_some_iff.mp hread).2
    simpa using howner
  next => cases h

theorem prepareSubmission_owned {deps : Dependencies} {scopes : ScopeTable}
    {command : StartBacktestCommand} {request : SubmissionRequest} {scope : StoredBenchmarkScope}
    {candidate : StoredCandidate}
    (h : prepareSubmission policyHash deps scopes command request = .ok (scope, candidate)) :
    candidate.candidateId = request.candidateId ∧ candidate.ownerUserId = request.ownerUserId ∧
      scopes.get? candidate.leaderboardScopeId = some scope ∧
      scope.ownerUserId = candidate.ownerUserId := by
  have hseals := prepareSubmission_seals h
  simp only [prepareSubmission, bind_eq_ok, pure_eq_ok] at h
  obtain ⟨scope', hscope, references, -, _, -, candles, -, _, -, _, -, policy, -, record, hrecord,
    hpair⟩ := h
  obtain ⟨rfl, rfl⟩ := Prod.mk.inj hpair
  have howner := findScope_owner hscope
  simp only [candidateRecord, bind_eq_ok, pure_eq_ok] at hrecord
  obtain ⟨_, -, rfl⟩ := hrecord
  exact ⟨rfl, rfl, hseals.1, howner⟩

/-- A submission's id is not stored before it. -/
theorem SealInv.fresh (h : SealInv policyHash service) {candidateId : String}
    (henabled : ∀ made ∈ service.submissions, made.candidateId ≠ candidateId) :
    service.world.stored candidateId = none := by
  rw [Option.eq_none_iff_forall_not_mem]
  intro row hstored
  obtain ⟨made, hmade, hid, -⟩ := h.rows row (Or.inl ⟨candidateId, hstored⟩)
  have hkey : row.candidateId = candidateId := Table.key_of_get? hstored
  exact henabled made hmade (hid.symm.trans hkey)

/-- Dispatches are no part of what workers find. -/
theorem WorkerInv.dispatches {world : World} (h : WorkerInv world) {repository : RepositoryState}
    {dispatches : Cryptox.Library.Table BacktestDispatch.jobId} {clock : Int}
    {granted : List (String × String)} (hrepository : world.repository = repository) :
    WorkerInv ⟨{ repository with dispatches }, clock, world.copies, granted⟩ := by
  subst hrepository
  exact ⟨h.keyed, h.owned, h.fenced, h.active, h.delivered, h.apart, h.copied⟩

theorem replayInv_submit (h : ReplayInv policyHash storage service) {deps : Dependencies}
    {command : StartBacktestCommand} {request : SubmissionRequest}
    (henabled : service.enabled (.submit deps command request)) :
    WorkerInv (serviceNext policyHash storage service (.submit deps command request)).world ∧
      (storage = .postgres → TradesSettled
        (serviceNext policyHash storage service (.submit deps command request)).world) := by
  have hnext : (serviceNext policyHash storage service (.submit deps command request)).world =
      { service.world with
        repository := (submit policyHash deps storage service.scopes service.repository command
          request).1 } := rfl
  rw [hnext]
  rcases submit_eq policyHash storage deps service.scopes service.repository command request with
    hsame | ⟨scope, candidate, dispatches, hprepared, heq⟩
  · rw [hsame]
    exact ⟨h.workers, h.settled⟩
  · rw [heq]
    have hfresh : service.world.stored candidate.candidateId = none := by
      rw [(prepareSubmission_owned hprepared).1]
      exact h.sealing.fresh henabled
    let step : Step :=
      .submit candidate (dispatchRecord candidate scope request.now) request.submissionIdempotencyKey
    have hstep : service.world.enabled step := ⟨by rw [hfresh]; rfl, rfl, rfl⟩
    have hrepository : (storage.next service.world step).repository =
        (storage.createQueuedSubmission service.repository candidate
          (dispatchRecord candidate scope request.now) request.submissionIdempotencyKey).1 := by
      change (storage.createQueuedSubmission service.repository candidate.submitted _ _).1 = _
      rw [prepareSubmission_submitted hprepared]
    refine ⟨WorkerInv.dispatches (Storage.workerInv_next h.workers hstep) hrepository, ?_⟩
    intro hpostgres
    have hsettled : TradesSettled (storage.next service.world step) := by
      subst hpostgres
      exact Storage.tradesSettled_next h.workers (h.settled rfl) hstep
    rw [← hrepository]
    exact hsettled

theorem replayInv_next {step : ServiceStep} (h : ReplayInv policyHash storage service)
    (henabled : service.enabled step) :
    ReplayInv policyHash storage (serviceNext policyHash storage service step) := by
  have hworld : WorkerInv (serviceNext policyHash storage service step).world ∧
      (storage = .postgres → TradesSettled (serviceNext policyHash storage service step).world) := by
    cases step with
    | createScope scope => exact ⟨h.workers, h.settled⟩
    | submit deps command request => exact replayInv_submit h henabled
    | operation step =>
      refine ⟨Storage.workerInv_next h.workers henabled.2, ?_⟩
      rintro rfl
      exact Storage.tradesSettled_next h.workers (h.settled rfl) henabled.2
  refine ⟨sealInv_next h.sealing henabled, hworld.1, hworld.2, ?_⟩
  intro row hknown
  have hgrown : ∀ scopeId scope, service.scopes.get? scopeId = some scope →
      (serviceNext policyHash storage service step).scopes.get? scopeId = some scope := by
    intro scopeId scope hget
    cases step with
    | createScope created =>
      have hne : scopeId ≠ created.id := by
        rintro rfl
        have hnone : (service.scopes.get? created.id).isNone := henabled
        rw [hget] at hnone
        cases hnone
      exact (Table.get?_put_of_ne _ hne).trans hget
    | _ => exact hget
  rcases known_next_cases henabled hknown with
    ⟨known, hold, hsubmitted⟩ | ⟨deps, command, request, scope, rfl, hprepared, -⟩
  · obtain ⟨scope, hget, howner⟩ := h.owned known hold
    have hscopeId : row.leaderboardScopeId = known.leaderboardScopeId := by
      rw [← hsubmitted]
      rfl
    exact ⟨scope, by rw [hscopeId]; exact hgrown _ _ hget, by rw [howner, hsubmitted.ownerUserId]⟩
  · obtain ⟨-, -, hget, howner⟩ := prepareSubmission_owned hprepared
    exact ⟨scope, hgrown _ _ hget, howner⟩

theorem replayInv_after {steps : List ServiceStep}
    (h : (serviceSystem policyHash storage).Legal (fun _ _ => True) ServiceWorld.start steps) :
    ReplayInv policyHash storage (serviceAfter policyHash storage steps) :=
  h.invariant (ReplayInv policyHash storage) (fun _ _ hi he _ => replayInv_next hi he)
    replayInv_start

/-! From a worker's run to the verification of its experiment. -/

variable {deps : Dependencies} {evaluate : CompletedBacktestResult → Except String EvaluationMetrics}

/-- A run that is answered simulated the claimed attempt and stored its trades. -/
theorem runClaimedAttempt_ok {scopes : ScopeTable} {repository ran : RepositoryState}
    {claim : WorkerAttemptClaim} {job : BacktestQueueJob} {now : Int} {returned : BacktestQueueReturn}
    (h : runClaimedAttempt deps storage scopes repository claim job now = (ran, .ok returned)) :
    ∃ scope input result, findScope scopes claim.candidate.leaderboardScopeId none = .ok scope ∧
      workerInput deps scope claim job = .ok input ∧
      simulateBacktest deps.calendar input = .ok result ∧
      storage.persistWorkerSuccess repository ⟨claim.candidate.candidateId, claim.attempt.attemptId,
        claim.fenceToken, now, result.trades⟩ = (ran, .ok ()) := by
  have hfailed : ∀ state message,
      failClaimedAttempt storage state claim job now message ≠ (ran, .ok returned) := by
    intro state message hok
    unfold failClaimedAttempt at hok
    split at hok <;> cases hok
  unfold runClaimedAttempt at h
  dsimp only at h
  split at h
  next => exact absurd h (hfailed _ _)
  next result hresult =>
    split at h
    next state hpersisted =>
      cases h
      obtain ⟨scope, hscope, hsimulated⟩ := bind_eq_ok.mp hresult
      obtain ⟨input, hinput, hsimulated⟩ := bind_eq_ok.mp hsimulated
      exact ⟨scope, input, result, hscope, hinput, hsimulated, hpersisted⟩
    next => exact absurd h (hfailed _ _)

/-- In a reachable service the trades stored for a run's attempt are those of the run. -/
theorem ran_trades (h : ReplayInv policyHash storage service) {ran : RepositoryState}
    {input : WorkerSuccessInput}
    (hran : storage.persistWorkerSuccess service.repository input = (ran, .ok ())) :
    listTrades ran input.attemptId = input.trades ∧
      ∃ attempt, ran.attempts.get? input.attemptId = some attempt ∧
        attempt.completedAt = some input.completedAt := by
  obtain ⟨attempt, auditOnly, hattempt, hrunning, hcompleted, htrades⟩ :=
    Storage.persistWorkerSuccess_ok hran
  refine ⟨htrades fun hpostgres => ?_, _, hcompleted, rfl⟩
  unfold listTrades
  cases hget : service.repository.trades.get? input.attemptId with
  | none => rfl
  | some rows =>
    obtain ⟨⟨found, hfound, hs⟩, -⟩ := h.settled hpostgres _ _ hget
    have hsame : some found = some attempt := hfound.symm.trans hattempt
    cases hsame
    rw [hrunning hpostgres] at hs
    cases hs

theorem readLatestCompletedAttempt_mem {repository : RepositoryState} {candidateId : String}
    {attempt : BacktestAttemptAudit}
    (h : storage.readLatestCompletedAttempt repository candidateId = some attempt) :
    repository.attempts.get? attempt.attemptId = some attempt ∧
      attempt.candidateId = candidateId := by
  have hmem : attempt ∈ repository.attemptsOf candidateId := by
    cases storage <;>
    · have hsorted := List.mem_of_head? h
      rw [List.mem_insertionSort] at hsorted
      exact (List.mem_filter.mp hsorted).1
  exact Storage.mem_attemptsOf.mp hmem

/-- An experiment of `completionRecord`, made of the attempt it names. -/
theorem completionRecord_ok {score : String → EvaluationMetrics → Except String Scored}
    {scopes : ScopeTable} {repository : RepositoryState} {candidate : StoredCandidate}
    {experimentId : String} {now : Int} {experiment : ExperimentRecord}
    (h : completionRecord deps evaluate score storage scopes repository candidate experimentId now =
      .ok experiment) :
    ∃ attempt scope, repository.attempts.get? experiment.backtestAttemptId = some attempt ∧
      attempt.candidateId = candidate.candidateId ∧ attempt.attemptId = experiment.backtestAttemptId ∧
      findScope scopes candidate.leaderboardScopeId none = .ok scope ∧
      experiment.ownerUserId = candidate.ownerUserId ∧
      experiment.candidateId = candidate.candidateId ∧ experiment.leaderboardScopeId = scope.id ∧
      experiment.executionPolicy = candidate.executionPolicy ∧
      experiment.trades = listTrades repository experiment.backtestAttemptId ∧
      evaluate (completionResult deps scope attempt candidate.candidateId experiment.trades now) =
        .ok experiment.metrics ∧ experiment.id = experimentId := by
  unfold completionRecord at h
  split at h
  next => cases h
  next attempt hattempt =>
    obtain ⟨hget, hcandidate⟩ := readLatestCompletedAttempt_mem hattempt
    simp only [bind_eq_ok, pure_eq_ok] at h
    obtain ⟨scope, hscope, metrics, hmetrics, scored, -, rfl⟩ := h
    exact ⟨attempt, scope, hget, hcandidate, rfl, hscope, rfl, rfl, rfl, rfl, rfl, hmetrics, rfl⟩

/-- The replay of a row of the same submission is the worker's simulation, stamped otherwise. -/
theorem replayInput_of_workerInput {scope : StoredBenchmarkScope} {claim : WorkerAttemptClaim}
    {job : BacktestQueueJob} {input : SimulationInput} {row : StoredCandidate}
    {attempt : BacktestAttemptAudit} (h : workerInput deps scope claim job = .ok input)
    (hrow : row.SubmittedAs claim.candidate.toStoredCandidate)
    (hid : attempt.attemptId = claim.attempt.attemptId) :
    replayInput deps scope row attempt = .ok (input.stamped attempt.workerRuntimeVersion
      attempt.workerRuntimeSha256 (deps.isoText attempt.startedAt)
      (deps.isoText (attempt.completedAt.getD attempt.startedAt))) := by
  rw [← hrow]
  simp only [workerInput, bind_eq_ok, pure_eq_ok] at h
  obtain ⟨candles, hcandles, strategy, hstrategy, requirements, hrequirements, sentimentAt,
    hsentiment, rfl⟩ := h
  simp only [replayInput, bind_eq_ok, pure_eq_ok]
  refine ⟨candles, hcandles, strategy, hstrategy, requirements, hrequirements, sentimentAt,
    hsentiment, ?_⟩
  rw [hid]
  rfl

/-- An experiment that a worker's run produced, and the completion that followed it: the completion
read the attempt, its trades and the scope as they were stored, and a row of the same submission. -/
structure Production (policyHash : NormalizedPolicy → String) (deps : Dependencies)
    (evaluate : CompletedBacktestResult → Except String EvaluationMetrics) (storage : Storage)
    (experiment : ExperimentRecord) where
  steps : List ServiceStep
  legal : (serviceSystem policyHash storage).Legal (fun _ _ => True) ServiceWorld.start steps
  claim : WorkerAttemptClaim
  granted : claim ∈ (serviceAfter policyHash storage steps).claims
  job : BacktestQueueJob
  ranAt : Int
  ran : RepositoryState
  returned : BacktestQueueReturn
  runs : runClaimedAttempt deps storage (serviceAfter policyHash storage steps).scopes
    (serviceAfter policyHash storage steps).repository claim job ranAt = (ran, .ok returned)
  scopes : ScopeTable
  repository : RepositoryState
  candidate : StoredCandidate
  submitted : candidate.SubmittedAs claim.candidate.toStoredCandidate
  attempt_kept : repository.attempts.get? claim.attempt.attemptId =
    ran.attempts.get? claim.attempt.attemptId
  trades_kept : listTrades repository claim.attempt.attemptId =
    listTrades ran claim.attempt.attemptId
  scope_kept : scopes.get? claim.candidate.leaderboardScopeId =
    (serviceAfter policyHash storage steps).scopes.get? claim.candidate.leaderboardScopeId
  score : String → EvaluationMetrics → Except String Scored
  completedAt : Int
  completes : completionRecord deps evaluate score storage scopes repository candidate experiment.id
    completedAt = .ok experiment
  of_run : experiment.backtestAttemptId = claim.attempt.attemptId

/-- What was stored is what a verification reads. -/
structure Production.Kept {experiment : ExperimentRecord}
    (production : Production policyHash deps evaluate storage experiment) (records : ReplayRecords) :
    Prop where
  experiment_stored : records.experiments.get? experiment.id = some experiment
  candidate_stored : ∃ row, records.repository.candidates.get? experiment.candidateId = some row ∧
    row.SubmittedAs production.candidate
  attempt_stored : records.repository.attempts.get? experiment.backtestAttemptId =
    production.repository.attempts.get? experiment.backtestAttemptId
  scope_stored : records.scopes.get? experiment.leaderboardScopeId =
    production.scopes.get? experiment.leaderboardScopeId

theorem workerInput_names {scope : StoredBenchmarkScope} {claim : WorkerAttemptClaim}
    {job : BacktestQueueJob} {input : SimulationInput}
    (h : workerInput deps scope claim job = .ok input) :
    input.candidateId = claim.candidate.candidateId ∧
      input.attemptId = claim.attempt.attemptId.text ∧
      input.initialCapital = scope.initialCapital := by
  simp only [workerInput, bind_eq_ok, pure_eq_ok] at h
  obtain ⟨candles, -, strategy, -, requirements, -, sentimentAt, -, rfl⟩ := h
  exact ⟨rfl, rfl, rfl⟩

theorem findScope_some {scopes : ScopeTable} {scopeId : String} {scope : StoredBenchmarkScope}
    {ownerUserId : String} (h : scopes.get? scopeId = some scope)
    (howner : scope.ownerUserId = ownerUserId) :
    findScope scopes scopeId (some ownerUserId) = .ok scope := by
  simp [findScope, readScope, h, howner, Option.filter_some]

/-- Everything a verification reads of a produced experiment is there, for its owner. -/
theorem records_read {records : ReplayRecords} {userId : String} {experiment : ExperimentRecord}
    {row : StoredCandidate} {attempt : BacktestAttemptAudit}
    (hexperiment : records.experiments.get? experiment.id = some experiment)
    (howner : experiment.ownerUserId = userId)
    (hrow : records.repository.candidates.get? experiment.candidateId = some row)
    (hrowOwner : row.ownerUserId = userId)
    (hattempt : records.repository.attempts.get? experiment.backtestAttemptId = some attempt)
    (hcandidate : attempt.candidateId = experiment.candidateId) :
    records.readExperimentSummary userId experiment.id = .ok experiment ∧
      records.ownedCandidate userId experiment.candidateId = .ok row ∧
      records.readAttempt userId experiment.backtestAttemptId = .ok attempt := by
  have howned : records.ownedCandidate userId experiment.candidateId = .ok row := by
    simp [ReplayRecords.ownedCandidate, hrow, hrowOwner, Option.filter_some]
  refine ⟨?_, howned, ?_⟩
  · simp [ReplayRecords.readExperimentSummary, hexperiment, howner, Option.filter_some]
  · have hread : (records.ownedCandidate userId attempt.candidateId).toBool = true := by
      rw [hcandidate, howned]
      rfl
    simp only [ReplayRecords.readAttempt, hattempt, Option.filter_some, hread, if_true]

/-- The replay of a produced experiment, its metrics and policy. -/
theorem rerun_of_production {experiment : ExperimentRecord}
    (production : Production policyHash deps evaluate storage experiment) {records : ReplayRecords}
    (hkept : production.Kept records) (hauth : isBlank experiment.ownerUserId = false) :
    ∃ replay, rerun policyHash deps evaluate records experiment.ownerUserId experiment.id = .ok replay ∧
      replay.experiment = experiment ∧ replay.result.trades = experiment.trades ∧
      replay.metrics = experiment.metrics ∧ experiment.executionPolicy = some replay.replayPolicy := by
  have hinv := replayInv_after production.legal
  have hknown : (serviceAfter policyHash storage production.steps).Known
      production.claim.candidate.toStoredCandidate :=
    Or.inr (Or.inr ⟨production.claim, production.granted, rfl⟩)
  -- the run, and what it left
  obtain ⟨scope, input, result, hscope, hinput, hresult, hpersisted⟩ :=
    runClaimedAttempt_ok production.runs
  obtain ⟨htrades, stored, hstored, hcompletedAt⟩ := ran_trades hinv hpersisted
  -- the completion, which read it
  obtain ⟨attempt, completionScope, hattempt, hcandidate, hattemptId, hcompletionScope, howner,
    hexperimentCandidate, hscopeId, hpolicy, hlisted, hmetrics, -⟩ :=
    completionRecord_ok production.completes
  have hattemptEq : attempt = stored := by
    rw [production.of_run, production.attempt_kept] at hattempt
    exact Option.some.inj (hattempt.symm.trans hstored)
  have hexperimentTrades : experiment.trades = result.trades := by
    rw [hlisted, production.of_run, production.trades_kept]
    exact htrades
  have hcandidateScope : production.candidate.leaderboardScopeId =
      production.claim.candidate.leaderboardScopeId := by
    rw [← production.submitted]
    rfl
  have hfound := findScope_eq_ok hscope
  have hscopeEq : completionScope = scope := by
    have hread := findScope_eq_ok hcompletionScope
    rw [hcandidateScope, production.scope_kept] at hread
    exact Option.some.inj (hread.symm.trans hfound)
  subst hattemptEq hscopeEq
  -- the records
  obtain ⟨row, hrow, hrowSubmitted⟩ := hkept.candidate_stored
  have hrowOwner : row.ownerUserId = experiment.ownerUserId := by
    rw [howner, hrowSubmitted.ownerUserId]
  have hread := records_read hkept.experiment_stored rfl hrow hrowOwner
    (hkept.attempt_stored.trans hattempt)
    (hcandidate.trans hexperimentCandidate.symm)
  have hkeptScope : findScope records.scopes experiment.leaderboardScopeId
      (some experiment.ownerUserId) = .ok completionScope := by
    refine findScope_some ?_ ?_
    · rw [hkept.scope_stored, hscopeId]
      exact Table.get?_key (findScope_eq_ok hcompletionScope)
    · obtain ⟨owned, hget, hownedBy⟩ := hinv.owned _ hknown
      cases hget.symm.trans hfound
      rw [hownedBy, howner, production.submitted.ownerUserId]
  have hsubmitted := hrowSubmitted.trans production.submitted
  have hreplay := replayInput_of_workerInput hinput hsubmitted (hattemptId.trans production.of_run)
  have hrerun := simulateBacktest_stamped hresult attempt.workerRuntimeVersion
    attempt.workerRuntimeSha256 (deps.isoText attempt.startedAt)
    (deps.isoText (attempt.completedAt.getD attempt.startedAt))
  obtain ⟨made, hmade, -, -, policy, hsealed, -⟩ := hinv.sealing.rows _ hknown
  have hrowPolicy : row.executionPolicy = some policy := by
    rw [← hsubmitted]
    exact hsealed
  have hexperimentPolicy : experiment.executionPolicy = some policy := by
    rw [hpolicy, ← production.submitted]
    exact hsealed
  -- the replay is evaluated as the completed attempt was
  obtain ⟨hinputCandidate, hinputAttempt, hinputCapital⟩ := workerInput_names hinput
  obtain ⟨hresultCandidate, hresultAttempt, hresultCapital⟩ := simulateBacktest_result hresult
  let rerunResult : CompletedBacktestResult :=
    { result with
      workerRuntimeVersion := attempt.workerRuntimeVersion
      workerRuntimeSha256 := attempt.workerRuntimeSha256
      startedAt := deps.isoText attempt.startedAt
      completedAt := deps.isoText (attempt.completedAt.getD attempt.startedAt) }
  have hevaluated : completionResult deps completionScope attempt production.candidate.candidateId
      experiment.trades production.completedAt = rerunResult := by
    have hdone : attempt.completedAt.getD production.completedAt =
        attempt.completedAt.getD attempt.startedAt := by
      rw [hcompletedAt]
      rfl
    rw [completionResult, hexperimentTrades, hdone, hattemptId, production.of_run,
      production.submitted.candidateId, ← hinputCandidate, ← hinputAttempt, ← hinputCapital,
      ← hresultCandidate, ← hresultAttempt, ← hresultCapital]
  rw [hevaluated] at hmetrics
  refine ⟨⟨experiment, attempt, rerunResult, experiment.metrics, policy⟩, ?_, rfl,
    hexperimentTrades.symm, rfl,
    hexperimentPolicy⟩
  simp only [rerun, bind_eq_ok]
  refine ⟨(), throwIf_eq_ok.mpr hauth, experiment, hread.1, row, hread.2.1, completionScope,
    hkeptScope, attempt, hread.2.2, _, hreplay, rerunResult, hrerun, experiment.metrics, hmetrics, ?_⟩
  rw [hrowPolicy]
  rfl

/-- A match means that the stored trades and those of the re-run agree in number and in every field,
and that the metrics agree. -/
def ReplaySound (policyHash : NormalizedPolicy → String) (deps : Dependencies)
    (evaluate : CompletedBacktestResult → Except String EvaluationMetrics) (records : ReplayRecords)
    (userId experimentId : String) : Prop :=
  ∀ answer, verifyReplay policyHash deps evaluate records userId experimentId = .ok answer →
    answer.status = .matched →
      ∃ replay, rerun policyHash deps evaluate records userId experimentId = .ok replay ∧ replay.Alike

/-- The simulation of an experiment: its candles, its strategy and its terms, as they are read. -/
def Simulates (deps : Dependencies) (records : ReplayRecords) (userId experimentId : String)
    (experiment : ExperimentRecord) (sim : Simulation) : Prop :=
  ∃ candidate scope attempt input,
    records.readExperimentSummary userId experimentId = .ok experiment ∧
    records.ownedCandidate userId experiment.candidateId = .ok candidate ∧
    findScope records.scopes experiment.leaderboardScopeId (some userId) = .ok scope ∧
    records.readAttempt userId experiment.backtestAttemptId = .ok attempt ∧
    replayInput deps scope candidate attempt = .ok input ∧ prepare deps.calendar input = .ok sim

/-- Every stored trade has in every field what its entry leads to. -/
def StoredAsPrescribed (deps : Dependencies) (records : ReplayRecords)
    (userId experimentId : String) : Prop :=
  ∀ experiment sim, Simulates deps records userId experimentId experiment sim →
    ∀ trade ∈ experiment.trades, ∃ prescribed, sim.Prescribed prescribed ∧
      ∀ field, trade.value field = prescribed.value field

section Soundness

variable {records : ReplayRecords} {userId experimentId : String} {replay : Replay}

theorem verifyReplay_eq_ok {answer : LegacyReplayVerificationResult} :
    verifyReplay policyHash deps evaluate records userId experimentId = .ok answer ↔
      ∃ replay, rerun policyHash deps evaluate records userId experimentId = .ok replay ∧
        replay.answer = answer := by
  simp only [verifyReplay, bind_eq_ok, pure_eq_ok]

/-- A re-run simulates its experiment, and each of its trades is what its entry leads to. -/
theorem rerun_prescribed
    (h : rerun policyHash deps evaluate records userId experimentId = .ok replay) :
    ∃ input sim, Simulates deps records userId experimentId replay.experiment sim ∧
      Accepted deps.calendar input sim ∧ ∀ trade ∈ replay.result.trades, sim.Prescribed trade := by
  simp only [rerun, bind_eq_ok] at h
  obtain ⟨-, -, experiment, hexperiment, candidate, hcandidate, scope, hscope, attempt, hattempt,
    input, hinput, result, hresult, metrics, -, hreplay⟩ := h
  obtain ⟨rfl, rfl⟩ : experiment = replay.experiment ∧ result = replay.result := by
    split at hreplay <;>
    · simp only [bind_eq_ok, pure_eq_ok] at hreplay
      obtain ⟨policy, -, rfl⟩ := hreplay
      exact ⟨rfl, rfl⟩
  simp only [simulateBacktest, bind_eq_ok, pure_eq_ok] at hresult
  obtain ⟨sim, hsim, state, hstate, hresult⟩ := hresult
  have haccepted := prepare_accepted hsim
  refine ⟨input, sim, ⟨candidate, scope, attempt, input, hexperiment, hcandidate, hscope, hattempt,
    hinput, hsim⟩, haccepted, ?_⟩
  rw [← hresult]
  exact Simulation.finalState_prescribed haccepted (prepare_valid hsim) hstate

/-- Where the stored trades are as prescribed, those that match in the listed fields match in all. -/
theorem alike_of_prescribed (hstored : StoredAsPrescribed deps records userId experimentId)
    (h : rerun policyHash deps evaluate records userId experimentId = .ok replay)
    (hcompared : replay.ComparedAlike) : replay.Alike := by
  obtain ⟨input, sim, hsimulates, haccepted, hresult⟩ := rerun_prescribed h
  have hexperiment := hstored replay.experiment sim hsimulates
  refine ⟨?_, hcompared.metrics⟩
  have hpairs := hcompared.trades
  revert hexperiment hresult
  generalize replay.experiment.trades = stored at hpairs ⊢
  generalize replay.result.trades = trades at hpairs ⊢
  intro hresult hexperiment
  induction hpairs with
  | nil => exact .nil
  | @cons expected actual rest others hfields _ ih =>
    refine .cons (fun field _ => ?_) (ih (fun trade hmem => hresult trade (.tail _ hmem))
      fun trade hmem => hexperiment trade (.tail _ hmem))
    obtain ⟨prescribed, hprescribed, hvalues⟩ := hexperiment expected List.mem_cons_self
    have hlisted : ∀ field ∈ tradeFields, prescribed.value field = actual.value field :=
      fun field hfield => (hvalues field).symm.trans (hfields field hfield)
    have hentry := Json.text.inj (hlisted .entryTime (by decide))
    have hequity := Json.number.inj (hlisted .equityBeforeTrade (by decide))
    have hsequence := Json.number.inj (hlisted .sequence (by decide))
    have hsame : prescribed = actual := hprescribed.unique haccepted
      (hresult actual List.mem_cons_self) hentry hequity (Nat.cast_inj.mp hsequence)
    rw [hvalues, hsame]

/-- Where all fields match, the stored trades are as prescribed. -/
theorem prescribed_of_alike
    (h : rerun policyHash deps evaluate records userId experimentId = .ok replay)
    (halike : replay.Alike) : StoredAsPrescribed deps records userId experimentId := by
  intro experiment sim hsimulates trade hmem
  obtain ⟨input, sim', hsimulates', -, hresult⟩ := rerun_prescribed h
  obtain ⟨rfl, rfl⟩ : experiment = replay.experiment ∧ sim = sim' := by
    obtain ⟨candidate, scope, attempt, input, hexperiment, hcandidate, hscope, hattempt, hinput,
      hsim⟩ := hsimulates
    obtain ⟨candidate', scope', attempt', input', hexperiment', hcandidate', hscope', hattempt',
      hinput', hsim'⟩ := hsimulates'
    have hsame := Except.ok.inj (hexperiment.symm.trans hexperiment')
    subst hsame
    cases hcandidate.symm.trans hcandidate'
    cases hscope.symm.trans hscope'
    cases hattempt.symm.trans hattempt'
    cases hinput.symm.trans hinput'
    cases hsim.symm.trans hsim'
    exact ⟨rfl, rfl⟩
  obtain ⟨index, hindex, rfl⟩ := List.mem_iff_getElem.mp hmem
  have hlength := halike.trades.length_eq
  have hpair := halike.trades.get hindex (hlength ▸ hindex)
  exact ⟨_, hresult _ (List.getElem_mem (hlength ▸ hindex)), fun field => hpair field trivial⟩

end Soundness

/-- A match is sound wherever the stored trades are what their entries lead to, and of the
experiments that match, only there. Every experiment that a worker's run and the completion after it
produced is verified. -/
theorem replay_verified_iff (policyHash : NormalizedPolicy → String) (deps : Dependencies)
    (evaluate : CompletedBacktestResult → Except String EvaluationMetrics) (records : ReplayRecords) :
    (∀ userId experimentId, StoredAsPrescribed deps records userId experimentId →
      ReplaySound policyHash deps evaluate records userId experimentId) ∧
    (∀ userId experimentId answer,
      verifyReplay policyHash deps evaluate records userId experimentId = .ok answer →
        answer.status = .matched →
          ReplaySound policyHash deps evaluate records userId experimentId →
            StoredAsPrescribed deps records userId experimentId) ∧
    (∀ storage experiment (production : Production policyHash deps evaluate storage experiment),
      production.Kept records → isBlank experiment.ownerUserId = false →
        ∃ answer, verifyReplay policyHash deps evaluate records experiment.ownerUserId experiment.id =
          .ok answer ∧ answer.status = .matched) := by
  refine ⟨?_, ?_, ?_⟩
  · intro userId experimentId hstored answer hverified hmatched
    obtain ⟨replay, hreplay, rfl⟩ := verifyReplay_eq_ok.mp hverified
    exact ⟨replay, hreplay, alike_of_prescribed hstored hreplay (Replay.matched_iff.mp hmatched)⟩
  · intro userId experimentId answer hverified hmatched hsound
    obtain ⟨replay, hreplay, halike⟩ := hsound answer hverified hmatched
    exact prescribed_of_alike hreplay halike
  · intro storage experiment production hkept hauth
    obtain ⟨replay, hreplay, hexperiment, htrades, hmetrics, hpolicy⟩ :=
      rerun_of_production production hkept hauth
    refine ⟨replay.answer, verifyReplay_eq_ok.mpr ⟨replay, hreplay, rfl⟩,
      Replay.matched_iff.mpr ⟨?_, ?_, ?_⟩⟩
    · rw [hexperiment, htrades]
      exact tradesAgree_refl _ _
    · rw [hexperiment, hmetrics]
    · rw [hexperiment, hpolicy]
      rfl

/-! A market that does not move, and a strategy with one answer. -/
namespace Sample

def flatDeps (answer : String) : Dependencies :=
  { Sample.deps with
    calendar := exampleCalendar
    strategy :=
      { Sample.deps.strategy with
        resolveStrategy := fun _ => .ok ⟨fun _ => .ok answer⟩
        combineSignals := fun _ signals => .ok ((signals.head?.map (·.2)).getD "HOLD") }
    readInputSnapshot := fun _ => some
      [exampleCandle "2025-01-01T00:00:00.000Z" 100 100 100 100,
        exampleCandle "2025-01-01T01:00:00.000Z" 100 100 100 100,
        exampleCandle "2025-01-01T02:00:00.000Z" 100 100 100 100] }

/-- One trade has no variance, whose root is nought. -/
def flatEvaluate (result : CompletedBacktestResult) : Except String EvaluationMetrics :=
  .ok (Evaluation.evaluateBacktest id result ⟨"1.0.0", "ab"⟩)

def flatScore (_ : String) (_ : EvaluationMetrics) : Except String Scored :=
  .ok ⟨"MVP_MANUAL_V1", .ofInt 0, true⟩

def flatHash (_ : NormalizedPolicy) : String := commandSha256

def flatService : ServiceWorld := serviceAfter flatHash .postgres submitted

/-- The claim that the run of `submitted` grants. -/
def flatClaim : WorkerAttemptClaim :=
  flatService.claims.head?.getD ⟨⟨candidate, []⟩, (delivery 1 "f" 0).newAttempt, "f"⟩

/-- The worker's run under a strategy that buys. -/
def flatRun : RepositoryState × Except String BacktestQueueReturn :=
  runClaimedAttempt (flatDeps "BUY") .postgres flatService.scopes flatService.repository flatClaim
    dispatch.job 1

def flatExperiment : Except String ExperimentRecord :=
  completionRecord (flatDeps "BUY") flatEvaluate flatScore .postgres flatService.scopes flatRun.1
    flatClaim.candidate.toStoredCandidate "e" 2

def flatRecords (experiment : ExperimentRecord) : ReplayRecords :=
  ⟨flatService.scopes, flatRun.1, Table.empty.put experiment⟩

end Sample

theorem replay_verified_iff_flat :
    ∃ experiment answer, Sample.flatExperiment = .ok experiment ∧ experiment.trades.length = 1 ∧
      verifyReplay Sample.flatHash (Sample.flatDeps "BUY") Sample.flatEvaluate
        (Sample.flatRecords experiment) experiment.ownerUserId experiment.id = .ok answer ∧
      answer.status = .matched := by
  have hbuilt : Sample.flatExperiment.toOption.map (fun experiment =>
      (experiment.trades.length, isBlank experiment.ownerUserId, experiment.candidateId,
        experiment.backtestAttemptId)) = some (1, false, "c", .delivery "c" 1) := by
    decide +kernel
  obtain ⟨experiment, hexperiment⟩ := exists_ok (x := Sample.flatExperiment) (by decide +kernel)
  rw [hexperiment] at hbuilt
  obtain ⟨htrades, hauth, hcandidate, hattempt⟩ :
      experiment.trades.length = 1 ∧ isBlank experiment.ownerUserId = false ∧
        experiment.candidateId = "c" ∧ experiment.backtestAttemptId = .delivery "c" 1 := by
    simpa [Except.toOption] using hbuilt
  obtain ⟨-, -, -, -, -, -, -, -, -, -, -, -, hid⟩ := completionRecord_ok hexperiment
  have hclaim : Sample.flatClaim.attempt.attemptId = .delivery "c" 1 := by decide +kernel
  let production : Production Sample.flatHash (Sample.flatDeps "BUY") Sample.flatEvaluate .postgres
      experiment :=
    { steps := Sample.submitted
      legal := by decide +kernel
      claim := Sample.flatClaim
      granted := by decide +kernel
      job := Sample.dispatch.job
      ranAt := 1
      ran := Sample.flatRun.1
      returned := ⟨"c", .delivery "c" 1, 1⟩
      runs := Prod.ext rfl (by decide +kernel)
      scopes := Sample.flatService.scopes
      repository := Sample.flatRun.1
      candidate := Sample.flatClaim.candidate.toStoredCandidate
      submitted := .refl _
      attempt_kept := rfl
      trades_kept := rfl
      scope_kept := rfl
      score := Sample.flatScore
      completedAt := 2
      completes := by rw [hid]; exact hexperiment
      of_run := hattempt.trans hclaim.symm }
  have hrow : ∃ row ∈ Sample.flatRun.1.candidates.get? "c",
      Postgres.overwritten Sample.flatClaim.candidate.toStoredCandidate row = row := by
    decide +kernel
  have hkept : production.Kept (Sample.flatRecords experiment) := by
    refine ⟨Table.get?_put_of_eq _ rfl, ?_, rfl, rfl⟩
    rw [hcandidate]
    exact hrow
  obtain ⟨answer, hanswer, hmatched⟩ := (replay_verified_iff Sample.flatHash (Sample.flatDeps "BUY")
    Sample.flatEvaluate (Sample.flatRecords experiment)).2.2 .postgres experiment production hkept hauth
  exact ⟨experiment, answer, hexperiment, htrades, hanswer, hmatched⟩

/-- The strategy sells where it bought. The market does not move, so that the short comes out as the
long did, and it is answered as a match. -/
theorem replay_direction_hidden :
    ∃ experiment, Sample.flatExperiment = .ok experiment ∧
      ¬ ReplaySound Sample.flatHash (Sample.flatDeps "SELL") Sample.flatEvaluate
        (Sample.flatRecords experiment) "u" "e" := by
  have hsignals : (Sample.flatExperiment >>= fun experiment =>
      (rerun Sample.flatHash (Sample.flatDeps "SELL") Sample.flatEvaluate
        (Sample.flatRecords experiment) "u" "e").map fun replay =>
          (replay.answer.status, replay.experiment.trades.map (·.signal),
            replay.result.trades.map (·.signal))).toOption =
      some (.matched, [.long], [.short]) := by
    decide +kernel
  obtain ⟨experiment, hexperiment⟩ := exists_ok (x := Sample.flatExperiment) (by decide +kernel)
  refine ⟨experiment, hexperiment, fun hsound => ?_⟩
  rw [hexperiment] at hsignals
  change (Except.map _ (rerun Sample.flatHash (Sample.flatDeps "SELL") Sample.flatEvaluate
    (Sample.flatRecords experiment) "u" "e")).toOption = _ at hsignals
  cases hreplay : rerun Sample.flatHash (Sample.flatDeps "SELL") Sample.flatEvaluate
      (Sample.flatRecords experiment) "u" "e" with
  | error message =>
    rw [hreplay] at hsignals
    cases hsignals
  | ok replay =>
    rw [hreplay] at hsignals
    obtain ⟨hmatched, hstored, hrerun⟩ : replay.answer.status = .matched ∧
        replay.experiment.trades.map (·.signal) = [.long] ∧
          replay.result.trades.map (·.signal) = [.short] := by
      simpa [Except.map, Except.toOption] using hsignals
    have hverified : verifyReplay Sample.flatHash (Sample.flatDeps "SELL") Sample.flatEvaluate
        (Sample.flatRecords experiment) "u" "e" = .ok replay.answer := by
      simp only [verifyReplay, hreplay]
      rfl
    obtain ⟨replay', hreplay', halike⟩ := hsound replay.answer hverified hmatched
    cases hreplay.symm.trans hreplay'
    have hvalues := halike.trades.map_value .signal trivial
    have hnames : ∀ trades : List Trade,
        trades.map (·.value .signal) = (trades.map (·.signal)).map Json.signal := by
      intro trades
      rw [List.map_map]
      rfl
    rw [hnames, hnames, hstored, hrerun] at hvalues
    exact absurd hvalues (by decide)

end Cryptox.Backtesting
