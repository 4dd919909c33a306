import Cryptox.Backtesting.Service.ReplayInvariant

/-!
# Runs of replay verification

In every run over either repository a job's request is kept, its result is accepted at most once,
and an outcome, once stored, stays; a job without one is picked up again once no lease runs.
-/
namespace Cryptox.Backtesting

open Cryptox.Library
open Cryptox.Evaluation (EvaluationMetrics)

namespace ReplayWorld

variable {policyHash : NormalizedPolicy → String} {deps : Dependencies}
  {evaluate : CompletedBacktestResult → Except String EvaluationMetrics}

/-! The database runs in lockstep with the repository in memory. -/

section Lockstep

variable {p : ReplayWorld ReplayRowTable} {m : ReplayWorld ReplayRecordTable}

/-- The two worlds differ in how they store the jobs only. -/
structure Alongside (p : ReplayWorld ReplayRowTable) (m : ReplayWorld ReplayRecordTable) : Prop where
  experiments : p.experiments = m.experiments
  calls : p.calls = m.calls
  grants : p.grants = m.grants
  acceptances : p.acceptances = m.acceptances
  rows : RowsStore m.experiments p.replays m.replays

theorem Alongside.phase (h : Alongside p m) (callId : Nat) : p.phase callId = m.phase callId := by
  rw [ReplayWorld.phase, ReplayWorld.phase, h.calls]

theorem Alongside.setPhase (h : Alongside p m) (callId : Nat) (phase : ReplayPhase) :
    Alongside (p.setPhase callId phase) (m.setPhase callId phase) where
  experiments := h.experiments
  calls := by rw [ReplayWorld.setPhase, ReplayWorld.setPhase, h.calls]
  grants := h.grants
  acceptances := h.acceptances
  rows := h.rows

theorem alongside_stored (h : Alongside p m) {experiment : ExperimentRecord}
    (hnew : m.experiments.get? experiment.id = none) :
    Alongside { p with experiments := p.experiments.put experiment }
      { m with experiments := m.experiments.put experiment } where
  experiments := by rw [h.experiments]
  calls := h.calls
  grants := h.grants
  acceptances := h.acceptances
  rows := by
    refine h.rows.mono fun id attempt hattempt => ?_
    have hne : id ≠ experiment.id := by
      rintro rfl
      rw [sourceAttempt, hnew] at hattempt
      cases hattempt
    rw [sourceAttempt, Table.get?_put_of_ne m.experiments hne]
    exact hattempt

theorem alongside_start (h : Alongside p m) (userId experimentId replayJobId : String)
    (requestedAt : Int) :
    Alongside (p.startStep Postgres.replayStore userId experimentId replayJobId requestedAt)
      (m.startStep InMemory.replayStore userId experimentId replayJobId requestedAt) := by
  have hsame : p.startReplayVerification userId experimentId replayJobId requestedAt =
      m.startReplayVerification userId experimentId replayJobId requestedAt := by
    rw [startReplayVerification, startReplayVerification, h.experiments]
  unfold startStep
  rw [hsame]
  cases hreplay : m.startReplayVerification userId experimentId replayJobId requestedAt with
  | error message => exact h
  | ok replay =>
    obtain ⟨experiment, hexperiment, -, rfl⟩ := startReplayVerification_eq_ok hreplay
    have hattempt : sourceAttempt m.experiments experimentId = some experiment.backtestAttemptId := by
      rw [sourceAttempt, hexperiment, Option.map_some]
    exact { h with rows := h.rows.create hattempt userId replayMismatchSampleLimit requestedAt }

theorem alongside_claim (h : Alongside p m) (callId : Nat) (claim : ReplayClaim) :
    Alongside (p.claimStep Postgres.replayStore callId claim)
      (m.claimStep InMemory.replayStore callId claim) := by
  obtain ⟨hanswer, hrows⟩ := h.rows.claim claim
  simp only [claimStep, Postgres.replayStore, InMemory.replayStore, h.experiments, hanswer, Prod.map]
  cases (InMemory.claimReplayVerification m.replays claim).1 with
  | none =>
    refine Alongside.setPhase ?_ callId _
    exact ⟨rfl, h.calls, h.grants, h.acceptances, hrows⟩
  | some claimed =>
    refine Alongside.setPhase ?_ callId _
    exact ⟨rfl, h.calls, congrArg _ h.grants, h.acceptances, hrows⟩

theorem alongside_complete (h : Alongside p m) (callId : Nat) {completion : ReplayCompletion}
    (hnames : ∀ record, m.replays.get? completion.replayJobId = some record →
      completion.experimentId = record.experimentId ∧
        completion.sourceAttemptId = record.sourceAttemptId) :
    Alongside (p.completeStep Postgres.replayStore callId completion)
      (m.completeStep InMemory.replayStore callId completion) := by
  obtain ⟨hanswer, hrows⟩ := h.rows.complete hnames
  simp only [completeStep, Postgres.replayStore, InMemory.replayStore, hanswer]
  cases (InMemory.completeReplayVerification m.replays completion).1 with
  | error message =>
    refine Alongside.setPhase ?_ callId _
    exact ⟨h.experiments, h.calls, h.grants, h.acceptances, hrows⟩
  | ok _ =>
    refine Alongside.setPhase ?_ callId _
    exact ⟨h.experiments, h.calls, h.grants, congrArg _ h.acceptances, hrows⟩

theorem alongside_next (h : Alongside p m) (hinv : ReplayInv policyHash deps evaluate m)
    {step : ReplayStep} (henabled : m.enabled step) :
    Alongside (p.next policyHash deps evaluate Postgres.replayStore step)
      (m.next policyHash deps evaluate InMemory.replayStore step) := by
  cases step with
  | stored experiment => exact alongside_stored h henabled
  | start userId experimentId replayJobId requestedAt =>
    exact alongside_start h userId experimentId replayJobId requestedAt
  | claim callId replayJobId claimToken now => exact alongside_claim h callId _
  | verify callId scopes repository =>
    simp only [next, h.phase, h.experiments]
    split
    · exact h.setPhase callId _
    · exact h
  | complete callId now =>
    simp only [next, h.phase]
    split
    next claimed answer hphase =>
      refine alongside_complete h callId fun record hrecord => ?_
      obtain ⟨hexperiment, hsource, -⟩ := call_completes hinv hrecord
        ⟨callId, claimed, answer, now, hphase, rfl⟩
      exact ⟨hexperiment, hsource⟩
    next => exact h
  | stop callId => exact h.setPhase callId _

theorem enabled_alongside (h : Alongside p m) (step : ReplayStep) :
    p.enabled step ↔ m.enabled step := by
  cases step <;> simp only [enabled, h.phase, h.experiments]

theorem lockstep : Lockstep (system policyHash deps evaluate Postgres.replayStore)
    (system policyHash deps evaluate InMemory.replayStore)
    (fun p m => Alongside p m ∧ ReplayInv policyHash deps evaluate m) where
  enabled _ _ step h := enabled_alongside h.1 step
  step p m step h henabled := by
    have hboth := (enabled_alongside h.1 step).mp henabled
    exact ⟨alongside_next h.1 h.2 hboth, replayInv_next h.2 hboth⟩

theorem alongside_start_world : Alongside (start Postgres.replayStore) (start InMemory.replayStore) :=
  ⟨rfl, rfl, rfl, rfl, .empty⟩

end Lockstep

/-! Either storage shows what the records in memory say. -/

section Storages

variable (policyHash deps evaluate) (storage : Storage)

/-- The steps can be run over a storage. -/
def Admits (steps : List ReplayStep) : Prop :=
  (system policyHash deps evaluate storage.replayStore).Legal (fun _ _ => True)
    (start storage.replayStore) steps

def reached (steps : List ReplayStep) : ReplayWorld storage.Replays :=
  (system policyHash deps evaluate storage.replayStore).run (start storage.replayStore) steps

def readReplay {storage : Storage} (w : ReplayWorld storage.Replays) (replayJobId : String) :
    Except String (Option ReplayRecord) :=
  storage.replayStore.read w.experiments w.replays replayJobId none

structure Shows (w : ReplayWorld storage.Replays) (m : ReplayWorld ReplayRecordTable) : Prop where
  experiments : w.experiments = m.experiments
  calls : w.calls = m.calls
  grants : w.grants = m.grants
  acceptances : w.acceptances = m.acceptances
  reads : ∀ replayJobId ownerUserId,
    storage.replayStore.read w.experiments w.replays replayJobId ownerUserId =
      .ok (InMemory.readReplayVerification m.replays replayJobId ownerUserId)
  lists : ∀ now limit, storage.replayStore.list w.replays now limit =
    storage.listReplayVerificationRecovery m.replays.stored now limit

/-- Both storages have the same runs, and show the same. -/
theorem shows_reached (steps : List ReplayStep) :
    (Admits policyHash deps evaluate storage steps ↔
        Admits policyHash deps evaluate .inMemory steps) ∧
      (Admits policyHash deps evaluate storage steps →
        Shows storage (reached policyHash deps evaluate storage steps)
          (reached policyHash deps evaluate .inMemory steps)) := by
  cases storage with
  | inMemory => exact ⟨Iff.rfl, fun _ => ⟨rfl, rfl, rfl, rfl, fun _ _ => rfl, fun _ _ => rfl⟩⟩
  | postgres =>
    obtain ⟨hruns, hrel⟩ := @Lockstep.run _ _ _ _ _ _ lockstep _ _ steps
      ⟨alongside_start_world, replayInv_start policyHash deps evaluate⟩
    refine ⟨hruns, fun hlegal => ?_⟩
    obtain ⟨halong, -⟩ := hrel hlegal
    exact {
      experiments := halong.experiments
      calls := halong.calls
      grants := halong.grants
      acceptances := halong.acceptances
      reads := fun replayJobId ownerUserId => by
        have hread := halong.rows.read replayJobId ownerUserId
        rw [← halong.experiments] at hread
        exact hread
      lists := halong.rows.list }

variable {policyHash deps evaluate storage}

theorem readReplay_eq {w : ReplayWorld storage.Replays} {m : ReplayWorld ReplayRecordTable}
    (h : Shows storage w m) (replayJobId : String) :
    w.readReplay replayJobId = .ok (m.replays.get? replayJobId) := by
  rw [readReplay, h.reads, InMemory.readReplayVerification]
  cases m.replays.get? replayJobId <;> rfl

theorem readReplay_eq_some {w : ReplayWorld storage.Replays} {m : ReplayWorld ReplayRecordTable}
    (h : Shows storage w m) {replayJobId : String} {record : ReplayRecord} :
    w.readReplay replayJobId = .ok (some record) ↔ m.replays.get? replayJobId = some record := by
  rw [readReplay_eq h, Except.ok.injEq]

def grantsOf {σ : Type} (w : ReplayWorld σ) (replayJobId : String) : List (Grant String String) :=
  w.grants.filter fun grant => grant.job = replayJobId

variable (policyHash deps evaluate)

/-- No result is accepted twice; the one that is came from the latest claim, within its minute, and
is what the record shows. -/
structure SettledOnce (w : ReplayWorld storage.Replays) : Prop where
  once : (w.acceptances.map Acceptance.job).Nodup
  latest : ∀ acceptance ∈ w.acceptances, ∃ grant ∈ (w.grantsOf acceptance.job).head?,
    acceptance.holder = grant.holder ∧ acceptance.acceptedAt < grant.expiresAt
  apart : ∀ replayJobId, (w.grantsOf replayJobId).IsChain fun later earlier =>
    earlier.expiresAt ≤ later.grantedAt
  minute : ∀ grant ∈ w.grants, grant.expiresAt = grant.grantedAt + replayLeaseMs
  shown : ∀ replayJobId record, w.readReplay replayJobId = .ok (some record) → record.outcome =
    (w.acceptances.find? fun acceptance => acceptance.job = replayJobId).map Acceptance.result
  verified : ∀ replayJobId record, w.readReplay replayJobId = .ok (some record) →
    Sound policyHash deps evaluate w.experiments record

variable {policyHash deps evaluate}

theorem replayInv_reached {steps : List ReplayStep}
    (h : Admits policyHash deps evaluate .inMemory steps) :
    ReplayInv policyHash deps evaluate (reached policyHash deps evaluate .inMemory steps) :=
  replayInv_run h (replayInv_start policyHash deps evaluate)

/-- The desk behind a run over the records in memory. -/
theorem desk_reached {steps : List ReplayStep} (h : Admits policyHash deps evaluate .inMemory steps) :
    ∃ desk : Desk String String ReplayOutcome, desk.Coherent ∧
      OnDesk (reached policyHash deps evaluate .inMemory steps) desk := by
  have hstart : OnDesk (start InMemory.replayStore) Desk.empty := ⟨fun _ => rfl, rfl, rfl⟩
  obtain ⟨events, hlegal, hdesk⟩ := (desk_simulation policyHash deps evaluate).run hstart h
  exact ⟨_, Desk.coherent_run Desk.coherent_empty hlegal, hdesk⟩

theorem result_leased (record : ReplayRecord) : record.leased.result? = record.outcome := by
  cases houtcome : record.outcome with
  | some outcome =>
    rw [ReplayRecord.leased, houtcome]
    rfl
  | none =>
    unfold ReplayRecord.leased
    rw [houtcome]
    cases record.status <;> cases record.leaseExpiresAt <;> rfl

theorem settledOnce_reached {steps : List ReplayStep}
    (h : Admits policyHash deps evaluate storage steps) :
    SettledOnce policyHash deps evaluate (reached policyHash deps evaluate storage steps) := by
  have hmemory := (shows_reached policyHash deps evaluate storage steps).1.mp h
  have hshows := (shows_reached policyHash deps evaluate storage steps).2 h
  obtain ⟨desk, hcoherent, hdesk⟩ := desk_reached hmemory
  have hgrants := hdesk.grants.trans hshows.grants.symm
  have haccepted := hdesk.acceptances.trans hshows.acceptances.symm
  constructor
  · rw [← haccepted]
    exact hcoherent.accepted_once
  · intro acceptance hacceptance
    rw [← haccepted] at hacceptance
    rw [grantsOf, ← hgrants]
    exact (hcoherent.accepted hacceptance).2.2
  · intro replayJobId
    rw [grantsOf, ← hgrants]
    exact hcoherent.apart replayJobId
  · rw [hshows.grants]
    exact leases_run hmemory fun grant hgrant => by cases hgrant
  · intro replayJobId record hrecord
    have hjob := hdesk.jobs replayJobId
    rw [(readReplay_eq_some hshows).mp hrecord] at hjob
    rw [← haccepted, ← hcoherent.result_eq hjob, result_leased]
  · intro replayJobId record hrecord
    rw [hshows.experiments]
    exact (replayInv_reached hmemory).records _ _ ((readReplay_eq_some hshows).mp hrecord)

/-- In every run over either storage, with calls interleaved, stopped and repeated at will, a replay
job's result is accepted at most once, from the latest claim and within its lease; what was asked
for never changes, and an outcome, once stored, is never written over. -/
theorem replay_settled_once (policyHash : NormalizedPolicy → String) (deps : Dependencies)
    (evaluate : CompletedBacktestResult → Except String EvaluationMetrics) (storage : Storage)
    {earlier later : List ReplayStep}
    (h : Admits policyHash deps evaluate storage (earlier ++ later)) :
    SettledOnce policyHash deps evaluate
        (reached policyHash deps evaluate storage (earlier ++ later)) ∧
      ∀ replayJobId record,
        (reached policyHash deps evaluate storage earlier).readReplay replayJobId =
            .ok (some record) →
          ∃ last, (reached policyHash deps evaluate storage (earlier ++ later)).readReplay
              replayJobId = .ok (some last) ∧
            record.SameRequest last ∧ (record.outcome.isSome → last = record) := by
  refine ⟨settledOnce_reached h, fun replayJobId record hrecord => ?_⟩
  have hearlier : Admits policyHash deps evaluate storage earlier :=
    (GuardedSystem.legal_append.mp h).1
  have hshows := (shows_reached policyHash deps evaluate storage _).2 hearlier
  have hshowsLast := (shows_reached policyHash deps evaluate storage _).2 h
  have hmemory := (shows_reached policyHash deps evaluate storage _).1.mp hearlier
  have hlater := (GuardedSystem.legal_append.mp
    ((shows_reached policyHash deps evaluate storage _).1.mp h)).2
  obtain ⟨last, hlast, hkept⟩ := kept_run hlater (replayInv_reached hmemory)
    ((readReplay_eq_some hshows).mp hrecord)
  refine ⟨last, (readReplay_eq_some hshowsLast).mpr ?_, hkept⟩
  rw [reached, GuardedSystem.run_append]
  exact hlast

end Storages

end ReplayWorld

/-! An experiment whose candidate cannot be read any more is asked for, claimed twice and settled
once: the first worker's minute is over when it completes. -/
namespace Sample

def replayExperiment : ExperimentRecord where
  id := "e"
  ownerUserId := "u"
  candidateId := "c"
  searchRunId := none
  leaderboardScopeId := "s"
  scoreFormulaId := "MVP_MANUAL_V1"
  overallScore := .ofInt 0
  rankEligible := true
  backtestAttemptId := .delivery "c" 1
  createdAt := 0
  executionPolicy := none
  metrics := {
    candidateId := "c", totalReturnPercent := 0, winRatePercent := 0, numberOfTrades := 0
    maxDrawdownPercent := 0, profitFactor := none, profitFactorStatus := .noTrades
    sharpeRatio := 0, sharpeRatioStatus := .insufficientObservations
    evaluationPolicyId := "MVP_EVALUATION_V1", evaluationRuntimeVersion := "1.0.0"
    evaluationRuntimeSha256 := "ab" }
  trades := []

def unreadMetrics (_ : CompletedBacktestResult) : Except String EvaluationMetrics :=
  .error "UNUSED"

def replayRequests : List ReplayStep :=
  [.stored replayExperiment, .start "u" "e" "r" 1000, .claim 0 "r" "first" 2000]

def replayRetries : List ReplayStep :=
  [.claim 1 "r" "second" 62000, .verify 0 Table.empty RepositoryState.empty, .complete 0 62500,
    .verify 1 Table.empty RepositoryState.empty, .complete 1 63000]

end Sample

namespace ReplayWorld

theorem admits_sample (storage : Storage) : Admits (fun _ => "") Sample.deps Sample.unreadMetrics
    storage (Sample.replayRequests ++ Sample.replayRetries) := by
  cases storage with
  | inMemory =>
    exact ⟨⟨rfl, trivial⟩, ⟨trivial, trivial⟩, ⟨rfl, trivial⟩, ⟨rfl, trivial⟩, ⟨⟨_, rfl⟩, trivial⟩,
      ⟨⟨_, _, rfl⟩, trivial⟩, ⟨⟨_, rfl⟩, trivial⟩, ⟨⟨_, _, rfl⟩, trivial⟩, trivial⟩
  | postgres =>
    exact ⟨⟨rfl, trivial⟩, ⟨trivial, trivial⟩, ⟨rfl, trivial⟩, ⟨rfl, trivial⟩, ⟨⟨_, rfl⟩, trivial⟩,
      ⟨⟨_, _, rfl⟩, trivial⟩, ⟨⟨_, rfl⟩, trivial⟩, ⟨⟨_, _, rfl⟩, trivial⟩, trivial⟩

theorem replay_settled_once_retried :
    (reached (fun _ => "") Sample.deps Sample.unreadMetrics .postgres
        (Sample.replayRequests ++ Sample.replayRetries)).acceptances =
      [⟨"r", "second", 63000, .nonReplayable .replayArtifactExpired⟩] ∧
    SettledOnce (fun _ => "") Sample.deps Sample.unreadMetrics
      (reached (fun _ => "") Sample.deps Sample.unreadMetrics .postgres
        (Sample.replayRequests ++ Sample.replayRetries)) :=
  ⟨rfl, (replay_settled_once _ _ _ .postgres (admits_sample .postgres)).1⟩

/-! A job without an outcome is picked up again. -/

section Recovery

variable {policyHash : NormalizedPolicy → String} {deps : Dependencies}
  {evaluate : CompletedBacktestResult → Except String EvaluationMetrics} {storage : Storage}

/-- A worker that is not disturbed: it claims the job, verifies the experiment and completes. -/
def undisturbed (callId : Nat) (replayJobId claimToken : String) (claimedAt completedAt : Int)
    (scopes : ScopeTable) (repository : RepositoryState) : List ReplayStep :=
  [.claim callId replayJobId claimToken claimedAt, .verify callId scopes repository,
    .complete callId completedAt]

/-- A long enough listing names the records that wait. -/
theorem mem_list_iff (storage : Storage) {replays : ReplayRecordTable} {now : Int} {limit : Nat}
    (hlimit : replays.rows.length ≤ limit) {replayJobId : String} :
    replayJobId ∈ storage.listReplayVerificationRecovery replays.stored now limit ↔
      ∃ replay ∈ replays.stored.rows, replay.waiting now = true ∧
        replay.replayJobId = replayJobId := by
  have hall : ∀ (le : StoredReplayVerification → StoredReplayVerification → Prop) [DecidableRel le],
      replayJobId ∈ (((replays.stored.rows.filter fun replay => replay.waiting now).insertionSort
        le).take limit).map (·.replayJobId) ↔
      ∃ replay ∈ replays.stored.rows, replay.waiting now = true ∧
        replay.replayJobId = replayJobId := by
    intro le _
    have hlength : (replays.stored.rows.filter fun replay => replay.waiting now).length ≤ limit :=
      (List.length_filter_le ..).trans ((List.length_map ..).trans_le hlimit)
    rw [List.take_of_length_le ((List.length_insertionSort ..).trans_le hlength)]
    simp only [List.mem_map, List.mem_insertionSort, List.mem_filter, and_assoc]
  cases storage with
  | inMemory => exact hall _
  | postgres => exact hall _

/-- Over the records in memory an undisturbed worker settles a job that waits. -/
theorem undisturbed_settles {m : ReplayWorld ReplayRecordTable}
    (hinv : ReplayInv policyHash deps evaluate m) {replayJobId : String} (claimToken : String)
    {record : ReplayRecord} {claimedAt completedAt : Int}
    (hrecord : m.replays.get? replayJobId = some record)
    (hwaiting : record.waiting claimedAt = true) {callId : Nat} (hfree : m.phase callId = none)
    (hintime : completedAt < claimedAt + replayLeaseMs) (scopes : ScopeTable)
    (repository : RepositoryState) :
    let steps := undisturbed callId replayJobId claimToken claimedAt completedAt scopes repository
    (system policyHash deps evaluate InMemory.replayStore).Legal (fun _ _ => True) m steps ∧
      ∃ last, ((system policyHash deps evaluate InMemory.replayStore).run m steps).replays.get?
          replayJobId = some last ∧
        last.outcome = some (replayOutcome replayMismatchSampleLimit (verifyReplay policyHash deps
          evaluate ⟨scopes, repository, m.experiments⟩ record.ownerUserId record.experimentId)) := by
  intro steps
  let claim : ReplayClaim := ⟨replayJobId, claimToken, claimedAt, claimedAt + replayLeaseMs⟩
  have hkey : record.replayJobId = replayJobId := key_of_record hrecord
  have hlimit := (hinv.records _ _ hrecord).requested.limit
  let claimed := record.claimed claim (ReplayRecord.unsettled_of_waiting hwaiting)
  let answer := verifyReplay policyHash deps evaluate ⟨scopes, repository, m.experiments⟩
    record.ownerUserId record.experimentId
  -- the three states that the worker goes through
  let granted : ReplayWorld ReplayRecordTable :=
    { m with
      replays := m.replays.put claimed
      grants := ⟨replayJobId, claimToken, claimedAt, claimedAt + replayLeaseMs⟩ :: m.grants
    }.setPhase callId (.verifying claimed)
  let verified := granted.setPhase callId (.completing claimed answer)
  have hgranted : m.next policyHash deps evaluate InMemory.replayStore
      (.claim callId replayJobId claimToken claimedAt) = granted :=
    claimStep_granted hrecord hwaiting
  have hverifying : granted.phase callId = some (.verifying claimed) := by
    rw [phase_setPhase, if_pos rfl]
  have hverified : granted.next policyHash deps evaluate InMemory.replayStore
      (.verify callId scopes repository) = verified := by
    simp only [next, hverifying]
    rfl
  have hcompleting : verified.phase callId = some (.completing claimed answer) := by
    rw [phase_setPhase, if_pos rfl]
  have hstored : verified.replays.get? replayJobId = some claimed :=
    Table.get?_put_of_eq m.replays hkey.symm
  have hheld : claimed.heldBy (claimed.completion answer completedAt) = true := by
    simp [claimed, claim, ReplayRecord.heldBy, ReplayRecord.claimed, ReplayRecord.completion, hintime]
  have hcompleted : verified.next policyHash deps evaluate InMemory.replayStore
      (.complete callId completedAt) =
      verified.completeStep InMemory.replayStore callId (claimed.completion answer completedAt) := by
    simp only [next, hcompleting]
  have hlegal : (system policyHash deps evaluate InMemory.replayStore).Legal (fun _ _ => True) m
      steps := by
    refine ⟨⟨hfree, trivial⟩, ⟨?_, trivial⟩, ⟨?_, trivial⟩, trivial⟩
    · show ∃ held, (m.next policyHash deps evaluate InMemory.replayStore _).phase callId =
        some (.verifying held)
      rw [hgranted]
      exact ⟨claimed, hverifying⟩
    · show ∃ held answer, ((m.next policyHash deps evaluate InMemory.replayStore
        (.claim callId replayJobId claimToken claimedAt)).next policyHash deps evaluate
          InMemory.replayStore (.verify callId scopes repository)).phase callId =
        some (.completing held answer)
      rw [hgranted, hverified]
      exact ⟨claimed, answer, hcompleting⟩
  have hrun : (system policyHash deps evaluate InMemory.replayStore).run m steps =
      verified.completeStep InMemory.replayStore callId
        (claimed.completion answer completedAt) := by
    show ((m.next policyHash deps evaluate InMemory.replayStore
      (.claim callId replayJobId claimToken claimedAt)).next policyHash deps evaluate
        InMemory.replayStore (.verify callId scopes repository)).next policyHash deps evaluate
          InMemory.replayStore (.complete callId completedAt) = _
    rw [hgranted, hverified, hcompleted]
  refine ⟨hlegal, claimed.completed (claimed.completion answer completedAt), ?_, ?_⟩
  · have hread : verified.replays.get?
        (claimed.completion answer completedAt).replayJobId = some claimed := by
      show verified.replays.get? record.replayJobId = some claimed
      rw [hkey, hstored]
    rw [hrun, completeStep_held hread hheld]
    exact Table.get?_put_of_eq verified.replays hkey.symm
  · show some (replayOutcome record.mismatchSampleLimit answer) = _
    rw [hlimit]

/-- The job is listed for the queue, and a worker that is not disturbed for a minute settles it with
what a verification of its experiment says. -/
structure Recoverable (policyHash : NormalizedPolicy → String) (deps : Dependencies)
    (evaluate : CompletedBacktestResult → Except String EvaluationMetrics) (storage : Storage)
    (steps : List ReplayStep) (replayJobId : String) (record : ReplayRecord) (now : Int) : Prop where
  listed : ∃ enough, ∀ limit ≥ enough, replayJobId ∈ storage.replayStore.list
    (reached policyHash deps evaluate storage steps).replays now limit
  settles : ∀ callId claimToken completedAt scopes repository,
    (reached policyHash deps evaluate storage steps).phase callId = none →
    completedAt < now + replayLeaseMs →
    let later := undisturbed callId replayJobId claimToken now completedAt scopes repository
    Admits policyHash deps evaluate storage (steps ++ later) ∧ ∃ last,
      (reached policyHash deps evaluate storage (steps ++ later)).readReplay replayJobId =
          .ok (some last) ∧
        last.outcome = some (replayOutcome replayMismatchSampleLimit (verifyReplay policyHash deps
          evaluate ⟨scopes, repository,
            (reached policyHash deps evaluate storage steps).experiments⟩
          record.ownerUserId record.experimentId))

/-- In every state that either storage reaches, a job without an outcome is held by its latest claim,
whose lease still runs, or it is picked up again. -/
theorem replay_recovers (policyHash : NormalizedPolicy → String) (deps : Dependencies)
    (evaluate : CompletedBacktestResult → Except String EvaluationMetrics) (storage : Storage)
    {steps : List ReplayStep} (h : Admits policyHash deps evaluate storage steps)
    {replayJobId : String} {record : ReplayRecord}
    (hrecord : (reached policyHash deps evaluate storage steps).readReplay replayJobId =
      .ok (some record)) (houtcome : record.outcome = none) (now : Int) :
    (∃ grant ∈ ((reached policyHash deps evaluate storage steps).grantsOf replayJobId).head?,
        now < grant.expiresAt) ∨
      Recoverable policyHash deps evaluate storage steps replayJobId record now := by
  have hmemory := (shows_reached policyHash deps evaluate storage steps).1.mp h
  have hshows := (shows_reached policyHash deps evaluate storage steps).2 h
  have hstored := (readReplay_eq_some hshows).mp hrecord
  cases hwaiting : record.waiting now with
  | false =>
    left
    obtain ⟨desk, hcoherent, hdesk⟩ := desk_reached hmemory
    have hjob := hdesk.jobs replayJobId
    rw [hstored, Option.map_some] at hjob
    have hheld : ∃ holder expiresAt, record.leased = .held holder expiresAt ∧ now < expiresAt := by
      have hfree : ¬ record.leased.Free now := by
        rw [← ReplayRecord.waiting_iff_free, hwaiting]
        decide
      have hresult := result_leased record
      rw [houtcome] at hresult
      generalize record.leased = state at hfree hresult
      cases state with
      | idle => exact (hfree trivial).elim
      | held holder expiresAt => exact ⟨holder, expiresAt, rfl, Int.not_le.mp hfree⟩
      | finished result => cases hresult
    obtain ⟨holder, expiresAt, hleased, hlater⟩ := hheld
    have hexplained := hcoherent.explained replayJobId
    rw [hjob, hleased] at hexplained
    obtain ⟨⟨grant, hgrant, -, hexpires⟩, -⟩ := hexplained
    rw [grantsOf, hshows.grants, ← hdesk.grants]
    exact ⟨grant, hgrant, hexpires ▸ hlater⟩
  | true =>
    right
    refine ⟨⟨(reached policyHash deps evaluate .inMemory steps).replays.rows.length,
      fun limit hlimit => ?_⟩, ?_⟩
    · rw [hshows.lists, mem_list_iff storage hlimit]
      exact ⟨_, List.mem_map_of_mem (Table.mem_rows_of_get? hstored), hwaiting,
        key_of_record hstored⟩
    · intro callId claimToken completedAt scopes repository hfree hintime later
      have hphase : (reached policyHash deps evaluate .inMemory steps).phase callId = none := by
        rw [phase, ← hshows.calls]
        exact hfree
      obtain ⟨hlegal, last, hlast, hsettled⟩ := undisturbed_settles
        (replayInv_reached hmemory) claimToken hstored hwaiting hphase hintime scopes repository
      have hadmits : Admits policyHash deps evaluate .inMemory (steps ++ later) :=
        GuardedSystem.legal_append.mpr ⟨hmemory, hlegal⟩
      have hboth := shows_reached policyHash deps evaluate storage (steps ++ later)
      have hadmitted := hboth.1.mpr hadmits
      refine ⟨hadmitted, last, (readReplay_eq_some (hboth.2 hadmitted)).mpr ?_, ?_⟩
      · rw [reached, GuardedSystem.run_append]
        exact hlast
      · rw [hshows.experiments]
        exact hsettled

theorem replay_recovers_waiting :
    ∃ record, (reached (fun _ => "") Sample.deps Sample.unreadMetrics .postgres
        Sample.replayRequests).readReplay "r" = .ok (some record) ∧
      ((∃ grant ∈ ((reached (fun _ => "") Sample.deps Sample.unreadMetrics .postgres
          Sample.replayRequests).grantsOf "r").head?, 62000 < grant.expiresAt) ∨
        Recoverable (fun _ => "") Sample.deps Sample.unreadMetrics .postgres Sample.replayRequests
          "r" record 62000) :=
  ⟨_, rfl, replay_recovers _ _ _ .postgres
    (GuardedSystem.legal_append.mp (admits_sample .postgres)).1 rfl rfl 62000⟩

end Recovery

section Agreement

/-- What a user is shown of a replay job. -/
def readReplayVerification {storage : Storage} (w : ReplayWorld storage.Replays)
    (userId replayJobId : String) : Except String ReplayRecord := do
  throwIf (isBlank userId) "INVALID_AUTH_CONTEXT"
  match ← storage.replayStore.read w.experiments w.replays replayJobId (some userId) with
  | some replay => return replay
  | none => .error "REPLAY_VERIFICATION_NOT_FOUND"

/-- A user is shown the user's own jobs. -/
theorem readReplayVerification_owner {policyHash : NormalizedPolicy → String} {deps : Dependencies}
    {evaluate : CompletedBacktestResult → Except String EvaluationMetrics} {storage : Storage}
    {steps : List ReplayStep} (h : Admits policyHash deps evaluate storage steps)
    {userId replayJobId : String} {replay : ReplayRecord}
    (hread : (reached policyHash deps evaluate storage steps).readReplayVerification userId
      replayJobId = .ok replay) : replay.ownerUserId = userId := by
  have hshows := (shows_reached policyHash deps evaluate storage steps).2 h
  rw [readReplayVerification, hshows.reads] at hread
  obtain ⟨_, hauth, hread⟩ := bind_eq_ok.mp hread
  obtain ⟨found, hfound, hread⟩ := bind_eq_ok.mp hread
  obtain rfl := Except.ok.inj hfound
  split at hread
  next record hrecord =>
    obtain rfl := pure_eq_ok.mp hread
    have hvisible := (Option.filter_eq_some_iff.mp hrecord).2
    simp only [Option.all_some, Bool.or_eq_true, beq_iff_eq] at hvisible
    rcases hvisible with hempty | howner
    · rw [throwIf_eq_ok] at hauth
      rw [String.isEmpty_iff] at hempty
      subst hempty
      cases hauth
    · exact howner
  next => cases hread

/-- Both storages have the same runs; they show every user the same jobs, none but the user's own,
answer every call alike, accept the same results and list the same jobs for the queue. -/
theorem replay_storages_agree (policyHash : NormalizedPolicy → String) (deps : Dependencies)
    (evaluate : CompletedBacktestResult → Except String EvaluationMetrics)
    (steps : List ReplayStep) :
    (Admits policyHash deps evaluate .postgres steps ↔
        Admits policyHash deps evaluate .inMemory steps) ∧
      (Admits policyHash deps evaluate .postgres steps →
        let database := reached policyHash deps evaluate .postgres steps
        let memory := reached policyHash deps evaluate .inMemory steps
        (∀ userId replayJobId, database.readReplayVerification userId replayJobId =
            memory.readReplayVerification userId replayJobId ∧
          ∀ replay, database.readReplayVerification userId replayJobId = .ok replay →
            replay.ownerUserId = userId) ∧
        (∀ callId, database.phase callId = memory.phase callId) ∧
        database.grants = memory.grants ∧ database.acceptances = memory.acceptances ∧
        ∀ now, ∃ enough, ∀ limit ≥ enough, ∀ replayJobId,
          replayJobId ∈ Postgres.replayStore.list database.replays now limit ↔
            replayJobId ∈ InMemory.replayStore.list memory.replays now limit) := by
  obtain ⟨hruns, hrel⟩ := shows_reached policyHash deps evaluate .postgres steps
  refine ⟨hruns, fun h => ?_⟩
  have hshows := hrel h
  have hmemory := (shows_reached policyHash deps evaluate .inMemory steps).2 (hruns.mp h)
  refine ⟨fun userId replayJobId => ⟨?_, fun replay hread => readReplayVerification_owner h hread⟩,
    fun callId => ?_, hshows.grants, hshows.acceptances, fun now =>
    ⟨(reached policyHash deps evaluate .inMemory steps).replays.rows.length,
      fun limit hlimit replayJobId => ?_⟩⟩
  · rw [readReplayVerification, readReplayVerification, hshows.reads, hmemory.reads]
  · rw [phase, phase, hshows.calls]
  · have hlist := hshows.lists now limit
    show _ ∈ Storage.postgres.replayStore.list _ now limit ↔
      _ ∈ Storage.inMemory.replayStore.list _ now limit
    rw [hlist, hmemory.lists, mem_list_iff .postgres hlimit, mem_list_iff .inMemory hlimit]

end Agreement

end ReplayWorld

end Cryptox.Backtesting
