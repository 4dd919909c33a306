import Cryptox.Backtesting.Service.ReplayJobs

/-!
# Replay jobs are settled once

The jobs in memory are the jobs of a desk that leases them, so a result is accepted at most once,
and from the latest claim. The rows of the database run in step with the records in memory.
-/
namespace Cryptox.Backtesting

open Cryptox.Library
open Cryptox.Evaluation (EvaluationMetrics)

namespace ReplayRecord

/-- The state of a job, as the record shows it. -/
def leased (record : ReplayRecord) : LeasedJob String ReplayOutcome :=
  match record.outcome, record.status, record.leaseExpiresAt with
  | some outcome, _, _ => .finished outcome
  | none, .running, some expiresAt => .held (record.activeClaimToken.getD "") expiresAt
  | none, _, _ => .idle

variable {record : ReplayRecord}

theorem outcome_eq_none (h : record.status.settled = false) : record.outcome = none := by
  have htagged := record.tagged
  rw [if_neg (by simp [h])] at htagged
  exact Option.map_eq_none_iff.mp htagged

theorem settled_of_outcome {outcome : ReplayOutcome} (h : record.outcome = some outcome) :
    record.status = outcome.status := by
  have htagged := record.tagged
  rw [h, Option.map_some] at htagged
  split at htagged
  · exact (Option.some.inj htagged).symm
  · cases htagged

theorem unsettled_of_outcome (h : record.outcome = none) : record.status.settled = false := by
  have htagged := record.tagged
  rw [h, Option.map_none] at htagged
  split at htagged
  · cases htagged
  next hsettled => exact Bool.not_eq_true _ ▸ hsettled

/-- A record waits when nobody holds its job. -/
theorem waiting_iff_free (now : Int) : record.waiting now = true ↔ record.leased.Free now := by
  cases houtcome : record.outcome with
  | some outcome =>
    have hstatus := settled_of_outcome houtcome
    simp only [leased, houtcome, LeasedJob.Free, iff_false, StoredReplayVerification.waiting]
    rw [hstatus]
    cases outcome <;> simp [ReplayOutcome.status]
  | none =>
    have hstatus := unsettled_of_outcome houtcome
    unfold leased StoredReplayVerification.waiting
    rw [houtcome]
    generalize record.status = status at hstatus ⊢
    generalize record.leaseExpiresAt = lease
    cases status <;> cases lease <;>
      simp_all [ReplayVerificationStatus.settled, LeasedJob.Free]

theorem leased_claimed (claim : ReplayClaim) (h : record.status.settled = false) :
    (record.claimed claim h).leased = .held claim.claimToken claim.leaseExpiresAt := by
  have hrecord := outcome_eq_none h
  have hnone : (record.claimed claim h).outcome = none := hrecord
  rw [leased, hnone]
  rfl

theorem leased_completed (completion : ReplayCompletion) :
    (record.completed completion).leased = .finished completion.outcome := rfl

/-- Who completes a job holds it, and its lease still runs. -/
theorem leased_of_heldBy {completion : ReplayCompletion} (h : record.heldBy completion = true) :
    ∃ expiresAt, record.leased = .held completion.claimToken expiresAt ∧
      completion.now < expiresAt := by
  simp only [heldBy, Bool.and_eq_true, beq_iff_eq, Option.any_eq_true, decide_eq_true_eq] at h
  obtain ⟨⟨hrunning, htoken⟩, expiresAt, hlease, hbefore⟩ := h
  have hnone : record.outcome = none := outcome_eq_none (by rw [hrunning]; rfl)
  refine ⟨expiresAt, ?_, hbefore⟩
  rw [leased, hnone, hrunning, hlease, htoken]
  rfl

/-- What of a record no operation changes. -/
structure SameRequest (record later : ReplayRecord) : Prop where
  replayJobId : later.replayJobId = record.replayJobId
  experimentId : later.experimentId = record.experimentId
  sourceAttemptId : later.sourceAttemptId = record.sourceAttemptId
  ownerUserId : later.ownerUserId = record.ownerUserId
  mismatchSampleLimit : later.mismatchSampleLimit = record.mismatchSampleLimit
  requestedAt : later.requestedAt = record.requestedAt

theorem SameRequest.refl (record : ReplayRecord) : record.SameRequest record :=
  ⟨rfl, rfl, rfl, rfl, rfl, rfl⟩

theorem SameRequest.trans {later last : ReplayRecord} (h : record.SameRequest later)
    (h' : later.SameRequest last) : record.SameRequest last where
  replayJobId := h'.replayJobId.trans h.replayJobId
  experimentId := h'.experimentId.trans h.experimentId
  sourceAttemptId := h'.sourceAttemptId.trans h.sourceAttemptId
  ownerUserId := h'.ownerUserId.trans h.ownerUserId
  mismatchSampleLimit := h'.mismatchSampleLimit.trans h.mismatchSampleLimit
  requestedAt := h'.requestedAt.trans h.requestedAt

theorem SameRequest.symm {later : ReplayRecord} (h : record.SameRequest later) :
    later.SameRequest record where
  replayJobId := h.replayJobId.symm
  experimentId := h.experimentId.symm
  sourceAttemptId := h.sourceAttemptId.symm
  ownerUserId := h.ownerUserId.symm
  mismatchSampleLimit := h.mismatchSampleLimit.symm
  requestedAt := h.requestedAt.symm

theorem sameRequest_claimed (claim : ReplayClaim) (h : record.status.settled = false) :
    record.SameRequest (record.claimed claim h) :=
  ⟨rfl, rfl, rfl, rfl, rfl, rfl⟩

theorem sameRequest_completed {completion : ReplayCompletion}
    (hexperiment : completion.experimentId = record.experimentId)
    (hsource : completion.sourceAttemptId = record.sourceAttemptId) :
    record.SameRequest (record.completed completion) :=
  ⟨rfl, hexperiment, hsource, rfl, rfl, rfl⟩

end ReplayRecord

/-- The record that a running call holds. -/
def ReplayPhase.claimed : ReplayPhase → Option ReplayRecord
  | .verifying claimed | .completing claimed _ => some claimed
  | .returned _ | .stopped => none

namespace ReplayWorld

/-! What a step does to the repository in memory. -/

section Steps

variable {w : ReplayWorld ReplayRecordTable} {callId : Nat}

theorem startReplayVerification_eq_ok {σ : Type} {w : ReplayWorld σ}
    {userId experimentId replayJobId : String} {requestedAt : Int} {replay : ReplayRecord}
    (h : w.startReplayVerification userId experimentId replayJobId requestedAt = .ok replay) :
    ∃ experiment, w.experiments.get? experimentId = some experiment ∧
      experiment.ownerUserId = userId ∧
      replay = .requested replayJobId experimentId experiment.backtestAttemptId userId
        replayMismatchSampleLimit requestedAt := by
  unfold startReplayVerification at h
  obtain ⟨_, -, h⟩ := bind_eq_ok.mp h
  split at h
  · cases h
  next experiment hexperiment =>
    rw [Option.filter_eq_some_iff] at hexperiment
    exact ⟨experiment, hexperiment.1, beq_iff_eq.mp hexperiment.2, (pure_eq_ok.mp h).symm⟩

theorem claimStep_refused {claim : ReplayClaim}
    (h : ∀ record, w.replays.get? claim.replayJobId = some record →
      record.waiting claim.now = false) :
    w.claimStep InMemory.replayStore callId claim = w.setPhase callId (.returned (.ok ())) := by
  have hrefused : InMemory.claimReplayVerification w.replays claim = (none, w.replays) := by
    cases hrecord : w.replays.get? claim.replayJobId with
    | none => exact InMemory.claim_of_none hrecord
    | some record => exact InMemory.claim_of_not_waiting hrecord (h record hrecord)
  simp only [claimStep, InMemory.replayStore, hrefused, Prod.map]
  rfl

theorem claimStep_granted {claim : ReplayClaim} {record : ReplayRecord}
    (hrecord : w.replays.get? claim.replayJobId = some record)
    (hwaiting : record.waiting claim.now = true) :
    w.claimStep InMemory.replayStore callId claim =
      { w with
        replays := w.replays.put
          (record.claimed claim (ReplayRecord.unsettled_of_waiting hwaiting))
        grants := ⟨claim.replayJobId, claim.claimToken, claim.now, claim.leaseExpiresAt⟩ :: w.grants
      }.setPhase callId
        (.verifying (record.claimed claim (ReplayRecord.unsettled_of_waiting hwaiting))) := by
  simp only [claimStep, InMemory.replayStore, InMemory.claim_of_waiting hrecord hwaiting, Prod.map]
  rfl

theorem completeStep_lost {completion : ReplayCompletion}
    (h : ∀ record, w.replays.get? completion.replayJobId = some record →
      record.heldBy completion = false) :
    w.completeStep InMemory.replayStore callId completion =
      w.setPhase callId (.returned (.error replayFenceLost)) := by
  simp only [completeStep, InMemory.replayStore, InMemory.complete_of_not_held h]

theorem completeStep_held {completion : ReplayCompletion} {record : ReplayRecord}
    (hrecord : w.replays.get? completion.replayJobId = some record)
    (hheld : record.heldBy completion = true) :
    w.completeStep InMemory.replayStore callId completion =
      { w with
        replays := w.replays.put (record.completed completion)
        acceptances := ⟨completion.replayJobId, completion.claimToken, completion.now,
          completion.outcome⟩ :: w.acceptances
      }.setPhase callId (.returned (.ok ())) := by
  simp only [completeStep, InMemory.replayStore, InMemory.complete_of_held hrecord hheld]

theorem startStep_error {userId experimentId replayJobId message : String} {requestedAt : Int}
    (h : w.startReplayVerification userId experimentId replayJobId requestedAt = .error message) :
    w.startStep InMemory.replayStore userId experimentId replayJobId requestedAt = w := by
  rw [startStep, h]

theorem startStep_known {userId experimentId replayJobId : String} {requestedAt : Int}
    {replay existing : ReplayRecord}
    (h : w.startReplayVerification userId experimentId replayJobId requestedAt = .ok replay)
    (hknown : w.replays.get? replay.replayJobId = some existing) :
    w.startStep InMemory.replayStore userId experimentId replayJobId requestedAt = w := by
  rw [startStep, h]
  simp only [InMemory.replayStore, InMemory.createReplayVerification, hknown]

theorem startStep_new {userId experimentId replayJobId : String} {requestedAt : Int}
    {replay : ReplayRecord}
    (h : w.startReplayVerification userId experimentId replayJobId requestedAt = .ok replay)
    (hnew : w.replays.get? replay.replayJobId = none) :
    w.startStep InMemory.replayStore userId experimentId replayJobId requestedAt =
      { w with replays := w.replays.put replay } := by
  rw [startStep, h]
  simp only [InMemory.replayStore, InMemory.createReplayVerification, hnew]

end Steps

/-! What holds of every reachable state of the repository in memory. -/

section Invariant

variable (policyHash : NormalizedPolicy → String) (deps : Dependencies)
  (evaluate : CompletedBacktestResult → Except String EvaluationMetrics)

/-- The record of a request is about a stored experiment of its owner. -/
structure Requested (experiments : ExperimentTable) (record : ReplayRecord) : Prop where
  limit : record.mismatchSampleLimit = replayMismatchSampleLimit
  experiment : ∃ experiment, experiments.get? record.experimentId = some experiment ∧
    experiment.backtestAttemptId = record.sourceAttemptId ∧
    experiment.ownerUserId = record.ownerUserId

/-- The answer of `verifyReplay` for the experiment of a record, in some state of the tables that it
reads beside the experiment. -/
def Verified (experiments : ExperimentTable) (record : ReplayRecord)
    (answer : Except String LegacyReplayVerificationResult) : Prop :=
  ∃ experiment records, experiments.get? record.experimentId = some experiment ∧
    records.experiments.get? record.experimentId = some experiment ∧
    answer = verifyReplay policyHash deps evaluate records record.ownerUserId record.experimentId

/-- A running call holds a stored request, and its answer comes from a verification. -/
structure Known (w : ReplayWorld ReplayRecordTable) (phase : ReplayPhase) : Prop where
  claimed : ∀ claimed, phase.claimed = some claimed →
    ∃ record, w.replays.get? claimed.replayJobId = some record ∧ record.SameRequest claimed
  answered : ∀ claimed answer, phase = .completing claimed answer →
    Verified policyHash deps evaluate w.experiments claimed answer

/-- The record is a request, and its outcome, if it has one, comes from a verification. -/
structure Sound (experiments : ExperimentTable) (record : ReplayRecord) : Prop where
  requested : Requested experiments record
  settled : ∀ outcome, record.outcome = some outcome → ∃ answer,
    Verified policyHash deps evaluate experiments record answer ∧
      outcome = replayOutcome replayMismatchSampleLimit answer

structure ReplayInv (w : ReplayWorld ReplayRecordTable) : Prop where
  records : ∀ replayJobId record, w.replays.get? replayJobId = some record →
    Sound policyHash deps evaluate w.experiments record
  calls : ∀ callId phase, w.phase callId = some phase → Known policyHash deps evaluate w phase

theorem replayInv_start :
    ReplayInv policyHash deps evaluate (start InMemory.replayStore) where
  records _ _ h := by cases h
  calls _ _ h := by cases h

variable {policyHash deps evaluate} {w : ReplayWorld ReplayRecordTable}

/-- A re-run reads its experiment and the attempt that it names. -/
theorem rerun_reads {records : ReplayRecords} {userId experimentId : String} {replay : Replay}
    (h : rerun policyHash deps evaluate records userId experimentId = .ok replay) :
    records.readExperimentSummary userId experimentId = .ok replay.experiment ∧
      records.readAttempt userId replay.experiment.backtestAttemptId = .ok replay.attempt := by
  unfold rerun at h
  obtain ⟨_, -, h⟩ := bind_eq_ok.mp h
  obtain ⟨experiment, hexperiment, h⟩ := bind_eq_ok.mp h
  obtain ⟨candidate, -, h⟩ := bind_eq_ok.mp h
  obtain ⟨scope, -, h⟩ := bind_eq_ok.mp h
  obtain ⟨attempt, hattempt, h⟩ := bind_eq_ok.mp h
  obtain ⟨_, -, h⟩ := bind_eq_ok.mp h
  obtain ⟨_, -, h⟩ := bind_eq_ok.mp h
  obtain ⟨_, -, h⟩ := bind_eq_ok.mp h
  split at h
  · obtain ⟨_, -, h⟩ := bind_eq_ok.mp h
    cases h
    exact ⟨hexperiment, hattempt⟩
  · obtain ⟨_, -, h⟩ := bind_eq_ok.mp h
    cases h
    exact ⟨hexperiment, hattempt⟩

theorem readExperimentSummary_eq_ok {records : ReplayRecords} {userId experimentId : String}
    {experiment : ExperimentRecord}
    (h : records.readExperimentSummary userId experimentId = .ok experiment) :
    records.experiments.get? experimentId = some experiment ∧ experiment.ownerUserId = userId := by
  unfold ReplayRecords.readExperimentSummary at h
  split at h
  next found hfound =>
    cases h
    obtain ⟨hget, howner⟩ := Option.filter_eq_some_iff.mp hfound
    exact ⟨hget, beq_iff_eq.mp howner⟩
  next => cases h

theorem readAttempt_eq_ok {records : ReplayRecords} {userId : String} {attemptId : AttemptId}
    {attempt : BacktestAttemptAudit} (h : records.readAttempt userId attemptId = .ok attempt) :
    records.repository.attempts.get? attemptId = some attempt := by
  unfold ReplayRecords.readAttempt at h
  split at h
  next found hfound =>
    cases h
    exact (Option.filter_eq_some_iff.mp hfound).1
  next => cases h

/-- An answer names the experiment it was asked for, and the attempt that one was made from. -/
theorem verifyReplay_names {records : ReplayRecords} {userId experimentId : String}
    {result : LegacyReplayVerificationResult}
    (h : verifyReplay policyHash deps evaluate records userId experimentId = .ok result) :
    result.experimentId = experimentId ∧ ∃ experiment,
      records.experiments.get? experimentId = some experiment ∧
        result.sourceAttemptId = experiment.backtestAttemptId := by
  obtain ⟨replay, hreplay, hanswer⟩ := bind_eq_ok.mp h
  obtain rfl := pure_eq_ok.mp hanswer
  obtain ⟨hexperiment, hattempt⟩ := rerun_reads hreplay
  obtain ⟨hget, -⟩ := readExperimentSummary_eq_ok hexperiment
  exact ⟨@Table.key_of_get? _ _ _ _ records.experiments _ _ hget, replay.experiment, hget,
    @Table.key_of_get? _ _ _ _ records.repository.attempts _ _ (readAttempt_eq_ok hattempt)⟩

theorem Requested.mono {experiments others : ExperimentTable} {record : ReplayRecord}
    (h : Requested experiments record) (hmore : ∀ id experiment,
      experiments.get? id = some experiment → others.get? id = some experiment) :
    Requested others record := by
  obtain ⟨hlimit, experiment, hexperiment, hnames⟩ := h
  exact ⟨hlimit, experiment, hmore _ _ hexperiment, hnames⟩

theorem Requested.same {experiments : ExperimentTable} {record later : ReplayRecord}
    (h : Requested experiments record) (hsame : record.SameRequest later) :
    Requested experiments later := by
  refine ⟨hsame.mismatchSampleLimit.trans h.limit, ?_⟩
  rw [hsame.experimentId, hsame.sourceAttemptId, hsame.ownerUserId]
  exact h.experiment

theorem Verified.mono {experiments others : ExperimentTable} {record : ReplayRecord}
    {answer : Except String LegacyReplayVerificationResult}
    (h : Verified policyHash deps evaluate experiments record answer) (hmore : ∀ id experiment,
      experiments.get? id = some experiment → others.get? id = some experiment) :
    Verified policyHash deps evaluate others record answer := by
  obtain ⟨experiment, records, hexperiment, hread⟩ := h
  exact ⟨experiment, records, hmore _ _ hexperiment, hread⟩

theorem Verified.same {experiments : ExperimentTable} {record other : ReplayRecord}
    {answer : Except String LegacyReplayVerificationResult}
    (h : Verified policyHash deps evaluate experiments record answer)
    (hexperiment : other.experimentId = record.experimentId)
    (howner : other.ownerUserId = record.ownerUserId) :
    Verified policyHash deps evaluate experiments other answer := by
  rw [Verified, hexperiment, howner]
  exact h

/-- A completion names the experiment and the attempt of the request it is for. -/
theorem completion_names {experiments : ExperimentTable} {record claimed : ReplayRecord}
    {answer : Except String LegacyReplayVerificationResult}
    (hrequested : Requested experiments record) (hsame : record.SameRequest claimed)
    (hverified : Verified policyHash deps evaluate experiments claimed answer) (now : Int) :
    (claimed.completion answer now).experimentId = record.experimentId ∧
      (claimed.completion answer now).sourceAttemptId = record.sourceAttemptId := by
  cases answer with
  | error message => exact ⟨hsame.experimentId, hsame.sourceAttemptId⟩
  | ok result =>
    obtain ⟨experiment, records, hexperiment, hread, hanswer⟩ := hverified
    obtain ⟨hid, found, hfound, hsource⟩ := verifyReplay_names hanswer.symm
    obtain ⟨known, hknown, hattempt, -⟩ := hrequested.experiment
    refine ⟨hid.trans hsame.experimentId, ?_⟩
    rw [hsame.experimentId, hknown] at hexperiment
    cases hexperiment
    rw [hread] at hfound
    cases hfound
    exact hsource.trans hattempt

end Invariant

/-! The jobs in memory are those of a desk. -/

section Desk

/-- What a step does to the jobs in memory, and how a desk sees it. -/
inductive Effect (w w' : ReplayWorld ReplayRecordTable) :
    List (DeskEvent String String ReplayOutcome) → Prop where
  | quiet (hreplays : w'.replays = w.replays) (hgrants : w'.grants = w.grants)
      (hacceptances : w'.acceptances = w.acceptances) : Effect w w' []
  | created (replay : ReplayRecord) (hnew : w.replays.get? replay.replayJobId = none)
      (hidle : replay.leased = .idle) (hrequested : Requested w.experiments replay)
      (hreplays : w'.replays = w.replays.put replay) (hgrants : w'.grants = w.grants)
      (hacceptances : w'.acceptances = w.acceptances) : Effect w w' [.post replay.replayJobId]
  | claimed (claim : ReplayClaim) (record : ReplayRecord)
      (hrecord : w.replays.get? claim.replayJobId = some record)
      (hwaiting : record.waiting claim.now = true)
      (hreplays : w'.replays = w.replays.put
        (record.claimed claim (ReplayRecord.unsettled_of_waiting hwaiting)))
      (hlease : claim.leaseExpiresAt = claim.now + replayLeaseMs)
      (hgrants : w'.grants =
        ⟨claim.replayJobId, claim.claimToken, claim.now, claim.leaseExpiresAt⟩ :: w.grants)
      (hacceptances : w'.acceptances = w.acceptances) :
      Effect w w' [.claim ⟨claim.replayJobId, claim.claimToken, claim.now, claim.leaseExpiresAt⟩]
  | completed (completion : ReplayCompletion) (record : ReplayRecord)
      (hrecord : w.replays.get? completion.replayJobId = some record)
      (hheld : record.heldBy completion = true)
      (hcall : ∃ callId claimed answer now, w.phase callId = some (.completing claimed answer) ∧
        completion = claimed.completion answer now)
      (hreplays : w'.replays = w.replays.put (record.completed completion))
      (hgrants : w'.grants = w.grants)
      (hacceptances : w'.acceptances = ⟨completion.replayJobId, completion.claimToken,
        completion.now, completion.outcome⟩ :: w.acceptances) :
      Effect w w' [.finish ⟨completion.replayJobId, completion.claimToken, completion.now,
        completion.outcome⟩]

variable {w : ReplayWorld ReplayRecordTable}

theorem effect_start (userId experimentId replayJobId : String) (requestedAt : Int) :
    ∃ events, Effect w
      (w.startStep InMemory.replayStore userId experimentId replayJobId requestedAt) events := by
  cases h : w.startReplayVerification userId experimentId replayJobId requestedAt with
  | error message =>
    rw [startStep_error h]
    exact ⟨_, .quiet rfl rfl rfl⟩
  | ok replay =>
    cases hknown : w.replays.get? replay.replayJobId with
    | some existing =>
      rw [startStep_known h hknown]
      exact ⟨_, .quiet rfl rfl rfl⟩
    | none =>
      rw [startStep_new h hknown]
      obtain ⟨experiment, hexperiment, howner, rfl⟩ := startReplayVerification_eq_ok h
      exact ⟨_, .created _ hknown rfl ⟨rfl, experiment, hexperiment, rfl, howner⟩ rfl rfl rfl⟩

theorem effect_claim (callId : Nat) {claim : ReplayClaim}
    (hlease : claim.leaseExpiresAt = claim.now + replayLeaseMs) :
    ∃ events, Effect w (w.claimStep InMemory.replayStore callId claim) events := by
  by_cases h : ∃ record, w.replays.get? claim.replayJobId = some record ∧
      record.waiting claim.now = true
  · obtain ⟨record, hrecord, hwaiting⟩ := h
    rw [claimStep_granted hrecord hwaiting]
    exact ⟨_, .claimed claim record hrecord hwaiting rfl hlease rfl rfl⟩
  · rw [claimStep_refused fun record hrecord =>
      Bool.not_eq_true _ ▸ fun hwaiting => h ⟨record, hrecord, hwaiting⟩]
    exact ⟨_, .quiet rfl rfl rfl⟩

theorem effect_complete {callId : Nat} {claimed : ReplayRecord}
    {answer : Except String LegacyReplayVerificationResult}
    (hphase : w.phase callId = some (.completing claimed answer)) (now : Int) :
    ∃ events, Effect w
      (w.completeStep InMemory.replayStore callId (claimed.completion answer now)) events := by
  generalize hcompletion : claimed.completion answer now = completion
  by_cases h : ∃ record, w.replays.get? completion.replayJobId = some record ∧
      record.heldBy completion = true
  · obtain ⟨record, hrecord, hheld⟩ := h
    rw [completeStep_held hrecord hheld]
    exact ⟨_, .completed completion record hrecord hheld
      ⟨callId, claimed, answer, now, hphase, hcompletion.symm⟩ rfl rfl rfl⟩
  · rw [completeStep_lost fun record hrecord =>
      Bool.not_eq_true _ ▸ fun hheld => h ⟨record, hrecord, hheld⟩]
    exact ⟨_, .quiet rfl rfl rfl⟩

variable (policyHash : NormalizedPolicy → String) (deps : Dependencies)
  (evaluate : CompletedBacktestResult → Except String EvaluationMetrics)

theorem effect_next (step : ReplayStep) :
    ∃ events, Effect w (w.next policyHash deps evaluate InMemory.replayStore step) events := by
  cases step with
  | stored experiment => exact ⟨_, .quiet rfl rfl rfl⟩
  | start userId experimentId replayJobId requestedAt =>
    exact effect_start userId experimentId replayJobId requestedAt
  | claim callId replayJobId claimToken now => exact effect_claim callId rfl
  | verify callId scopes repository =>
    simp only [next]
    split
    · exact ⟨_, .quiet rfl rfl rfl⟩
    · exact ⟨_, .quiet rfl rfl rfl⟩
  | complete callId now =>
    simp only [next]
    split
    next hphase => exact effect_complete hphase now
    next => exact ⟨_, .quiet rfl rfl rfl⟩
  | stop callId => exact ⟨_, .quiet rfl rfl rfl⟩

theorem key_of_record {replays : ReplayRecordTable} {replayJobId : String} {record : ReplayRecord}
    (h : replays.get? replayJobId = some record) : record.replayJobId = replayJobId :=
  @Table.key_of_get? _ _ _ _ replays _ _ h

/-- The desk has the jobs that the records show, and saw the same grants and results. -/
structure OnDesk (w : ReplayWorld ReplayRecordTable) (desk : Desk String String ReplayOutcome) :
    Prop where
  jobs : ∀ replayJobId, desk.jobs replayJobId =
    (w.replays.get? replayJobId).map ReplayRecord.leased
  grants : desk.grants = w.grants
  acceptances : desk.acceptances = w.acceptances

/-- A write to the records is an update of the jobs. -/
theorem jobs_put {replays : ReplayRecordTable} {jobs : String → Option (LeasedJob String ReplayOutcome)}
    (h : ∀ replayJobId, jobs replayJobId = (replays.get? replayJobId).map ReplayRecord.leased)
    (record : ReplayRecord) (replayJobId : String) :
    Function.update jobs record.replayJobId (some record.leased) replayJobId =
      ((replays.put record).get? replayJobId).map ReplayRecord.leased := by
  by_cases hid : replayJobId = record.replayJobId
  · rw [Table.get?_put_of_eq replays hid, hid]
    exact Function.update_self ..
  · rw [Table.get?_put_of_ne replays hid, ← h]
    exact Function.update_of_ne hid ..

theorem onDesk_effect {w' : ReplayWorld ReplayRecordTable}
    {events : List (DeskEvent String String ReplayOutcome)} {desk : Desk String String ReplayOutcome}
    (h : OnDesk w desk) (heffect : Effect w w' events) :
    (Desk.system String String ReplayOutcome).Legal (fun _ _ => True) desk events ∧
      OnDesk w' ((Desk.system String String ReplayOutcome).run desk events) := by
  cases heffect with
  | quiet hreplays hgrants hacceptances =>
    refine ⟨trivial, ⟨fun replayJobId => ?_, ?_, ?_⟩⟩
    · rw [hreplays]
      exact h.jobs replayJobId
    · exact h.grants.trans hgrants.symm
    · exact h.acceptances.trans hacceptances.symm
  | created replay hnew hidle hrequested hreplays hgrants hacceptances =>
    refine ⟨⟨⟨?_, trivial⟩, trivial⟩, ⟨fun replayJobId => ?_, ?_, ?_⟩⟩
    · show desk.jobs replay.replayJobId = none
      rw [h.jobs, hnew, Option.map_none]
    · rw [hreplays, ← jobs_put h.jobs, hidle]
      rfl
    · exact h.grants.trans hgrants.symm
    · exact h.acceptances.trans hacceptances.symm
  | claimed claim record hrecord hwaiting hreplays hlease hgrants hacceptances =>
    have hkey : record.replayJobId = claim.replayJobId := key_of_record hrecord
    refine ⟨⟨⟨⟨record.leased, ?_, ?_⟩, trivial⟩, trivial⟩, ⟨fun replayJobId => ?_, ?_, ?_⟩⟩
    · show desk.jobs claim.replayJobId = _
      rw [h.jobs, hrecord, Option.map_some]
    · exact (ReplayRecord.waiting_iff_free claim.now).mp hwaiting
    · rw [hreplays, ← jobs_put h.jobs, ReplayRecord.leased_claimed]
      show Function.update _ claim.replayJobId _ _ = Function.update _ record.replayJobId _ _
      rw [hkey]
    · rw [hgrants, ← h.grants]
      rfl
    · exact h.acceptances.trans hacceptances.symm
  | completed completion record hrecord hheld hcall hreplays hgrants hacceptances =>
    have hkey : record.replayJobId = completion.replayJobId := key_of_record hrecord
    obtain ⟨expiresAt, hleased, hbefore⟩ := ReplayRecord.leased_of_heldBy hheld
    refine ⟨⟨⟨⟨expiresAt, ?_, hbefore⟩, trivial⟩, trivial⟩, ⟨fun replayJobId => ?_, ?_, ?_⟩⟩
    · show desk.jobs completion.replayJobId = _
      rw [h.jobs, hrecord, Option.map_some, hleased]
    · rw [hreplays, ← jobs_put h.jobs, ReplayRecord.leased_completed]
      show Function.update _ completion.replayJobId _ _ = Function.update _ record.replayJobId _ _
      rw [hkey]
    · exact h.grants.trans hgrants.symm
    · rw [hacceptances, ← h.acceptances]
      rfl

/-- The jobs in memory are handed out as a desk hands them out. -/
theorem desk_simulation : Cryptox.Library.Simulation
    (system policyHash deps evaluate InMemory.replayStore)
    (Desk.system String String ReplayOutcome) OnDesk where
  step _ _ step h _ :=
    have ⟨events, heffect⟩ := effect_next policyHash deps evaluate step
    ⟨events, onDesk_effect h heffect⟩

end Desk

end ReplayWorld

end Cryptox.Backtesting
