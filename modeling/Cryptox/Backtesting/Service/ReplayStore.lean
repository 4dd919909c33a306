import Cryptox.Library.PairedTables
import Cryptox.Backtesting.Service.QueueRecovery
import Cryptox.Backtesting.Service.Replay

/-!
# The stored replay jobs

A replay job's record with its outcome, and what the two repositories do with it. In the database a
job is a row of nullable columns beside the experiment it is about; every row that is reached reads
back as the record that the repository in memory keeps.
-/
namespace Cryptox.Backtesting

open Cryptox.Library (Table)

inductive ReplayFailureCode where
  | missingSnapshot | implementationArtifactUnavailable | replayArtifactExpired
deriving DecidableEq, Repr

/-- What a finished verification says. -/
inductive ReplayOutcome where
  | matched (comparedTradeCount : Nat)
  | mismatched (comparedTradeCount : Nat) (mismatches : List ReplayMismatch)
      (totalMismatchCount : Nat) (truncated : Bool)
  | nonReplayable (failureCode : ReplayFailureCode)
deriving DecidableEq, Repr

def ReplayOutcome.status : ReplayOutcome → ReplayVerificationStatus
  | matched _ => .matched
  | mismatched .. => .mismatched
  | nonReplayable _ => .nonReplayable

def ReplayVerificationStatus.settled : ReplayVerificationStatus → Bool
  | queued | running => false
  | matched | mismatched | nonReplayable => true

@[simp] theorem ReplayOutcome.settled_status (outcome : ReplayOutcome) :
    outcome.status.settled = true := by
  cases outcome <;> rfl

/-- A record, whose outcome is the one its status announces. -/
structure ReplayRecord extends StoredReplayVerification where
  startedAt : Option Int
  completedAt : Option Int
  outcome : Option ReplayOutcome
  tagged : outcome.map ReplayOutcome.status = if status.settled then some status else none

abbrev ReplayRecordTable := Table fun (record : ReplayRecord) => record.replayJobId

/-- The records as queue recovery looks at them. -/
def ReplayRecordTable.stored (replays : ReplayRecordTable) : ReplayTable :=
  replays.project (·.toStoredReplayVerification) fun _ => rfl

structure ReplayClaim where
  replayJobId : String
  claimToken : String
  now : Int
  leaseExpiresAt : Int

/-- A result names the job it is for, once. -/
structure ReplayCompletion where
  replayJobId : String
  claimToken : String
  now : Int
  experimentId : String
  sourceAttemptId : AttemptId
  outcome : ReplayOutcome

def replayFenceLost : String := "BACKTEST_REPLAY_FENCE_LOST"

namespace ReplayRecord

def claimed (record : ReplayRecord) (claim : ReplayClaim) (h : record.status.settled = false) :
    ReplayRecord :=
  { record with
    status := .running
    activeClaimToken := some claim.claimToken
    leaseExpiresAt := some claim.leaseExpiresAt
    startedAt := some (record.startedAt.getD claim.now)
    tagged := by
      have htagged := record.tagged
      rwa [if_neg (by simp [h])] at htagged }

def completed (record : ReplayRecord) (completion : ReplayCompletion) : ReplayRecord :=
  { record with
    experimentId := completion.experimentId
    sourceAttemptId := completion.sourceAttemptId
    status := completion.outcome.status
    activeClaimToken := none
    leaseExpiresAt := none
    completedAt := some completion.now
    outcome := some completion.outcome
    tagged := by simp }

/-- The record of a new request. -/
def requested (replayJobId experimentId : String) (sourceAttemptId : AttemptId)
    (ownerUserId : String) (mismatchSampleLimit : Nat) (requestedAt : Int) : ReplayRecord where
  replayJobId
  experimentId
  sourceAttemptId
  ownerUserId
  status := .queued
  mismatchSampleLimit
  requestedAt
  activeClaimToken := none
  leaseExpiresAt := none
  startedAt := none
  completedAt := none
  outcome := none
  tagged := rfl

/-- The completion comes from the holder of the claim, in time. -/
def heldBy (record : ReplayRecord) (completion : ReplayCompletion) : Bool :=
  record.status == .running && record.activeClaimToken == some completion.claimToken
    && record.leaseExpiresAt.any (completion.now < ·)

theorem unsettled_of_waiting {record : ReplayRecord} {now : Int} (h : record.waiting now = true) :
    record.status.settled = false := by
  unfold StoredReplayVerification.waiting at h
  generalize record.status = status at h ⊢
  cases status <;> simp_all [ReplayVerificationStatus.settled]

end ReplayRecord

namespace InMemory

variable (replays : ReplayRecordTable)

def createReplayVerification (replay : ReplayRecord) : ReplayRecord × ReplayRecordTable :=
  match replays.get? replay.replayJobId with
  | some existing => (existing, replays)
  | none => (replay, replays.put replay)

/-- An owner that is not given, or empty, is any owner. -/
def readReplayVerification (replayJobId : String) (ownerUserId : Option String) :
    Option ReplayRecord :=
  (replays.get? replayJobId).filter fun value =>
    ownerUserId.all fun owner => owner.isEmpty || value.ownerUserId == owner

def claimReplayVerification (claim : ReplayClaim) : Option ReplayRecord × ReplayRecordTable :=
  match replays.get? claim.replayJobId with
  | none => (none, replays)
  | some value =>
    if h : value.status.settled then (none, replays)
    else if value.status == .running && value.leaseExpiresAt.any (claim.now < ·) then (none, replays)
    else if value.status != .queued && value.status != .running then (none, replays)
    else
      let claimed := value.claimed claim (by simpa using h)
      (some claimed, replays.put claimed)

def completeReplayVerification (completion : ReplayCompletion) :
    Except String Unit × ReplayRecordTable :=
  match replays.get? completion.replayJobId with
  | none => (.error replayFenceLost, replays)
  | some value =>
    if value.heldBy completion then (.ok (), replays.put (value.completed completion))
    else (.error replayFenceLost, replays)

end InMemory

structure ReplayRow where
  id : String
  ownerUserId : String
  experimentResultId : String
  status : ReplayVerificationStatus
  mismatchSampleLimit : Nat
  comparedTradeCount : Option Nat
  mismatchSample : Option (List ReplayMismatch)
  totalMismatchCount : Option Nat
  truncated : Option Bool
  failureCode : Option ReplayFailureCode
  claimToken : Option String
  leaseExpiresAt : Option Int
  createdAt : Int
  startedAt : Option Int
  completedAt : Option Int
deriving DecidableEq, Repr

abbrev ReplayRowTable := Table ReplayRow.id

def persistenceIntegrityError : String := "BACKTEST_PERSISTENCE_INTEGRITY_ERROR"

namespace ReplayRow

/-- The columns that every record has. -/
def base (row : ReplayRow) (sourceAttemptId : AttemptId) (outcome : Option ReplayOutcome)
    (htagged : outcome.map ReplayOutcome.status =
      if row.status.settled then some row.status else none) : ReplayRecord where
  replayJobId := row.id
  experimentId := row.experimentResultId
  sourceAttemptId
  ownerUserId := row.ownerUserId
  status := row.status
  mismatchSampleLimit := row.mismatchSampleLimit
  requestedAt := row.createdAt
  activeClaimToken := row.claimToken
  leaseExpiresAt := row.leaseExpiresAt
  startedAt := row.startedAt
  completedAt := row.completedAt
  outcome
  tagged := htagged

/-- The record that a row stands for. -/
def replay (row : ReplayRow) (backtestAttemptId : Option AttemptId) : Except String ReplayRecord :=
  match backtestAttemptId with
  | none => .error persistenceIntegrityError
  | some attemptId =>
    match hstatus : row.status with
    | .queued | .running =>
      .ok (row.base attemptId none (by simp [hstatus, ReplayVerificationStatus.settled]))
    | .nonReplayable =>
      match row.failureCode with
      | some code =>
        .ok (row.base attemptId (some (.nonReplayable code))
          (by simp [hstatus, ReplayOutcome.status, ReplayVerificationStatus.settled]))
      | none => .error persistenceIntegrityError
    | .matched =>
      match row.comparedTradeCount, row.totalMismatchCount, row.truncated with
      | some compared, some _, some _ =>
        .ok (row.base attemptId (some (.matched compared))
          (by simp [hstatus, ReplayOutcome.status, ReplayVerificationStatus.settled]))
      | _, _, _ => .error persistenceIntegrityError
    | .mismatched =>
      match row.comparedTradeCount, row.totalMismatchCount, row.truncated with
      | some compared, some total, some truncated =>
        .ok (row.base attemptId
          (some (.mismatched compared (row.mismatchSample.getD []) total truncated))
          (by simp [hstatus, ReplayOutcome.status, ReplayVerificationStatus.settled]))
      | _, _, _ => .error persistenceIntegrityError

/-- The row of a new request; the other columns have no value yet. -/
def inserted (input : ReplayRecord) : ReplayRow where
  id := input.replayJobId
  ownerUserId := input.ownerUserId
  experimentResultId := input.experimentId
  status := .queued
  mismatchSampleLimit := input.mismatchSampleLimit
  comparedTradeCount := none
  mismatchSample := none
  totalMismatchCount := none
  truncated := none
  failureCode := none
  claimToken := none
  leaseExpiresAt := none
  createdAt := input.requestedAt
  startedAt := none
  completedAt := none

def waiting (row : ReplayRow) (now : Int) : Bool :=
  row.status == .queued
    || (row.status == .running && row.leaseExpiresAt.all fun expiresAt => expiresAt ≤ now)

def claimed (row : ReplayRow) (claim : ReplayClaim) : ReplayRow :=
  { row with
    status := .running
    claimToken := some claim.claimToken
    leaseExpiresAt := some claim.leaseExpiresAt
    startedAt := some (row.startedAt.getD claim.now) }

def heldBy (row : ReplayRow) (completion : ReplayCompletion) : Bool :=
  row.claimToken == some completion.claimToken && row.status == .running
    && row.leaseExpiresAt.any (completion.now < ·)

/-- A result that is no comparison leaves the comparison's columns empty, and the other way round. -/
def completed (row : ReplayRow) (completion : ReplayCompletion) : ReplayRow :=
  { row with
    status := completion.outcome.status
    comparedTradeCount := match completion.outcome with
      | .matched compared | .mismatched compared .. => some compared
      | .nonReplayable _ => none
    mismatchSample := match completion.outcome with
      | .matched _ => some []
      | .mismatched _ mismatches .. => some mismatches
      | .nonReplayable _ => none
    totalMismatchCount := match completion.outcome with
      | .matched _ => some 0
      | .mismatched _ _ total _ => some total
      | .nonReplayable _ => none
    truncated := match completion.outcome with
      | .matched _ => some false
      | .mismatched _ _ _ truncated => some truncated
      | .nonReplayable _ => none
    failureCode := match completion.outcome with
      | .nonReplayable code => some code
      | _ => none
    claimToken := none
    leaseExpiresAt := none
    completedAt := some completion.now }

end ReplayRow

/-- The attempt that an experiment was made from. -/
def sourceAttempt (experiments : ExperimentTable) (experimentId : String) : Option AttemptId :=
  (experiments.get? experimentId).map fun experiment => experiment.backtestAttemptId

namespace Postgres

variable (experiments : ExperimentTable) (rows : ReplayRowTable)

/-- The input is answered whether or not it was stored. -/
def createReplayVerification (input : ReplayRecord) : ReplayRecord × ReplayRowTable :=
  (input, if (rows.get? input.replayJobId).isSome then rows else rows.put (.inserted input))

/-- The row is joined to its experiment; without one there is nothing to read. -/
def readReplayVerification (replayJobId : String) (ownerUserId : Option String) :
    Except String (Option ReplayRecord) :=
  match (rows.get? replayJobId).filter fun row =>
      (sourceAttempt experiments row.experimentResultId).isSome
        && ownerUserId.all fun owner => owner.isEmpty || row.ownerUserId == owner with
  | none => .ok none
  | some row => (row.replay (sourceAttempt experiments row.experimentResultId)).map some

def claimReplayVerification (claim : ReplayClaim) :
    Except String (Option ReplayRecord) × ReplayRowTable :=
  match (rows.get? claim.replayJobId).filter (·.waiting claim.now) with
  | none => (.ok none, rows)
  | some row =>
    let claimed := row.claimed claim
    let answer := match sourceAttempt experiments row.experimentResultId with
      | none => .ok none
      | some attemptId => (claimed.replay (some attemptId)).map some
    (answer, rows.put claimed)

def completeReplayVerification (completion : ReplayCompletion) :
    Except String Unit × ReplayRowTable :=
  match (rows.get? completion.replayJobId).filter (·.heldBy completion) with
  | none => (.error replayFenceLost, rows)
  | some row => (.ok (), rows.put (row.completed completion))

def listReplayRows (now : Int) (limit : Nat) : List String :=
  (((rows.rows.filter fun row => row.waiting now).insertionSort fun left right =>
    left.createdAt < right.createdAt ∨
      left.createdAt = right.createdAt ∧ left.id ≤ right.id).take limit).map (·.id)

end Postgres

namespace InMemory

variable {replays : ReplayRecordTable} {claim : ReplayClaim} {record : ReplayRecord}

theorem claim_of_none (h : replays.get? claim.replayJobId = none) :
    claimReplayVerification replays claim = (none, replays) := by
  rw [claimReplayVerification, h]

/-- The three checks let exactly the records through that wait. -/
theorem claim_of_waiting (h : replays.get? claim.replayJobId = some record)
    (hwaiting : record.waiting claim.now = true) :
    claimReplayVerification replays claim =
      (some (record.claimed claim (ReplayRecord.unsettled_of_waiting hwaiting)),
        replays.put (record.claimed claim (ReplayRecord.unsettled_of_waiting hwaiting))) := by
  have hsettled := ReplayRecord.unsettled_of_waiting hwaiting
  have hleased : (record.status == .running && record.leaseExpiresAt.any (claim.now < ·)) = false ∧
      (record.status != .queued && record.status != .running) = false := by
    unfold StoredReplayVerification.waiting at hwaiting
    generalize record.status = status at hwaiting ⊢
    generalize record.leaseExpiresAt = lease at hwaiting ⊢
    cases status <;> cases lease <;> simp_all
  rw [claimReplayVerification, h]
  simp [hsettled, hleased.1, hleased.2]

theorem claim_of_not_waiting (h : replays.get? claim.replayJobId = some record)
    (hwaiting : record.waiting claim.now = false) :
    claimReplayVerification replays claim = (none, replays) := by
  have hrefused : record.status.settled = true ∨
      (record.status == .running && record.leaseExpiresAt.any (claim.now < ·)) = true ∨
      (record.status != .queued && record.status != .running) = true := by
    unfold StoredReplayVerification.waiting at hwaiting
    generalize record.status = status at hwaiting ⊢
    generalize record.leaseExpiresAt = lease at hwaiting ⊢
    cases status <;> cases lease <;> simp_all [ReplayVerificationStatus.settled]
  rw [claimReplayVerification, h]
  rcases hrefused with hrefused | hrefused | hrefused
  · simp [hrefused]
  · simp [hrefused]
  · simp [hrefused]

theorem complete_of_held {completion : ReplayCompletion}
    (h : replays.get? completion.replayJobId = some record)
    (hheld : record.heldBy completion = true) :
    completeReplayVerification replays completion =
      (.ok (), replays.put (record.completed completion)) := by
  rw [completeReplayVerification, h]
  exact if_pos hheld

theorem complete_of_not_held {completion : ReplayCompletion}
    (h : ∀ record, replays.get? completion.replayJobId = some record →
      record.heldBy completion = false) :
    completeReplayVerification replays completion = (.error replayFenceLost, replays) := by
  rw [completeReplayVerification]
  cases hrecord : replays.get? completion.replayJobId with
  | none => rfl
  | some record => exact if_neg (by rw [h record hrecord]; decide)

end InMemory

/-- A listing that looks at its rows through `f` only is the listing of what `f` shows. -/
private theorem listed_map {α β : Type} (f : α → β) (p : β → Bool) (s : β → β → Prop)
    [DecidableRel s] (g : β → String) (rows : List α) (limit : Nat) :
    (((rows.filter fun row => p (f row)).insertionSort fun left right => s (f left) (f right)).take
        limit).map (fun row => g (f row)) =
      ((((rows.map f).filter p).insertionSort s).take limit).map g := by
  have hmap : ∀ shown : List α, shown.map (fun row => g (f row)) = (shown.map f).map g :=
    fun shown => List.map_map.symm
  rw [hmap, List.map_take, List.map_insertionSort _ s f _ fun _ _ _ _ => Iff.rfl, List.filter_map]
  rfl

/-- Of two requested at one instant the smaller id comes first. -/
private abbrev requestedBefore (left right : Int × String × Bool) : Prop :=
  left.1 < right.1 ∨ left.1 = right.1 ∧ left.2.1 ≤ right.2.1

section Agreement

variable {experiments : ExperimentTable} {row : ReplayRow} {record : ReplayRecord}

/-- The row reads back as the record. -/
def ReplayRow.Stores (experiments : ExperimentTable) (row : ReplayRow) (record : ReplayRecord) :
    Prop :=
  row.replay (sourceAttempt experiments row.experimentResultId) = .ok record

/-- The rows read back as the records, one after the other. -/
def RowsStore (experiments : ExperimentTable) (rows : ReplayRowTable)
    (records : ReplayRecordTable) : Prop :=
  rows.Paired (ReplayRow.Stores experiments) records

namespace ReplayRow

theorem replay_eq_ok {attemptId : Option AttemptId} (h : row.replay attemptId = .ok record) :
    ∃ attempt outcome htagged, attemptId = some attempt ∧
      record = row.base attempt outcome htagged := by
  unfold replay at h
  cases attemptId with
  | none => cases h
  | some attempt =>
    refine ⟨attempt, ?_⟩
    dsimp only at h
    split at h
    · exact ⟨_, _, rfl, (Except.ok.inj h).symm⟩
    · exact ⟨_, _, rfl, (Except.ok.inj h).symm⟩
    · split at h
      · exact ⟨_, _, rfl, (Except.ok.inj h).symm⟩
      · cases h
    · split at h
      · exact ⟨_, _, rfl, (Except.ok.inj h).symm⟩
      · cases h
    · split at h
      · exact ⟨_, _, rfl, (Except.ok.inj h).symm⟩
      · cases h

theorem Stores.base (h : row.Stores experiments record) :
    ∃ attempt outcome htagged, sourceAttempt experiments row.experimentResultId = some attempt ∧
      record = row.base attempt outcome htagged :=
  replay_eq_ok h

theorem Stores.id (h : row.Stores experiments record) : row.id = record.replayJobId := by
  obtain ⟨_, _, _, -, rfl⟩ := h.base
  rfl

theorem Stores.waiting (h : row.Stores experiments record) (now : Int) :
    row.waiting now = record.waiting now := by
  obtain ⟨_, _, _, -, rfl⟩ := h.base
  rfl

theorem Stores.heldBy (h : row.Stores experiments record) (completion : ReplayCompletion) :
    row.heldBy completion = record.heldBy completion := by
  obtain ⟨_, _, _, -, rfl⟩ := h.base
  rw [ReplayRow.heldBy, Bool.and_comm (row.claimToken == _)]
  rfl

/-- More experiments change nothing. -/
theorem Stores.mono (h : row.Stores experiments record) {others : ExperimentTable}
    (hmore : ∀ id attempt, sourceAttempt experiments id = some attempt →
      sourceAttempt others id = some attempt) : row.Stores others record := by
  obtain ⟨attempt, _, _, hattempt, -⟩ := h.base
  rw [Stores, hmore _ _ hattempt, ← hattempt]
  exact h

theorem stores_inserted {replayJobId experimentId ownerUserId : String} {attempt : AttemptId}
    {mismatchSampleLimit : Nat} {requestedAt : Int}
    (h : sourceAttempt experiments experimentId = some attempt) :
    (inserted (.requested replayJobId experimentId attempt ownerUserId mismatchSampleLimit
      requestedAt)).Stores experiments
      (.requested replayJobId experimentId attempt ownerUserId mismatchSampleLimit requestedAt) := by
  show replay _ (sourceAttempt experiments experimentId) = _
  rw [h]
  rfl

theorem Stores.claimed (h : row.Stores experiments record) (claim : ReplayClaim)
    (hunsettled : record.status.settled = false) :
    (row.claimed claim).Stores experiments (record.claimed claim hunsettled) := by
  obtain ⟨attempt, outcome, htagged, hattempt, rfl⟩ := h.base
  have hnone : outcome = none := by
    have hstatus : row.status.settled = false := hunsettled
    rw [if_neg (by simp [hstatus])] at htagged
    exact Option.map_eq_none_iff.mp htagged
  subst hnone
  show replay _ (sourceAttempt experiments row.experimentResultId) = _
  rw [hattempt]
  rfl

theorem Stores.completed (h : row.Stores experiments record) {completion : ReplayCompletion}
    (hexperiment : completion.experimentId = record.experimentId)
    (hsource : completion.sourceAttemptId = record.sourceAttemptId) :
    (row.completed completion).Stores experiments (record.completed completion) := by
  obtain ⟨attempt, outcome, htagged, hattempt, rfl⟩ := h.base
  obtain ⟨replayJobId, claimToken, now, experimentId, sourceAttemptId, result⟩ := completion
  obtain rfl : experimentId = row.experimentResultId := hexperiment
  obtain rfl : sourceAttemptId = attempt := hsource
  show replay _ (sourceAttempt experiments row.experimentResultId) = _
  rw [hattempt]
  cases result <;> rfl

end ReplayRow

variable {rows : ReplayRowTable} {records : ReplayRecordTable}

namespace RowsStore

private theorem key_eq (row : ReplayRow) (record : ReplayRecord) (h : row.Stores experiments record) :
    row.id = record.replayJobId :=
  h.id

theorem empty : RowsStore experiments Table.empty Table.empty := .nil

theorem mono (h : RowsStore experiments rows records) {others : ExperimentTable}
    (hmore : ∀ id attempt, sourceAttempt experiments id = some attempt →
      sourceAttempt others id = some attempt) : RowsStore others rows records :=
  Table.Paired.mono h fun _ _ hstores => hstores.mono hmore

theorem create (h : RowsStore experiments rows records) {replayJobId experimentId : String}
    {attempt : AttemptId} (hattempt : sourceAttempt experiments experimentId = some attempt)
    (ownerUserId : String) (mismatchSampleLimit : Nat) (requestedAt : Int) :
    let input := ReplayRecord.requested replayJobId experimentId attempt ownerUserId
      mismatchSampleLimit requestedAt
    RowsStore experiments (Postgres.createReplayVerification rows input).2
      (InMemory.createReplayVerification records input).2 := by
  intro input
  rw [Postgres.createReplayVerification, InMemory.createReplayVerification]
  cases hrecord : records.get? input.replayJobId with
  | none =>
    rw [Table.Paired.get?_none key_eq h hrecord]
    exact Table.Paired.put key_eq h (ReplayRow.stores_inserted hattempt)
  | some existing =>
    obtain ⟨row, hrow, -⟩ := Table.Paired.get?_some key_eq h hrecord
    rw [hrow]
    exact h

theorem read (h : RowsStore experiments rows records) (replayJobId : String)
    (ownerUserId : Option String) :
    Postgres.readReplayVerification experiments rows replayJobId ownerUserId =
      .ok (InMemory.readReplayVerification records replayJobId ownerUserId) := by
  rw [Postgres.readReplayVerification, InMemory.readReplayVerification]
  cases hrecord : records.get? replayJobId with
  | none => rw [Table.Paired.get?_none key_eq h hrecord, Option.filter_none, Option.filter_none]
  | some record =>
    obtain ⟨row, hrow, hstores⟩ := Table.Paired.get?_some key_eq h hrecord
    obtain ⟨attempt, outcome, htagged, hattempt, rfl⟩ := hstores.base
    rw [hrow]
    cases hvisible : ownerUserId.all fun owner => owner.isEmpty || row.ownerUserId == owner with
    | false =>
      rw [Option.filter_some_neg (by simp [hvisible]),
        Option.filter_some_neg (by simp [ReplayRow.base, hvisible])]
    | true =>
      rw [Option.filter_some_pos (by simp [hattempt, hvisible]),
        Option.filter_some_pos (by simp [ReplayRow.base, hvisible])]
      exact congrArg (Except.map some) hstores

theorem claim (h : RowsStore experiments rows records) (claim : ReplayClaim) :
    (Postgres.claimReplayVerification experiments rows claim).1 =
        .ok (InMemory.claimReplayVerification records claim).1 ∧
      RowsStore experiments (Postgres.claimReplayVerification experiments rows claim).2
        (InMemory.claimReplayVerification records claim).2 := by
  rw [Postgres.claimReplayVerification]
  cases hrecord : records.get? claim.replayJobId with
  | none =>
    rw [Table.Paired.get?_none key_eq h hrecord, InMemory.claim_of_none hrecord]
    exact ⟨rfl, h⟩
  | some record =>
    obtain ⟨row, hrow, hstores⟩ := Table.Paired.get?_some key_eq h hrecord
    rw [hrow]
    cases hwaiting : record.waiting claim.now with
    | false =>
      rw [Option.filter_some_neg (by simp [hstores.waiting, hwaiting]),
        InMemory.claim_of_not_waiting hrecord hwaiting]
      exact ⟨rfl, h⟩
    | true =>
      have hclaimed := hstores.claimed claim (ReplayRecord.unsettled_of_waiting hwaiting)
      obtain ⟨attempt, outcome, htagged, hattempt, -⟩ := hstores.base
      rw [Option.filter_some_pos (by simp [hstores.waiting, hwaiting]),
        InMemory.claim_of_waiting hrecord hwaiting]
      refine ⟨?_, Table.Paired.put key_eq h hclaimed⟩
      have hread : (row.claimed claim).replay (some attempt) =
          .ok (record.claimed claim (ReplayRecord.unsettled_of_waiting hwaiting)) := by
        rw [← hattempt]
        exact hclaimed
      dsimp only
      rw [hattempt]
      exact congrArg (Except.map some) hread

theorem complete (h : RowsStore experiments rows records) {completion : ReplayCompletion}
    (hnames : ∀ record, records.get? completion.replayJobId = some record →
      completion.experimentId = record.experimentId ∧
        completion.sourceAttemptId = record.sourceAttemptId) :
    (Postgres.completeReplayVerification rows completion).1 =
        (InMemory.completeReplayVerification records completion).1 ∧
      RowsStore experiments (Postgres.completeReplayVerification rows completion).2
        (InMemory.completeReplayVerification records completion).2 := by
  rw [Postgres.completeReplayVerification]
  cases hrecord : records.get? completion.replayJobId with
  | none =>
    rw [Table.Paired.get?_none key_eq h hrecord,
      InMemory.complete_of_not_held fun record hsome => by cases hrecord.symm.trans hsome]
    exact ⟨rfl, h⟩
  | some record =>
    obtain ⟨row, hrow, hstores⟩ := Table.Paired.get?_some key_eq h hrecord
    obtain ⟨hexperiment, hsource⟩ := hnames record hrecord
    rw [hrow]
    cases hheld : record.heldBy completion with
    | false =>
      rw [Option.filter_some_neg (by simp [hstores.heldBy, hheld]),
        InMemory.complete_of_not_held fun other hother =>
          Option.some.inj (hrecord.symm.trans hother) ▸ hheld]
      exact ⟨rfl, h⟩
    | true =>
      rw [Option.filter_some_pos (by simp [hstores.heldBy, hheld]),
        InMemory.complete_of_held hrecord hheld]
      exact ⟨rfl, Table.Paired.put key_eq h (hstores.completed hexperiment hsource)⟩

/-- The rows are listed as the records are. -/
theorem list (h : RowsStore experiments rows records) (now : Int) (limit : Nat) :
    Postgres.listReplayRows rows now limit =
      Postgres.listReplayVerificationRecovery records.stored now limit := by
  have hshown : rows.rows.map (fun row => (row.createdAt, row.id, row.waiting now)) =
      records.stored.rows.map
        fun record => (record.requestedAt, record.replayJobId, record.waiting now) := by
    rw [ReplayRecordTable.stored, Table.project, List.map_map]
    refine List.forall₂_eq_eq_eq ▸ List.forall₂_map_left_iff.mpr
      (List.forall₂_map_right_iff.mpr (List.Forall₂.imp ?_ h))
    intro row record hstores
    obtain ⟨_, _, _, -, rfl⟩ := hstores.base
    rfl
  have hrows := listed_map (fun row : ReplayRow => (row.createdAt, row.id, row.waiting now)) (·.2.2)
    requestedBefore (·.2.1) rows.rows limit
  have hrecords := listed_map (fun record : StoredReplayVerification =>
    (record.requestedAt, record.replayJobId, record.waiting now)) (·.2.2) requestedBefore (·.2.1)
    records.stored.rows limit
  rw [hshown] at hrows
  exact hrows.trans hrecords.symm

end RowsStore

end Agreement

end Cryptox.Backtesting
