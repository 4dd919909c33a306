import Cryptox.Library.Exclusive
import Cryptox.Backtesting.Repository.Terminal
import Cryptox.Backtesting.Service.Completion

/-!
# What open completions have staged

An experiment becomes visible in the commit that completes its candidate, and a completed row gives
every other writer but one a reason to leave it alone. The exception is a cancellation, which writes
back the row it read. Without one over a completed row, what a call has staged stays new until its
commit: the keys and the row it holds keep the other calls away.
-/
namespace Cryptox.Backtesting

open Cryptox.Library
open Cryptox.Leaderboard

/-- The row as the commit of the experiment leaves it. -/
structure StoredCandidate.Completes (row : StoredCandidate) (experiment : StoredExperiment) :
    Prop where
  owner : experiment.candidateId = row.candidateId
  status : row.status = .completed
  result : row.experimentResultId = some experiment.id
  released : row.activeCompletionClaimToken = none

/-- A step that neither completes a row nor writes over a completed one. -/
def LeavesCompleted (world : World) : Step → Prop
  | .submit candidate .. => world.stored candidate.candidateId = none
  | .cancel copy _ => ∀ candidate ∈ world.stored copy.candidateId, candidate.status ≠ .completed
  | .finalizeCompletion .. => False
  | _ => True

/-- What everybody's operations keep: the experiments, the completed rows, and the rows that the
operation is not about. -/
structure Undisturbed (world later : World) (written : Option String) : Prop where
  experiments : later.repository.experiments = world.repository.experiments
  kept : ∀ candidateId row, world.stored candidateId = some row → row.status = .completed →
    row.activeCompletionClaimToken = none → later.stored candidateId = some row
  old : ∀ candidateId row, later.stored candidateId = some row → row.status = .completed →
    world.stored candidateId = some row
  elsewhere : ∀ candidateId, written ≠ some candidateId →
    later.stored candidateId = world.stored candidateId

namespace Storage

variable {world : World} {step : Step} {row : StoredCandidate}
  {attempt : Option BacktestAttemptAudit} {trades : Option AttemptTrades}

/-- The database lets a worker write over a running or a cancelled candidate only. -/
theorem not_completed_of_fenced {candidateId fenceToken : String} {attemptId : AttemptId}
    {candidate : StoredCandidate} {attempt : BacktestAttemptAudit}
    (h : Fenced postgres world.repository candidateId attemptId fenceToken candidate attempt) :
    candidate.status ≠ .completed := by
  intro hs
  have hwritable := (h.running rfl).2
  rw [hs] at hwritable
  cases hwritable

/-- A completed row that is written over held a claim. -/
theorem claimed_of_write (hleaves : LeavesCompleted world step)
    (hw : Write postgres world.repository step (some row) attempt trades)
    {candidate : StoredCandidate} (hstored : world.stored row.candidateId = some candidate)
    (hs : candidate.status = .completed) : candidate.activeCompletionClaimToken ≠ none := by
  cases hw with
  | @submitted submission =>
    have hnone : world.stored submission.candidateId = none := hleaves
    cases hnone.symm.trans hstored
  | claimed hfound hclaimable =>
    obtain rfl := found_eq hfound hstored
    rcases claimable_status hclaimable with h | h | h <;> cases hs.symm.trans h
  | persisted hfenced | persistedAudit retryAt hfenced | failed hfenced
  | failedAudit kind code error hfenced =>
    obtain rfl := found_eq hfenced.candidate_stored hstored
    exact absurd hs (not_completed_of_fenced hfenced)
  | recovered retrying hfound hrunning =>
    obtain rfl := found_eq hfound hstored
    cases hs.symm.trans hrunning
  | repaired hfound hopen =>
    obtain rfl := found_eq hfound hstored
    have hterminal := hopen.1
    rw [hs] at hterminal
    cases hterminal
  | completionClaimed hfound hdue =>
    obtain rfl := found_eq hfound hstored
    simp [StoredCandidate.completionDue, completing, hs] at hdue
  | completionFinalized => cases hleaves
  | terminalFailureFinalized hfenced hpending =>
    obtain rfl := found_eq hfenced.candidate_stored hstored
    cases hs.symm.trans hpending
  | completionFailed hfenced =>
    obtain rfl := found_eq hfenced.candidate_stored hstored
    rw [hfenced.token]
    exact Option.some_ne_none _
  | @cancelled copy now stored hsame =>
    have hcopy : world.stored copy.candidateId = some candidate := by
      rw [← hsame]
      exact hstored
    exact absurd hs (hleaves candidate hcopy)

/-- No row is completed but by `finalizeCompletion`. -/
theorem not_completed_of_write (hleaves : LeavesCompleted world step)
    (hw : Write postgres world.repository step (some row) attempt trades) :
    row.status ≠ .completed := by
  intro hs
  cases hw with
  | submitted | claimed | persisted | repaired | terminalFailureFinalized | cancelled => cases hs
  | persistedAudit retryAt hfenced hcancelled | failedAudit kind code error hfenced hcancelled =>
    cases hcancelled.symm.trans hs
  | @failed input => cases hr : input.retrying <;> simp [StoredCandidate.workerFailed, hr] at hs
  | recovered retrying => cases retrying <;> cases hs
  | @completionClaimed candidateId claimToken now leaseExpiresAt candidate hstored hdue =>
    have hstatus : candidate.status = .completed := hs
    simp [StoredCandidate.completionDue, completing, hstatus] at hdue
  | completionFinalized => cases hleaves
  | completionFailed =>
    simp only [StoredCandidate.completionFailed] at hs
    split at hs <;> cases hs

theorem row_of_write (hw : Write postgres world.repository step (some row) attempt trades) :
    step.row = some row.candidateId := by
  have htarget := write_row hw
  cases step with
  | tick | read | markDispatchCancelled => cases hw
  | _ => exact congrArg some htarget.symm

theorem undisturbed_next (hleaves : LeavesCompleted world step) :
    Undisturbed world (postgres.next world step) step.row where
  experiments := by
    obtain ⟨_, _, _, -, hwrote⟩ := apply_writes postgres world.repository step
    exact hwrote.experiments
  kept candidateId candidate hstored hs hreleased := by
    rcases stored_next_cases postgres world step candidateId with
      ⟨row, attempt, trades, hw, rfl, -⟩ | hsame
    · exact absurd hreleased (claimed_of_write hleaves hw hstored hs)
    · exact hsame.trans hstored
  old candidateId candidate hlater hs := by
    rcases stored_next_cases postgres world step candidateId with
      ⟨row, attempt, trades, hw, -, hrow⟩ | hsame
    · cases hrow.symm.trans hlater
      exact absurd hs (not_completed_of_write hleaves hw)
    · exact hsame.symm.trans hlater
  elsewhere candidateId hne := by
    rcases stored_next_cases postgres world step candidateId with
      ⟨row, attempt, trades, hw, rfl, -⟩ | hsame
    · exact absurd (row_of_write hw) hne
    · exact hsame

end Storage

/-- What is known of an open unit of work: its experiment and its entry are new, and the row it has
finalized waits for its commit. -/
structure UnitOfWork.Sound (w : CompletionWorld) (unit : UnitOfWork) : Prop where
  found : unit.inserted = false → unit.experiment ∈ w.repository.experiments.rows
  fresh : unit.inserted = true → w.repository.experiments.get? unit.experiment.id = none
  owner : unit.experiment.candidateId = unit.candidate.candidateId
  ranks : ∀ entry ∈ unit.entry, entry.experimentResultId = unit.experiment.id
  unranked : ∀ entry ∈ unit.entry, w.entries.get? entry.id = none ∧
    ∀ other ∈ w.entries.rows, other.experimentResultId ≠ entry.experimentResultId
  completes : ∀ row ∈ unit.row, row.Completes unit.experiment
  pending : ∀ row ∈ unit.row, ∃ before, w.world.stored row.candidateId = some before ∧
    before.status = .processingResult
  closed : unit.point = .finalized → unit.row.isSome

/-- What is known of a call where it waits. -/
structure Call.Sound (w : CompletionWorld) (call : Call) : Prop where
  read : ∀ candidate ∈ call.candidate?, candidate.candidateId = call.candidateId
  found : ∀ experiment ∈ call.existing?, experiment ∈ w.repository.experiments.rows ∧
    experiment.candidateId = call.candidateId
  unit : ∀ unit ∈ call.unit?, unit.Sound w

/-- Nobody but the unit's own call holds its keys and its row. -/
structure UnitOfWork.Apart (w : CompletionWorld) (token : String) (unit : UnitOfWork) : Prop where
  experimentId : unit.inserted = true → w.Free Call.holdsExperimentId token unit.experiment.id
  ranked : ∀ entry ∈ unit.entry, w.Free Call.holdsRanked token entry.experimentResultId
  entryId : ∀ entry ∈ unit.entry, w.Free Call.holdsEntryId token entry.id
  row : ∀ row ∈ unit.row, w.Free Call.holdsRow token row.candidateId

/-- Every experiment has completed its candidate, every completed row and every entry names a
stored experiment, and what the calls have staged is still to come. -/
structure Once (w : CompletionWorld) : Prop where
  completed : ∀ experiment ∈ w.repository.experiments.rows, ∃ row,
    w.world.stored experiment.candidateId = some row ∧ row.Completes experiment
  named : ∀ candidateId row, w.world.stored candidateId = some row → row.status = .completed →
    ∃ experiment ∈ w.repository.experiments.rows, row.Completes experiment
  listed : ∀ entry ∈ w.entries.rows, ∃ experiment ∈ w.repository.experiments.rows,
    experiment.id = entry.experimentResultId
  single : ∀ first ∈ w.entries.rows, ∀ second ∈ w.entries.rows,
    first.experimentResultId = second.experimentResultId → first = second
  calls : ∀ call ∈ w.calls.rows, call.Sound w
  experimentIds : Exclusive (w.calls.holding Call.holdsExperimentId)
  ranked : Exclusive (w.calls.holding Call.holdsRanked)
  entryIds : Exclusive (w.calls.holding Call.holdsEntryId)
  rows : Exclusive (w.calls.holding Call.holdsRow)

namespace CompletionWorld

variable {w : CompletionWorld} {call : Call}

theorem once_start : Once start where
  completed _ h := by cases h
  named _ _ h := by cases h
  listed _ h := by cases h
  single _ h := by cases h
  calls _ h := by cases h
  experimentIds := .of_none fun _ => rfl
  ranked := .of_none fun _ => rfl
  entryIds := .of_none fun _ => rfl
  rows := .of_none fun _ => rfl

section Keys

variable {κ : Type} {holds : Call → Option κ} {key : κ}

theorem not_holding {token : String} (hfree : w.Free holds token key) (other : String)
    (hne : other ≠ token) : w.calls.holding holds other ≠ some key := by
  intro hholding
  rw [Table.holding, Option.bind_eq_some_iff] at hholding
  obtain ⟨found, hget, hkey⟩ := hholding
  have htoken : found.token = other := Table.key_of_get? hget
  exact hfree found (Table.mem_rows_of_get? hget) (htoken ▸ hne) hkey

theorem free_of_holds (h : Exclusive (w.calls.holding holds)) (hcall : call ∈ w.calls.rows)
    (hkey : holds call = some key) : w.Free holds call.token key := by
  intro other hother hne hheld
  have hcall' := Table.holding_of_get? (Table.get?_of_mem_rows hcall) holds
  have hother' := Table.holding_of_get? (Table.get?_of_mem_rows hother) holds
  exact hne (h _ _ key (hother'.trans hheld) (hcall'.trans hkey))

/-- A call goes on with a key of which the others are free. -/
theorem exclusive_put (h : Exclusive (w.calls.holding holds))
    (hfree : ∀ key, holds call = some key → w.Free holds call.token key) :
    Exclusive ((w.calls.put call).holding holds) := by
  rw [Table.holding_put]
  exact h.take fun key hkey other hne => not_holding (hfree key hkey) other hne

/-- Nobody holds a key of which the others are free, once the call itself lets it go. -/
theorem released_put (hfree : w.Free holds call.token key) (hown : holds call ≠ some key) :
    ∀ other ∈ (w.calls.put call).rows, holds other ≠ some key := by
  intro other hother
  rcases Table.mem_rows_put_cases hother with rfl | ⟨hmem, hne⟩
  · exact hown
  · exact hfree other hmem hne

end Keys

section Unit

variable {id : String}

theorem holdsExperimentId_eq_some : call.holdsExperimentId = some id ↔
    ∃ unit, call.unit? = some unit ∧ unit.inserted = true ∧ unit.experiment.id = id := by
  cases hunit : call.unit? with
  | none => simp [Call.holdsExperimentId, Call.stagedExperiment, hunit]
  | some unit =>
    cases hinserted : unit.inserted <;>
      simp [Call.holdsExperimentId, Call.stagedExperiment, hunit, hinserted]

theorem holdsRanked_eq_some : call.holdsRanked = some id ↔
    ∃ unit, call.unit? = some unit ∧ ∃ entry ∈ unit.entry, entry.experimentResultId = id := by
  simp [Call.holdsRanked, Call.stagedEntry, Option.bind_eq_some_iff]

theorem holdsEntryId_eq_some : call.holdsEntryId = some id ↔
    ∃ unit, call.unit? = some unit ∧ ∃ entry ∈ unit.entry, entry.id = id := by
  simp [Call.holdsEntryId, Call.stagedEntry, Option.bind_eq_some_iff]

theorem holdsRow_eq_some : call.holdsRow = some id ↔
    ∃ unit, call.unit? = some unit ∧ ∃ row ∈ unit.row, row.candidateId = id := by
  simp [Call.holdsRow, Option.bind_eq_some_iff]

theorem apart_of_mem (h : Once w) (hcall : call ∈ w.calls.rows) {unit : UnitOfWork}
    (hunit : call.unit? = some unit) : unit.Apart w call.token where
  experimentId hinserted :=
    free_of_holds h.experimentIds hcall (holdsExperimentId_eq_some.mpr ⟨unit, hunit, hinserted, rfl⟩)
  ranked entry hentry :=
    free_of_holds h.ranked hcall (holdsRanked_eq_some.mpr ⟨unit, hunit, entry, hentry, rfl⟩)
  entryId entry hentry :=
    free_of_holds h.entryIds hcall (holdsEntryId_eq_some.mpr ⟨unit, hunit, entry, hentry, rfl⟩)
  row row hrow :=
    free_of_holds h.rows hcall (holdsRow_eq_some.mpr ⟨unit, hunit, row, hrow, rfl⟩)

end Unit

/-- A call begins, or moves on by itself. -/
theorem once_put (h : Once w) (hsound : call.Sound w)
    (hapart : ∀ unit, call.unit? = some unit → unit.Apart w call.token) :
    Once { w with calls := w.calls.put call } where
  completed := h.completed
  named := h.named
  listed := h.listed
  single := h.single
  calls other hother := by
    have hsame : other.Sound w := by
      rcases Table.mem_rows_put hother with rfl | hmem
      · exact hsound
      · exact h.calls other hmem
    exact ⟨hsame.read, hsame.found, fun unit hunit => { hsame.unit unit hunit with }⟩
  experimentIds := exclusive_put h.experimentIds fun key hkey => by
    obtain ⟨unit, hunit, hinserted, rfl⟩ := holdsExperimentId_eq_some.mp hkey
    exact (hapart unit hunit).experimentId hinserted
  ranked := exclusive_put h.ranked fun key hkey => by
    obtain ⟨unit, hunit, entry, hentry, rfl⟩ := holdsRanked_eq_some.mp hkey
    exact (hapart unit hunit).ranked entry hentry
  entryIds := exclusive_put h.entryIds fun key hkey => by
    obtain ⟨unit, hunit, entry, hentry, rfl⟩ := holdsEntryId_eq_some.mp hkey
    exact (hapart unit hunit).entryId entry hentry
  rows := exclusive_put h.rows fun key hkey => by
    obtain ⟨unit, hunit, row, hrow, rfl⟩ := holdsRow_eq_some.mp hkey
    exact (hapart unit hunit).row row hrow

/-- Nobody holds the row that an operation writes. -/
theorem once_operation (h : Once w) {world : World} {written : Option String}
    (hsame : Undisturbed w.world world written)
    (hfree : ∀ candidateId ∈ written, w.Unlocked candidateId) : Once { w with world } := by
  have hexperiments : world.repository.experiments = w.repository.experiments := hsame.experiments
  have hstays : ∀ candidateId row experiment, w.world.stored candidateId = some row →
      row.Completes experiment → world.stored candidateId = some row :=
    fun candidateId row experiment hstored hrow =>
      hsame.kept candidateId row hstored hrow.status hrow.released
  constructor
  case completed =>
    intro experiment hexperiment
    rw [repository, hexperiments] at hexperiment
    obtain ⟨row, hstored, hrow⟩ := h.completed experiment hexperiment
    exact ⟨row, hstays _ _ _ hstored hrow, hrow⟩
  case named =>
    intro candidateId row hstored hs
    rw [repository, hexperiments]
    exact h.named candidateId row (hsame.old candidateId row hstored hs) hs
  case listed =>
    intro entry hentry
    rw [repository, hexperiments]
    exact h.listed entry hentry
  case single => exact h.single
  case calls =>
    intro call hcall
    have hsound := h.calls call hcall
    refine ⟨hsound.read, ?_, ?_⟩
    · intro experiment hexperiment
      rw [repository, hexperiments]
      exact hsound.found experiment hexperiment
    · intro unit hunit
      have hunsound := hsound.unit unit hunit
      refine { hunsound with found := ?_, fresh := ?_, pending := ?_ }
      · rw [repository, hexperiments]
        exact hunsound.found
      · rw [repository, hexperiments]
        exact hunsound.fresh
      · intro row hrow
        obtain ⟨before, hbefore, hs⟩ := hunsound.pending row hrow
        have hne : written ≠ some row.candidateId :=
          fun hwritten => hfree row.candidateId hwritten call hcall
            (holdsRow_eq_some.mpr ⟨unit, hunit, row, hrow, rfl⟩)
        exact ⟨before, (hsame.elsewhere _ hne).trans hbefore, hs⟩
  case experimentIds => exact h.experimentIds
  case ranked => exact h.ranked
  case entryIds => exact h.entryIds
  case rows => exact h.rows

/-- Every entry is still there, under its id and for its experiment. -/
def Traced (entries later : EntryTable) : Prop :=
  ∀ entry ∈ entries.rows, ∃ row ∈ later.rows,
    row.id = entry.id ∧ row.experimentResultId = entry.experimentResultId

theorem traced_refl (entries : EntryTable) : Traced entries entries :=
  fun entry hentry => ⟨entry, hentry, rfl, rfl⟩

/-- A deactivated entry stays where it was. -/
theorem traced_deactivate (entries : EntryTable) (entryId : String) :
    Traced entries (deactivate entries entryId) ∧ Traced (deactivate entries entryId) entries := by
  unfold deactivate
  split
  next found hfound =>
    have hkey : entries.get? found.id = some found := Table.get?_key hfound
    have hput := Table.rows_put_of_get? (v := { found with active := false }) hkey
    constructor
    · intro entry hentry
      rw [hput]
      refine ⟨_, List.mem_map_of_mem hentry, ?_⟩
      by_cases hid : entry.id = found.id
      · obtain rfl := Table.eq_of_key hentry hkey hid
        rw [if_pos rfl]
        exact ⟨rfl, rfl⟩
      · rw [if_neg hid]
        exact ⟨rfl, rfl⟩
    · intro entry hentry
      rcases Table.mem_rows_put hentry with rfl | hmem
      · exact ⟨found, Table.mem_rows_of_get? hfound, rfl, rfl⟩
      · exact ⟨entry, hmem, rfl, rfl⟩
  next => exact ⟨traced_refl entries, traced_refl entries⟩

theorem traced_deactivated (entries : EntryTable) (evicted : Option String) :
    Traced entries (evicted.elim entries (deactivate entries)) ∧
      Traced (evicted.elim entries (deactivate entries)) entries := by
  cases evicted with
  | none => exact ⟨traced_refl entries, traced_refl entries⟩
  | some entryId => exact traced_deactivate entries entryId

section Commit

variable {unit : UnitOfWork} {row : StoredCandidate}

/-- Only what the unit of work has inserted itself can be finalized. -/
theorem inserted_of_row (h : Once w) (hsound : unit.Sound w) (hrow : unit.row = some row) :
    unit.inserted = true := by
  by_contra hfound
  rw [Bool.not_eq_true] at hfound
  obtain ⟨stored, hstored, hcompletes⟩ := h.completed _ (hsound.found hfound)
  obtain ⟨before, hbefore, hs⟩ := hsound.pending row hrow
  rw [(hsound.completes row hrow).owner, hbefore] at hstored
  cases hstored
  cases hs.symm.trans hcompletes.status

theorem experiments_committed (hinserted : unit.inserted = true) (hsound : unit.Sound w) :
    (w.committed unit).repository.experiments.rows =
      w.repository.experiments.rows ++ [unit.experiment] := by
  have hput : (w.committed unit).repository.experiments =
      w.repository.experiments.put unit.experiment := by
    simp [committed, repository, hinserted]
  rw [hput]
  exact Table.rows_put_of_none (hsound.fresh hinserted)

theorem stored_committed (hrow : unit.row = some row) (candidateId : String) :
    (w.committed unit).world.stored candidateId =
      if candidateId = row.candidateId then some row else w.world.stored candidateId := by
  have hput : (w.committed unit).world.repository.candidates =
      w.world.repository.candidates.put row := by
    simp [committed, repository, hrow]
  rw [World.stored, hput]
  exact Table.get?_put _ row candidateId

/-- An entry after the commit is the one of the unit of work, or was there before. -/
theorem mem_entries_committed {entry : LeaderboardEntry}
    (h : entry ∈ (w.committed unit).entries.rows) :
    unit.entry = some entry ∨ ∃ old ∈ w.entries.rows,
      old.id = entry.id ∧ old.experimentResultId = entry.experimentResultId := by
  have hback := (traced_deactivated w.entries unit.deactivated).2
  change entry ∈ ((unit.deactivated.elim w.entries (deactivate w.entries)).putOption
    unit.entry).rows at h
  cases hentry : unit.entry with
  | none =>
    rw [hentry] at h
    exact .inr (hback entry h)
  | some new =>
    rw [hentry] at h
    rcases Table.mem_rows_put h with rfl | hmem
    · exact .inl rfl
    · exact .inr (hback entry hmem)

/-- What the commit shows is nobody else's. -/
structure Released (w : CompletionWorld) (unit : UnitOfWork) : Prop where
  experimentId : unit.inserted = true →
    ∀ call ∈ w.calls.rows, call.holdsExperimentId ≠ some unit.experiment.id
  ranked : ∀ entry ∈ unit.entry,
    ∀ call ∈ w.calls.rows, call.holdsRanked ≠ some entry.experimentResultId
  entryId : ∀ entry ∈ unit.entry, ∀ call ∈ w.calls.rows, call.holdsEntryId ≠ some entry.id
  row : ∀ row ∈ unit.row, w.Unlocked row.candidateId

/-- What another call has staged is still new after the commit. -/
theorem sound_committed (hinserted : unit.inserted = true) (hsound : unit.Sound w)
    (hrow : unit.row = some row) (hreleased : Released w unit) (hcall : call ∈ w.calls.rows)
    {other : UnitOfWork} (hunit : call.unit? = some other) (hother : other.Sound w) :
    other.Sound (w.committed unit) := by
  have hrows := experiments_committed hinserted hsound
  refine { hother with found := ?_, fresh := ?_, unranked := ?_, pending := ?_ }
  · intro hfound
    rw [hrows]
    exact List.mem_append_left _ (hother.found hfound)
  · intro hnew
    cases hget : (w.committed unit).repository.experiments.get? other.experiment.id with
    | none => rfl
    | some stored =>
      exfalso
      have hid : stored.id = other.experiment.id := Table.key_of_get? hget
      have hmem := Table.mem_rows_of_get? hget
      rw [hrows, List.mem_append, List.mem_singleton] at hmem
      rcases hmem with hold | rfl
      · have hsome := Table.get?_of_mem_rows hold
        rw [hid, hother.fresh hnew] at hsome
        cases hsome
      · have hheld := holdsExperimentId_eq_some.mpr ⟨other, hunit, hnew, rfl⟩
        exact hreleased.experimentId hinserted call hcall (hid ▸ hheld)
  · intro entry hentry
    obtain ⟨hfree, hunranked⟩ := hother.unranked entry hentry
    constructor
    · cases hget : (w.committed unit).entries.get? entry.id with
      | none => rfl
      | some stored =>
        exfalso
        have hid : stored.id = entry.id := Table.key_of_get? hget
        rcases mem_entries_committed (Table.mem_rows_of_get? hget) with
          hnew | ⟨old, hold, holdId, -⟩
        · have hheld := holdsEntryId_eq_some.mpr ⟨other, hunit, entry, hentry, rfl⟩
          exact hreleased.entryId stored hnew call hcall (hid ▸ hheld)
        · have hsome := Table.get?_of_mem_rows hold
          rw [holdId, hid, hfree] at hsome
          cases hsome
    · intro stored hstored hsame
      rcases mem_entries_committed hstored with hnew | ⟨old, hold, -, holdResult⟩
      · have hheld := holdsRanked_eq_some.mpr ⟨other, hunit, entry, hentry, rfl⟩
        exact hreleased.ranked stored hnew call hcall (hsame ▸ hheld)
      · exact hunranked old hold (holdResult.trans hsame)
  · intro finalized hfinalized
    obtain ⟨before, hbefore, hs⟩ := hother.pending finalized hfinalized
    have hne : finalized.candidateId ≠ row.candidateId := by
      intro hsame
      have hheld := holdsRow_eq_some.mpr ⟨other, hunit, finalized, hfinalized, rfl⟩
      exact hreleased.row row hrow call hcall (hsame ▸ hheld)
    exact ⟨before, by rw [stored_committed hrow, if_neg hne, hbefore], hs⟩

/-- A finalized unit of work is committed, and its call has let go. -/
theorem once_commit (h : Once w) (hsound : unit.Sound w) (hrow : unit.row = some row)
    (hreleased : Released w unit) : Once (w.committed unit) := by
  have hinserted := inserted_of_row h hsound hrow
  have hrows := experiments_committed hinserted hsound
  have hstored := stored_committed (w := w) hrow
  have hcompletes := hsound.completes row hrow
  have hgrows : ∀ experiment ∈ w.repository.experiments.rows,
      experiment ∈ (w.committed unit).repository.experiments.rows := by
    intro experiment hexperiment
    rw [hrows]
    exact List.mem_append_left _ hexperiment
  have hnew : unit.experiment ∈ (w.committed unit).repository.experiments.rows := by
    rw [hrows]
    exact List.mem_append_right _ (List.mem_singleton_self _)
  constructor
  case completed =>
    intro experiment hexperiment
    rw [hrows, List.mem_append, List.mem_singleton] at hexperiment
    rcases hexperiment with hold | rfl
    · obtain ⟨found, hfound, hdone⟩ := h.completed experiment hold
      have hne : experiment.candidateId ≠ row.candidateId := by
        intro hsame
        obtain ⟨before, hbefore, hs⟩ := hsound.pending row hrow
        rw [hsame, hbefore] at hfound
        cases hfound
        cases hs.symm.trans hdone.status
      exact ⟨found, by rw [hstored, if_neg hne, hfound], hdone⟩
    · exact ⟨row, by rw [hstored, if_pos hcompletes.owner], hcompletes⟩
  case named =>
    intro candidateId found hfound hs
    rw [hstored] at hfound
    split at hfound
    · cases hfound
      exact ⟨unit.experiment, hnew, hcompletes⟩
    · obtain ⟨experiment, hexperiment, hdone⟩ := h.named candidateId found hfound hs
      exact ⟨experiment, hgrows experiment hexperiment, hdone⟩
  case listed =>
    intro entry hentry
    rcases mem_entries_committed hentry with hadded | ⟨old, hold, -, hresult⟩
    · exact ⟨unit.experiment, hnew, (hsound.ranks entry hadded).symm⟩
    · obtain ⟨experiment, hexperiment, hid⟩ := h.listed old hold
      exact ⟨experiment, hgrows experiment hexperiment, hid.trans hresult⟩
  case single =>
    intro first hfirst second hsecond hsame
    rcases mem_entries_committed hfirst with hadded | ⟨old, hold, hid, hresult⟩ <;>
      rcases mem_entries_committed hsecond with hadded' | ⟨old', hold', hid', hresult'⟩
    · exact Option.some.inj (hadded.symm.trans hadded')
    · exact absurd (hresult'.trans hsame.symm) ((hsound.unranked first hadded).2 old' hold')
    · exact absurd (hresult.trans hsame) ((hsound.unranked second hadded').2 old hold)
    · have holds : old = old' := h.single old hold old' hold'
        ((hresult.trans hsame).trans hresult'.symm)
      have hids : first.id = second.id := by rw [← hid, ← hid', holds]
      have hget := Table.get?_of_mem_rows hfirst
      rw [hids, Table.get?_of_mem_rows hsecond] at hget
      exact (Option.some.inj hget).symm
  case calls =>
    intro call hcall
    have hother := h.calls call hcall
    refine ⟨hother.read, ?_, ?_⟩
    · intro experiment hexperiment
      obtain ⟨hmem, howner⟩ := hother.found experiment hexperiment
      exact ⟨hgrows experiment hmem, howner⟩
    · intro other hunit
      exact sound_committed hinserted hsound hrow hreleased hcall hunit (hother.unit other hunit)
  case experimentIds => exact h.experimentIds
  case ranked => exact h.ranked
  case entryIds => exact h.entryIds
  case rows => exact h.rows

end Commit

end CompletionWorld

end Cryptox.Backtesting
