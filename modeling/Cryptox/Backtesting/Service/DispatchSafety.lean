import Cryptox.Library.Simulation
import Cryptox.Backtesting.Service.Dispatching

/-!
# No submission is lost on its way to the queue

The dispatches are the letters of an outbox, and the calls of `dispatchOne` its couriers.
-/
namespace Cryptox.Backtesting

open Cryptox.Library

/-- What an operation other than a submission does to the dispatches. -/
inductive DispatchWrite (before : Table BacktestDispatch.jobId) : Table BacktestDispatch.jobId → Prop
  | same : DispatchWrite before before
  | again (dispatch : BacktestDispatch) (now : Int) (error : String)
      (stored : before.get? dispatch.jobId = some dispatch) (live : dispatch.state ≠ .cancelled) :
      DispatchWrite before (before.put (dispatch.again now error))
  | cancelled (dispatch : BacktestDispatch) (now : Int)
      (stored : before.get? dispatch.jobId = some dispatch) :
      DispatchWrite before (before.put { dispatch with state := .cancelled, updatedAt := now })

namespace DispatchWrite

theorem of_eq {before after : Table BacktestDispatch.jobId} (h : after = before) :
    DispatchWrite before after := h ▸ same

end DispatchWrite

section Operations

variable (storage : Storage) (state : RepositoryState)

theorem fencedWrite_dispatches (copy : StoredCandidate) (claimToken : String) (now : Int)
    (allowed : CandidateStatus → Bool) (write : StoredCandidate → StoredCandidate) :
    (state.fencedWrite copy claimToken now allowed write).1.dispatches = state.dispatches := by
  unfold RepositoryState.fencedWrite
  split
  · split <;> rfl
  · rfl

theorem failRunning_dispatches (candidate : StoredCandidate)
    (running : Option BacktestAttemptAudit) (now : Int) (error : String) :
    (state.failRunning candidate running now error).dispatches = state.dispatches := by
  obtain ⟨attempts, h⟩ := failRunning_parts state candidate running now error
  rw [h]

theorem claimWorkerAttempt_dispatches (input : WorkerClaimInput) :
    (storage.claimWorkerAttempt state input).1.dispatches = state.dispatches := by
  cases storage with
  | inMemory =>
    simp only [Storage.claimWorkerAttempt, InMemory.claimWorkerAttempt]
    split
    · rfl
    · split <;> rfl
  | postgres =>
    simp only [Storage.claimWorkerAttempt, Postgres.claimWorkerAttempt]
    split
    · rfl
    · split
      · split
        · rfl
        · split <;> rfl
      · rfl

theorem persistWorkerSuccess_dispatches (input : WorkerSuccessInput) :
    (storage.persistWorkerSuccess state input).1.dispatches = state.dispatches := by
  cases storage with
  | inMemory =>
    simp only [Storage.persistWorkerSuccess, InMemory.persistWorkerSuccess]
    split
    · split <;> rfl
    · rfl
  | postgres =>
    simp only [Storage.persistWorkerSuccess, Postgres.persistWorkerSuccess]
    split
    · rfl
    next candidate attempt hfenced =>
      split
      · rfl
      next inserted hinserted =>
        unfold Postgres.insertTrades at hinserted
        split at hinserted
        · cases hinserted
          rfl
        · simp only [bind_eq_ok, pure_eq_ok] at hinserted
          obtain ⟨rows, -, rfl⟩ := hinserted
          rfl

theorem failWorkerAttempt_dispatches (input : WorkerFailureInput) :
    (storage.failWorkerAttempt state input).1.dispatches = state.dispatches := by
  cases storage with
  | inMemory =>
    simp only [Storage.failWorkerAttempt, InMemory.failWorkerAttempt]
    split
    · split <;> rfl
    · rfl
  | postgres =>
    simp only [Storage.failWorkerAttempt, Postgres.failWorkerAttempt]
    split <;> rfl

theorem repairTerminalQueueFailure_dispatches (candidateId error : String) (now : Int) :
    (storage.repairTerminalQueueFailure state candidateId error now).1.dispatches =
      state.dispatches := by
  cases storage with
  | inMemory =>
    simp only [Storage.repairTerminalQueueFailure, InMemory.repairTerminalQueueFailure]
    split
    · rfl
    · split
      · rfl
      · exact failRunning_dispatches state _ _ _ _
  | postgres =>
    simp only [Storage.repairTerminalQueueFailure, Postgres.repairTerminalQueueFailure]
    split
    · rfl
    · split
      · rfl
      · split
        · exact failRunning_dispatches state _ _ _ _
        · exact failRunning_dispatches state _ _ _ _

theorem claimCompletion_dispatches (candidateId claimToken : String) (now leaseExpiresAt : Int) :
    (storage.claimCompletion state candidateId claimToken now leaseExpiresAt).1.dispatches =
      state.dispatches := by
  cases storage <;>
  · simp only [Storage.claimCompletion, InMemory.claimCompletion, Postgres.claimCompletion]
    split
    · rfl
    · split <;> rfl

theorem updateCandidate_dispatches (candidate : StoredCandidate) :
    (storage.updateCandidate state candidate).dispatches = state.dispatches := by
  cases storage with
  | inMemory => rfl
  | postgres =>
    simp only [Storage.updateCandidate, Postgres.updateCandidate]
    split <;> rfl

theorem recoverAbandonedAttempt_write (candidateId : String) (now : Int) (error : String) :
    DispatchWrite state.dispatches
      (storage.recoverAbandonedAttempt state candidateId now error).1.dispatches := by
  by_cases habandoned : ∃ candidate, state.candidates.get? candidateId = some candidate ∧
      candidate.abandoned now = true
  · obtain ⟨candidate, hstored, habandoned⟩ := habandoned
    obtain ⟨updated, hsame, hdispatches⟩ :=
      recoverAbandonedAttempt_dispatches storage error hstored habandoned
    rw [hdispatches, ← hsame]
    split
    · unfold Storage.redispatch
      split
      next => exact .same
      next dispatch hfound =>
        split
        next => exact .same
        next hlive => exact .again dispatch now error (Storage.stored_of_dispatchOf hfound) hlive
    · exact .same
  · refine .of_eq ?_
    cases storage <;>
    · simp only [Storage.recoverAbandonedAttempt, InMemory.recoverAbandonedAttempt,
        Postgres.recoverAbandonedAttempt]
      split
      next => rfl
      next candidate hstored =>
        rw [if_neg fun hguard =>
          habandoned ⟨candidate, hstored, StoredCandidate.abandoned_iff.mpr hguard⟩]

theorem markDispatchCancelled_write (jobId : String) (now : Int) :
    DispatchWrite state.dispatches
      (storage.markDispatchCancelled state jobId now).dispatches := by
  cases storage <;>
  · simp only [Storage.markDispatchCancelled, InMemory.markDispatchCancelled,
      Postgres.markDispatchCancelled]
    split
    next => exact .same
    next dispatch hget => exact .cancelled dispatch now (Table.get?_key hget)

theorem apply_dispatches {step : Step} (h : step.isSubmit = false) :
    DispatchWrite state.dispatches (storage.apply state step).dispatches := by
  cases step with
  | submit => cases h
  | tick | read => exact .same
  | claimWorkerAttempt input => exact .of_eq (claimWorkerAttempt_dispatches storage state input)
  | persistWorkerSuccess input => exact .of_eq (persistWorkerSuccess_dispatches storage state input)
  | failWorkerAttempt input => exact .of_eq (failWorkerAttempt_dispatches storage state input)
  | recoverAbandonedAttempt candidateId now error =>
    exact recoverAbandonedAttempt_write storage state candidateId now error
  | repairTerminalQueueFailure candidateId error now =>
    exact .of_eq (repairTerminalQueueFailure_dispatches storage state candidateId error now)
  | claimCompletion candidateId claimToken now leaseExpiresAt =>
    exact .of_eq (claimCompletion_dispatches storage state candidateId claimToken now leaseExpiresAt)
  | finalizeCompletion | finalizeTerminalFailure | failCompletion =>
    cases storage <;> exact .of_eq (fencedWrite_dispatches ..)
  | cancel copy now => exact .of_eq (updateCandidate_dispatches storage state (copy.cancelledAt now))
  | markDispatchCancelled jobId now => exact markDispatchCancelled_write storage state jobId now

/-- A submission stores its candidate and its dispatch, or neither. -/
theorem submit_dispatches (candidate : StoredCandidate) (dispatch : BacktestDispatch)
    (key : Option String) :
    let later := storage.apply state (.submit candidate dispatch key)
    later.candidates = state.candidates ∧ later.dispatches = state.dispatches ∨
      (∃ row, row.candidateId = candidate.candidateId ∧
        later.candidates = state.candidates.put row) ∧
        later.dispatches = state.dispatches.put dispatch := by
  cases storage with
  | inMemory =>
    simp only [Storage.apply, Storage.createQueuedSubmission, InMemory.createQueuedSubmission]
    split
    · exact .inl ⟨rfl, rfl⟩
    · split
      · exact .inl ⟨rfl, rfl⟩
      · exact .inr ⟨⟨candidate.submitted, rfl, rfl⟩, rfl⟩
  | postgres =>
    simp only [Storage.apply, Storage.createQueuedSubmission, Postgres.createQueuedSubmission]
    split
    · exact .inl ⟨rfl, rfl⟩
    · split
      · exact .inl ⟨rfl, rfl⟩
      · cases key <;>
          exact .inr ⟨⟨Postgres.insertedRow candidate.submitted, rfl, rfl⟩, rfl⟩

end Operations

/-- What the calls and the submissions rest on beside the outbox. -/
structure DispatchInv (w : DispatchWorld) : Prop where
  /-- A candidate and its dispatch are stored together. -/
  paired : ∀ candidateId, (w.world.stored candidateId).isSome ↔ (w.dispatch? candidateId).isSome
  copied : ∀ copy ∈ w.world.copies, (w.world.stored copy.candidateId).isSome
  owned : ∀ jobId dispatch, w.dispatch? jobId = some dispatch →
    dispatch.candidateId = jobId ∧ dispatch.job.valid = true
  marked : ∀ callId dispatch, w.phase callId = some (.accepted dispatch) → dispatch.job ∈ w.taken

namespace DispatchWorld

variable {w : DispatchWorld} {storage : Storage} {callId : Nat}

@[simp] theorem phase_setPhase_self (phase : DispatchPhase) :
    (w.setPhase callId phase).phase callId = some phase := by
  rw [DispatchWorld.phase, setPhase, Table.get?_put_of_eq _ rfl, Option.map_some]

@[simp] theorem phase_setPhase_of_ne {other : Nat} (h : other ≠ callId) (phase : DispatchPhase) :
    (w.setPhase callId phase).phase other = w.phase other := by
  rw [DispatchWorld.phase, setPhase, Table.get?_put_of_ne _ h]
  rfl

section Box

theorem letters_box (jobId : String) :
    w.box.letters jobId = (w.dispatch? jobId).map BacktestDispatch.letter := rfl

theorem carried_box (callId : Nat) :
    w.box.carried callId = (w.phase callId).bind DispatchPhase.load := rfl

theorem box_setPhase (phase : DispatchPhase) :
    (w.setPhase callId phase).box = w.box.carry callId phase.load := by
  refine Outbox.ext rfl (funext fun other => ?_) rfl rfl
  by_cases h : other = callId
  · subst h
    rw [Outbox.carried_carry_self, carried_box, phase_setPhase_self, Option.bind_some]
  · rw [Outbox.carried_carry_of_ne h, carried_box, carried_box, phase_setPhase_of_ne h]

theorem box_take (job : BacktestQueueJob) : (w.take job).box = w.box.arrive job.jobId job := by
  refine Outbox.ext rfl rfl (funext fun jobId => ?_) rfl
  have hkept : w.box.kept = w.queue.get? := rfl
  have hadded : (w.take job).box.kept = (JobTable.add w.queue job).get? := rfl
  rw [hadded, JobTable.add]
  by_cases hjob : jobId = job.jobId
  · subst hjob
    rw [Outbox.kept_arrive_self, hkept]
    split
    next hsome =>
      obtain ⟨before, hbefore⟩ := Option.isSome_iff_exists.mp hsome
      rw [hbefore, Option.getD_some]
    next hnone =>
      rw [Table.get?_put_of_eq _ rfl, Option.not_isSome_iff_eq_none.mp hnone, Option.getD_none]
  · rw [Outbox.kept_arrive_of_ne hjob, hkept]
    split
    · rfl
    · exact Table.get?_put_of_ne _ hjob

theorem box_remove (jobId : String) :
    ({ w with queue := w.queue.filter fun job => job.jobId != jobId } : DispatchWorld).box =
      w.box.forget jobId := by
  refine Outbox.ext rfl rfl (funext fun other => ?_) rfl
  show (w.queue.filter fun job => job.jobId != jobId).get? other = (w.box.forget jobId).kept other
  rw [Table.get?_filter]
  by_cases h : other = jobId
  · subst h
    rw [Outbox.kept_forget_self, Option.filter_eq_none_iff]
    intro job hjob
    have hkey := @Table.key_of_get? _ _ _ _ _ _ _ hjob
    simp [hkey]
  · rw [Outbox.kept_forget_of_ne h]
    cases hjob : w.queue.get? other with
    | none => exact hjob.symm
    | some job =>
      have hkey : job.jobId = other := Table.key_of_get? hjob
      rw [Option.filter_some_pos (by simpa [hkey] using h)]
      exact hjob.symm

/-- A dispatch is written over, its id kept. -/
theorem box_put {dispatch written : BacktestDispatch} {world : World} {f : Letter BacktestQueueJob →
    Letter BacktestQueueJob} (hstored : w.dispatch? dispatch.jobId = some dispatch)
    (hkey : written.jobId = dispatch.jobId) (hletter : written.letter = f dispatch.letter)
    (hworld : world.repository.dispatches = w.repository.dispatches.put written) :
    ({ w with world } : DispatchWorld).box = w.box.rewrite dispatch.jobId f := by
  refine Outbox.ext (funext fun jobId => ?_) rfl rfl rfl
  show (world.repository.dispatches.get? jobId).map BacktestDispatch.letter = _
  rw [hworld]
  by_cases h : jobId = dispatch.jobId
  · subst h
    have hbox : w.box.letters dispatch.jobId = some dispatch.letter := by
      rw [letters_box, hstored, Option.map_some]
    rw [Outbox.letters_rewrite_self, hbox, Table.get?_put_of_eq _ hkey.symm, Option.map_some,
      Option.map_some, hletter]
  · rw [Outbox.letters_rewrite_of_ne h, Table.get?_put_of_ne _ (hkey ▸ h)]
    rfl

theorem box_congr {world : World} (h : world.repository.dispatches = w.repository.dispatches) :
    ({ w with world } : DispatchWorld).box = w.box := by
  refine Outbox.ext (funext fun jobId => ?_) rfl rfl rfl
  show (world.repository.dispatches.get? jobId).map BacktestDispatch.letter = _
  rw [h]
  rfl

end Box

end DispatchWorld

namespace BacktestDispatch

variable {dispatch : BacktestDispatch}

theorem standing_ne_withdrawn (h : dispatch.state ≠ .cancelled) :
    dispatch.letter.standing ≠ .withdrawn := by
  intro hstanding
  apply h
  cases hstate : dispatch.state <;> simp_all [letter, DispatchState.standing]

theorem letter_mark (standing : Standing) (h : dispatch.state ≠ .cancelled) :
    dispatch.letter.mark standing = ⟨dispatch.job, standing⟩ := by
  rw [Letter.mark, if_neg (standing_ne_withdrawn h)]
  rfl

theorem letter_sent (h : dispatch.state ≠ .cancelled) (now : Int) :
    (dispatch.sent now).letter = dispatch.letter.mark .sent := (letter_mark .sent h).symm

theorem letter_unsent (h : dispatch.state ≠ .cancelled) (error : String) (now : Int) :
    (dispatch.unsent error now).letter = dispatch.letter.mark .waiting :=
  (letter_mark .waiting h).symm

theorem letter_again (h : dispatch.state ≠ .cancelled) (now : Int) (error : String) :
    (dispatch.again now error).letter = dispatch.letter.mark .waiting :=
  (letter_mark .waiting h).symm

end BacktestDispatch

/-- The dispatches of both tables have the same jobs. -/
def SameJobs (before after : Table BacktestDispatch.jobId) : Prop :=
  ∀ jobId, (after.get? jobId).map BacktestDispatch.job = (before.get? jobId).map BacktestDispatch.job

namespace SameJobs

variable {before after : Table BacktestDispatch.jobId}

theorem put {dispatch written : BacktestDispatch}
    (hstored : before.get? dispatch.jobId = some dispatch) (hjob : written.job = dispatch.job) :
    SameJobs before (before.put written) := by
  intro jobId
  have hkey : written.jobId = dispatch.jobId := congrArg BacktestQueueJob.jobId hjob
  by_cases h : jobId = dispatch.jobId
  · subst h
    rw [Table.get?_put_of_eq _ hkey.symm, hstored, Option.map_some, Option.map_some, hjob]
  · rw [Table.get?_put_of_ne _ (hkey ▸ h)]

theorem of_write (h : DispatchWrite before after) : SameJobs before after := by
  cases h with
  | same => exact fun _ => rfl
  | again dispatch now error hstored => exact put hstored rfl
  | cancelled dispatch now hstored => exact put hstored rfl

theorem isSome (h : SameJobs before after) (jobId : String) :
    (after.get? jobId).isSome = (before.get? jobId).isSome := by
  rw [← Option.isSome_map (f := BacktestDispatch.job), h jobId, Option.isSome_map]

theorem found (h : SameJobs before after) {jobId : String} {dispatch : BacktestDispatch}
    (hget : after.get? jobId = some dispatch) :
    ∃ earlier, before.get? jobId = some earlier ∧ dispatch.job = earlier.job := by
  have hsame := h jobId
  rw [hget, Option.map_some, eq_comm, Option.map_eq_some_iff] at hsame
  obtain ⟨earlier, hearlier, hjob⟩ := hsame
  exact ⟨earlier, hearlier, hjob.symm⟩

end SameJobs

/-- What marking a dispatch does: nothing to one that is missing or cancelled. -/
theorem markDispatchDispatched_cases (storage : Storage) (state : RepositoryState) (jobId : String)
    (now : Int) : storage.markDispatchDispatched state jobId now = state ∨
      ∃ dispatch, state.dispatches.get? jobId = some dispatch ∧ dispatch.state ≠ .cancelled ∧
        storage.markDispatchDispatched state jobId now = state.putDispatch (dispatch.sent now) := by
  cases storage <;>
  · simp only [Storage.markDispatchDispatched, InMemory.markDispatchDispatched,
      Postgres.markDispatchDispatched]
    split
    next => exact .inl rfl
    next dispatch hget =>
      split
      next => exact .inl rfl
      next hlive => exact .inr ⟨dispatch, hget, hlive, rfl⟩

theorem markDispatchFailed_cases (storage : Storage) (state : RepositoryState)
    (jobId error : String) (now : Int) : storage.markDispatchFailed state jobId error now = state ∨
      ∃ dispatch, state.dispatches.get? jobId = some dispatch ∧ dispatch.state ≠ .cancelled ∧
        storage.markDispatchFailed state jobId error now =
          state.putDispatch (dispatch.unsent error now) := by
  cases storage <;>
  · simp only [Storage.markDispatchFailed, InMemory.markDispatchFailed, Postgres.markDispatchFailed]
    split
    next => exact .inl rfl
    next dispatch hget =>
      split
      next => exact .inl rfl
      next hlive => exact .inr ⟨dispatch, hget, hlive, rfl⟩

abbrev DispatchBox := Outbox String Nat BacktestQueueJob

/-- What events lead the outbox to. -/
def Leads : DispatchBox → DispatchBox → Prop := (Outbox.system String Nat BacktestQueueJob).Reaches

theorem Leads.refl (box : DispatchBox) : Leads box box := GuardedSystem.Reaches.refl _ box

theorem Leads.single {box : DispatchBox} (event : OutboxEvent String Nat BacktestQueueJob)
    (h : box.enabled event) : Leads box (box.next event) := GuardedSystem.Reaches.single event h

namespace DispatchWorld

variable {w : DispatchWorld} {storage : Storage} {callId : Nat} {dispatch : BacktestDispatch}

section Steps

theorem box_write {world : World}
    (h : DispatchWrite w.repository.dispatches world.repository.dispatches) :
    Leads w.box ({ w with world } : DispatchWorld).box := by
  generalize hafter : world.repository.dispatches = after at h
  cases h with
  | same =>
    rw [box_congr hafter]
    exact .refl _
  | again dispatch now error hstored hlive =>
    have hkey : (dispatch.again now error).jobId = dispatch.jobId := rfl
    rw [box_put hstored hkey (BacktestDispatch.letter_again hlive now error) hafter]
    exact .single (.postpone dispatch.jobId) trivial
  | cancelled dispatch now hstored =>
    have hkey : ({ dispatch with state := .cancelled, updatedAt := now } : BacktestDispatch).jobId =
      dispatch.jobId := rfl
    rw [box_put (f := Letter.withdraw) hstored hkey rfl hafter]
    exact .single (.withdraw dispatch.jobId) trivial

/-- A new dispatch of a free id is posted. -/
theorem box_submit {world : World} (hstate : dispatch.state = .pending)
    (hnew : w.dispatch? dispatch.jobId = none)
    (hafter : world.repository.dispatches = w.repository.dispatches.put dispatch) :
    Leads w.box ({ w with world } : DispatchWorld).box := by
  have hposted : ({ w with world } : DispatchWorld).box =
      w.box.write dispatch.jobId ⟨dispatch.job, .waiting⟩ := by
    refine Outbox.ext (funext fun jobId => ?_) rfl rfl rfl
    show (world.repository.dispatches.get? jobId).map BacktestDispatch.letter = _
    rw [hafter]
    by_cases h : jobId = dispatch.jobId
    · subst h
      rw [Outbox.letters_write_self, Table.get?_put_of_eq _ rfl, Option.map_some,
        BacktestDispatch.letter, hstate]
      rfl
    · rw [Outbox.letters_write_of_ne h, Table.get?_put_of_ne _ h]
      rfl
  rw [hposted]
  refine .single (.post dispatch.jobId dispatch.job) ?_
  show w.box.letters dispatch.jobId = none
  rw [letters_box, hnew, Option.map_none]

/-- A call that carries nothing goes on to carry nothing. -/
theorem box_idle {before after : DispatchPhase} (hphase : w.phase callId = some before)
    (hbefore : before.load = none) (hafter : after.load = none) :
    (w.setPhase callId after).box = w.box := by
  rw [box_setPhase, hafter]
  refine Outbox.carry_eq_self ?_
  rw [carried_box, hphase, Option.bind_some, hbefore]

theorem box_read {jobId : String} (hphase : w.phase callId = none) :
    Leads w.box (w.readStep callId jobId).box := by
  have hcarried : w.box.carried callId = none := by
    rw [carried_box, hphase]
    rfl
  unfold readStep
  split
  next => exact .refl _
  next found hfound =>
    rw [box_setPhase]
    split
    next hpending =>
      have hletter : w.box.letters jobId = some ⟨found.job, .waiting⟩ := by
        rw [letters_box, hfound, Option.map_some, BacktestDispatch.letter, hpending]
        rfl
      have hcollect : w.box.next (.collect callId jobId) =
          w.box.carry callId (some (jobId, found.job)) := by
        rw [Outbox.next, hletter, Option.map_some]
      have hload : (DispatchPhase.holding found).load = some (jobId, found.job) := by
        have hkey : found.jobId = jobId := Table.key_of_get? hfound
        rw [DispatchPhase.load, hkey]
      rw [hload, ← hcollect]
      exact .single (.collect callId jobId) ⟨hcarried, found.job, hletter⟩
    next =>
      have hidle : (DispatchPhase.returned (.ok false)).load = none := rfl
      rw [hidle, Outbox.carry_eq_self hcarried]
      exact .refl _

theorem box_enqueue {answer : PortAnswer} (hphase : w.phase callId = some (.holding dispatch)) :
    Leads w.box (w.enqueueStep callId dispatch answer).box := by
  have hcarried : w.box.carried callId = some (dispatch.jobId, dispatch.job) := by
    rw [carried_box, hphase]
    rfl
  have hleave : ∀ after : DispatchPhase, after.load = none →
      Leads w.box (w.setPhase callId after).box := by
    intro after hafter
    rw [box_setPhase, hafter]
    exact .single (.leave callId) trivial
  have hdeliver : ∀ after : DispatchPhase, after.load = none →
      Leads w.box ((w.take dispatch.job).setPhase callId after).box := by
    intro after hafter
    have hnext : w.box.next (.deliver callId) =
        (w.box.arrive dispatch.jobId dispatch.job).carry callId none := by
      rw [Outbox.next, hcarried]
    rw [box_setPhase, hafter, box_take, ← BacktestDispatch.jobId, ← hnext]
    refine .single (.deliver callId) ?_
    show (w.box.carried callId).isSome
    rw [hcarried]
    rfl
  unfold enqueueStep
  split
  · exact hleave _ rfl
  · cases answer with
    | done => exact hdeliver _ rfl
    | failed error => exact hleave _ rfl
    | lost error => exact hdeliver _ rfl

/-- A mark is written, or is not, and the call that asked for it carries nothing. -/
theorem box_marked (standing : Standing) (jobId : String) {before after : DispatchPhase}
    {repository : RepositoryState} {lands : Bool} (hphase : w.phase callId = some before)
    (hbefore : before.load = none) (hafter : after.load = none)
    (hmarked : repository = w.repository ∨ ∃ found written, w.dispatch? jobId = some found ∧
      written.jobId = found.jobId ∧ written.letter = found.letter.mark standing ∧
        repository = w.repository.putDispatch written)
    (hmark : ∀ found, w.dispatch? jobId = some found →
      Leads w.box (w.box.rewrite found.jobId (Letter.mark standing))) :
    Leads w.box ((if lands then w.setRepository repository else w).setPhase callId after).box := by
  cases lands with
  | false =>
    rw [if_neg Bool.false_ne_true, box_idle hphase hbefore hafter]
    exact .refl _
  | true =>
    rw [if_pos rfl]
    have hphase' : (w.setRepository repository).phase callId = some before := hphase
    rw [box_idle hphase' hbefore hafter]
    rcases hmarked with rfl | ⟨found, written, hfound, hkey, hletter, rfl⟩
    · exact .refl _
    · have hput : (w.setRepository (w.repository.putDispatch written)).box =
          w.box.rewrite found.jobId (Letter.mark standing) :=
        box_put (Table.get?_key hfound) hkey hletter rfl
      rw [hput]
      exact hmark found hfound

theorem box_mark {now : Int} {answer : PortAnswer} (h : DispatchInv w)
    (hphase : w.phase callId = some (.accepted dispatch)) :
    Leads w.box (w.markStep storage callId dispatch now answer).box := by
  unfold markStep
  refine box_marked .sent dispatch.jobId hphase rfl ?_ ?_ ?_
  · cases answer <;> rfl
  · rcases markDispatchDispatched_cases storage w.repository dispatch.jobId now with
      hsame | ⟨found, hfound, hlive, hput⟩
    · exact .inl hsame
    · exact .inr ⟨found, found.sent now, hfound, rfl, BacktestDispatch.letter_sent hlive now, hput⟩
  · intro found hfound
    refine .single (.confirm found.jobId) ⟨dispatch.job, ?_⟩
    have hkey : found.jobId = dispatch.jobId := Table.key_of_get? hfound
    rw [hkey]
    exact List.mem_map.mpr ⟨dispatch.job, h.marked callId dispatch hphase, rfl⟩

theorem box_markFailed {now : Int} {answer : PortAnswer} {error : String}
    (hphase : w.phase callId = some (.refused dispatch error)) :
    Leads w.box (w.markFailedStep storage callId dispatch error now answer).box := by
  unfold markFailedStep
  refine box_marked .waiting dispatch.jobId hphase rfl rfl ?_ ?_
  · rcases markDispatchFailed_cases storage w.repository dispatch.jobId error now with
      hsame | ⟨found, hfound, hlive, hput⟩
    · exact .inl hsame
    · exact .inr ⟨found, found.unsent error now, hfound, rfl,
        BacktestDispatch.letter_unsent hlive error now, hput⟩
  · exact fun found _ => .single (.postpone found.jobId) trivial

end Steps

end DispatchWorld

namespace DispatchInv

variable {w : DispatchWorld} {storage : Storage} {callId : Nat} {dispatch : BacktestDispatch}

theorem start : DispatchInv .start where
  paired _ := Iff.rfl
  copied _ h := by cases h
  owned _ _ h := by cases h
  marked _ _ h := by cases h

theorem setPhase (h : DispatchInv w) {phase : DispatchPhase}
    (hphase : ∀ dispatch, phase = .accepted dispatch → dispatch.job ∈ w.taken) :
    DispatchInv (w.setPhase callId phase) where
  paired := h.paired
  copied := h.copied
  owned := h.owned
  marked other found hfound := by
    by_cases heq : other = callId
    · subst heq
      rw [DispatchWorld.phase_setPhase_self] at hfound
      exact hphase found (Option.some.inj hfound)
    · rw [DispatchWorld.phase_setPhase_of_ne heq] at hfound
      exact h.marked other found hfound

theorem take (h : DispatchInv w) (job : BacktestQueueJob) : DispatchInv (w.take job) where
  paired := h.paired
  copied := h.copied
  owned := h.owned
  marked callId found hfound := List.mem_cons_of_mem _ (h.marked callId found hfound)

/-- The dispatches keep their jobs, and the same candidates are stored. -/
theorem rewrite (h : DispatchInv w) {world : World}
    (hjobs : SameJobs w.repository.dispatches world.repository.dispatches)
    (hstored : ∀ candidateId, (world.stored candidateId).isSome ↔
      (w.world.stored candidateId).isSome)
    (hcopied : ∀ copy ∈ world.copies, (w.world.stored copy.candidateId).isSome) :
    DispatchInv { w with world } where
  paired candidateId := by
    have hdispatch : (world.repository.dispatches.get? candidateId).isSome =
        (w.dispatch? candidateId).isSome := hjobs.isSome candidateId
    refine (hstored candidateId).trans ((h.paired candidateId).trans ?_)
    rw [← hdispatch]
    rfl
  copied copy hcopy := (hstored _).mpr (hcopied copy hcopy)
  owned jobId found hfound := by
    obtain ⟨earlier, hearlier, hjob⟩ := hjobs.found hfound
    rw [BacktestDispatch.candidateId, hjob]
    exact h.owned jobId earlier hearlier
  marked := h.marked

/-- An operation other than a submission writes rows of stored candidates only. -/
theorem write_stored (h : DispatchInv w) {step : Step} (hstep : step.isSubmit = false)
    (henabled : w.world.enabled step) {row : StoredCandidate}
    {attempt : Option BacktestAttemptAudit} {trades : Option AttemptTrades}
    (hw : Storage.Write storage w.repository step (some row) attempt trades) :
    (w.world.stored row.candidateId).isSome := by
  have hsome : ∀ {candidateId candidate}, w.repository.candidates.get? candidateId = some candidate →
      (w.world.stored candidate.candidateId).isSome := by
    intro candidateId candidate hget
    have hstored : w.world.stored candidate.candidateId = some candidate := Table.get?_key hget
    rw [hstored]
    rfl
  cases hw with
  | submitted => cases hstep
  | claimed hstored | recovered retrying hstored | repaired hstored | completionClaimed hstored =>
    have hfound := hsome hstored
    exact hfound
  | persisted hfenced | persistedAudit retryAt hfenced | failed hfenced
  | failedAudit kind code error hfenced | completionFinalized hfenced
  | terminalFailureFinalized hfenced | completionFailed hfenced =>
    have hfound := hsome hfenced.candidate_stored
    exact hfound
  | cancelled stored hsame hbeneath =>
    rcases hbeneath with rfl | hstored
    · have hcopy := h.copied _ henabled.1
      exact hcopy
    · have hfound := hsome hstored
      exact hfound

theorem operation (h : DispatchInv w) {step : Step} (hstep : step.isSubmit = false)
    (henabled : w.world.enabled step) :
    DispatchInv { w with world := storage.next w.world step } := by
  refine h.rewrite (.of_write (apply_dispatches storage w.repository hstep)) ?_ ?_
  · intro candidateId
    refine ⟨fun hsome => ?_, Storage.stored_isSome_next⟩
    rcases Storage.stored_next_cases storage w.world step candidateId with
      ⟨row, attempt, trades, hw, rfl, -⟩ | hsame
    · exact h.write_stored hstep henabled hw
    · rwa [hsame] at hsome
  · refine Storage.copies_next (fun candidateId candidate hget => ?_) h.copied
    have hstored : w.world.stored candidate.candidateId = some candidate := Table.get?_key hget
    rw [hstored]
    rfl

theorem submit (h : DispatchInv w) {candidate : StoredCandidate} {key : Option String}
    (henabled : w.world.enabled (.submit candidate dispatch key))
    (hvalid : dispatch.job.valid = true) :
    DispatchInv { w with world := storage.next w.world (.submit candidate dispatch key) } := by
  obtain ⟨-, hjob, hcandidate⟩ := henabled
  have hcopied : ∀ copy ∈ (storage.next w.world (.submit candidate dispatch key)).copies,
      (w.world.stored copy.candidateId).isSome :=
    fun copy hcopy => h.copied copy hcopy
  rcases submit_dispatches storage w.repository candidate dispatch key with
    ⟨hcandidates, hdispatches⟩ | ⟨⟨row, hid, hcandidates⟩, hdispatches⟩
  · refine h.rewrite (fun jobId => ?_) (fun candidateId => ?_) hcopied
    · exact congrArg (fun table : Table BacktestDispatch.jobId =>
        (table.get? jobId).map BacktestDispatch.job) hdispatches
    · rw [World.stored, World.stored]
      exact iff_of_eq (congrArg (fun table : Table StoredCandidate.candidateId =>
        ((table.get? candidateId).isSome = true)) hcandidates)
  · have hstored : ∀ candidateId, (storage.next w.world (.submit candidate dispatch key)).stored
        candidateId = (w.repository.candidates.put row).get? candidateId := by
      intro candidateId
      rw [← hcandidates]
      rfl
    have hfound : ∀ jobId,
        ({ w with world := storage.next w.world (.submit candidate dispatch key) } :
          DispatchWorld).dispatch? jobId = (w.repository.dispatches.put dispatch).get? jobId := by
      intro jobId
      rw [← hdispatches]
      rfl
    constructor
    case paired =>
      intro candidateId
      rw [hstored, hfound, Table.get?_put, Table.get?_put, hid, hjob]
      split
      · exact Iff.rfl
      · exact h.paired candidateId
    case copied =>
      intro copy hcopy
      rw [hstored, Table.get?_put]
      split
      · rfl
      · exact hcopied copy hcopy
    case owned =>
      intro jobId found hget
      rw [hfound, Table.get?_put] at hget
      split at hget
      next heq =>
        cases hget
        exact ⟨hcandidate.trans (hjob.symm.trans heq.symm), hvalid⟩
      next => exact h.owned jobId found hget
    case marked => exact h.marked

/-- A dispatch is marked; nothing else of the repository changes. -/
theorem marked_put (h : DispatchInv w) {jobId : String} {written : BacktestDispatch}
    (hstored : w.dispatch? jobId = some dispatch) (hjob : written.job = dispatch.job) :
    DispatchInv (w.setRepository (w.repository.putDispatch written)) := by
  refine h.rewrite (SameJobs.put (Table.get?_key hstored) hjob) (fun _ => Iff.rfl) h.copied

end DispatchInv

namespace DispatchWorld

variable {w : DispatchWorld} {storage : Storage} {callId : Nat} {dispatch : BacktestDispatch}

theorem inv_marked (h : DispatchInv w) (jobId : String) {repository : RepositoryState}
    {lands : Bool} {after : DispatchPhase}
    (hmarked : repository = w.repository ∨ ∃ found written, w.dispatch? jobId = some found ∧
      written.job = found.job ∧ repository = w.repository.putDispatch written)
    (hafter : ∀ dispatch, after ≠ .accepted dispatch) :
    DispatchInv ((if lands then w.setRepository repository else w).setPhase callId after) := by
  have hrepository : DispatchInv (if lands then w.setRepository repository else w) := by
    cases lands with
    | false => exact h
    | true =>
      rcases hmarked with rfl | ⟨found, written, hfound, hjob, rfl⟩
      · exact h
      · exact h.marked_put hfound hjob
  exact hrepository.setPhase fun dispatch hphase => absurd hphase (hafter dispatch)

/-- One step keeps the invariant, and is read as events of the outbox. -/
theorem next_leads (w : DispatchWorld) (step : DispatchStep) (h : DispatchInv w)
    (henabled : (system storage).enabled w step) :
    DispatchInv ((system storage).next w step) ∧
      Leads w.box ((system storage).next w step).box := by
  cases step with
  | operation step =>
    obtain ⟨henabled, hdispatchable⟩ := henabled
    by_cases hstep : step.isSubmit = false
    · exact ⟨h.operation hstep henabled, box_write (apply_dispatches storage w.repository hstep)⟩
    · cases step with
      | submit candidate dispatch key =>
        refine ⟨h.submit henabled hdispatchable.2, ?_⟩
        rcases submit_dispatches storage w.repository candidate dispatch key with
          ⟨-, hdispatches⟩ | ⟨-, hdispatches⟩
        · have hsame : ({ w with world := storage.next w.world (.submit candidate dispatch key) } :
              DispatchWorld).box = w.box := box_congr hdispatches
          show Leads w.box (DispatchWorld.box { w with world := _ })
          rw [hsame]
          exact .refl _
        · refine box_submit hdispatchable.1 ?_ hdispatches
          have hfree := (h.paired candidate.candidateId).not.mp (by simpa using henabled.1)
          rw [henabled.2.1]
          exact Option.not_isSome_iff_eq_none.mp hfree
      | _ => exact absurd rfl hstep
  | read callId jobId =>
    refine ⟨?_, box_read henabled⟩
    show DispatchInv (w.readStep callId jobId)
    unfold readStep
    split
    · exact h
    · refine h.setPhase fun dispatch hphase => ?_
      split at hphase <;> cases hphase
  | enqueue callId answer =>
    obtain ⟨dispatch, hphase⟩ := henabled
    have hnext : (system storage).next w (.enqueue callId answer) =
        w.enqueueStep callId dispatch answer := by
      simp only [system, next, hphase]
    rw [hnext]
    refine ⟨?_, box_enqueue hphase⟩
    unfold enqueueStep
    split
    · exact h.setPhase nofun
    · cases answer with
      | done =>
        refine (h.take dispatch.job).setPhase fun found hfound => ?_
        cases hfound
        exact List.mem_cons_self
      | failed error => exact h.setPhase nofun
      | lost error => exact (h.take dispatch.job).setPhase nofun
  | mark callId now answer =>
    obtain ⟨dispatch, hphase⟩ := henabled
    have hnext : (system storage).next w (.mark callId now answer) =
        w.markStep storage callId dispatch now answer := by
      simp only [system, next, hphase]
    rw [hnext]
    refine ⟨inv_marked h dispatch.jobId ?_ ?_, box_mark h hphase⟩
    · rcases markDispatchDispatched_cases storage w.repository dispatch.jobId now with
        hsame | ⟨found, hfound, -, hput⟩
      · exact .inl hsame
      · exact .inr ⟨found, found.sent now, hfound, rfl, hput⟩
    · cases answer <;> nofun
  | markFailed callId now answer =>
    obtain ⟨dispatch, error, hphase⟩ := henabled
    have hnext : (system storage).next w (.markFailed callId now answer) =
        w.markFailedStep storage callId dispatch error now answer := by
      simp only [system, next, hphase]
    rw [hnext]
    refine ⟨inv_marked h dispatch.jobId ?_ ?_, box_markFailed hphase⟩
    · rcases markDispatchFailed_cases storage w.repository dispatch.jobId error now with
        hsame | ⟨found, hfound, -, hput⟩
      · exact .inl hsame
      · exact .inr ⟨found, found.unsent error now, hfound, rfl, hput⟩
    · nofun
  | remove jobId =>
    refine ⟨⟨h.paired, h.copied, h.owned, h.marked⟩, ?_⟩
    show Leads w.box
      ({ w with queue := w.queue.filter fun job => job.jobId != jobId } : DispatchWorld).box
    rw [box_remove]
    exact .single (.discard jobId) trivial
  | stop callId =>
    refine ⟨h.setPhase nofun, ?_⟩
    show Leads w.box (w.setPhase callId .stopped).box
    rw [box_setPhase]
    exact .single (.leave callId) trivial

theorem run_leads {steps : List DispatchStep} (h : DispatchInv w)
    (hlegal : (system storage).Legal (fun _ _ => True) w steps) :
    DispatchInv ((system storage).run w steps) ∧ Leads w.box ((system storage).run w steps).box :=
  GuardedSystem.reaches_run box DispatchInv (fun s l hs henabled => next_leads s l hs henabled) h
    hlegal

end DispatchWorld

end Cryptox.Backtesting
