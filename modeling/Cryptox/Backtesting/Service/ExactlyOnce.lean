import Cryptox.Backtesting.Service.CompletionUnits

/-!
# Completion happens once

Every move of a call keeps what is known of the calls and of the tables, so in every run without a
cancellation over a completed row a candidate has at most one experiment and at most one entry, from
the commit that completes it on.
-/
namespace Cryptox.Backtesting

open Cryptox.Library
open Cryptox.Leaderboard

namespace CompletionWorld

variable {w : CompletionWorld} {call : Call}

section Moves

variable {unit : UnitOfWork} {inputs : CompletionInputs} {existing : Option StoredExperiment}
  {move : Move} {phase : Phase}

/-- The experiment a unit of work begins with: the one that was found, before or by the insertion,
or a new one. -/
theorem stage_eq_ok {experimentId : String} {createdAt : Int} {staged : StoredExperiment × Bool}
    (h : w.stage inputs existing experimentId createdAt = .ok staged) :
    (staged.2 = false ∧ (existing = some staged.1 ∨ staged.1 ∈ w.repository.experiments.rows ∧
        staged.1.candidateId = inputs.candidate.candidateId)) ∨
      (staged.2 = true ∧ w.repository.experiments.get? staged.1.id = none ∧
        staged.1.id = experimentId ∧ staged.1.candidateId = inputs.candidate.candidateId) := by
  unfold stage at h
  cases existing with
  | some experiment =>
    cases h
    exact .inl ⟨rfl, .inl rfl⟩
  | none =>
    simp only [Postgres.stageCompletionExperiment] at h
    split at h
    next found hfind =>
      cases h
      have howner := List.find?_some hfind
      exact .inl ⟨rfl, .inr ⟨List.mem_of_find?_eq_some hfind, beq_iff_eq.mp howner⟩⟩
    next =>
      split at h
      · cases h
      next hnew =>
        cases h
        rw [Bool.not_eq_true, Bool.or_eq_false_iff] at hnew
        exact .inr ⟨rfl, Option.isNone_iff_eq_none.mp (by simpa using hnew.1), rfl, rfl⟩

theorem begunUnit_sound {candidate : StoredCandidate} {staged : StoredExperiment × Bool}
    (hfound : staged.2 = false → staged.1 ∈ w.repository.experiments.rows)
    (hfresh : staged.2 = true → w.repository.experiments.get? staged.1.id = none)
    (howner : staged.1.candidateId = candidate.candidateId) :
    (begunUnit candidate staged).Sound w where
  found := hfound
  fresh := hfresh
  owner := howner
  ranks _ h := by cases h
  unranked _ h := by cases h
  completes _ h := by cases h
  pending _ h := by cases h
  closed h := by cases h

theorem begunUnit_apart {candidate : StoredCandidate} {staged : StoredExperiment × Bool}
    {token : String} (hfree : staged.2 = true → w.Free Call.holdsExperimentId token staged.1.id) :
    (begunUnit candidate staged).Apart w token where
  experimentId := hfree
  ranked _ h := by cases h
  entryId _ h := by cases h
  row _ h := by cases h

theorem lookUp_eq_ok {scopeFound : Bool} {point : Point} (h : w.lookUp unit scopeFound = .ok point) :
    point ≠ .finalized := by
  unfold lookUp at h
  intro hpoint
  subst hpoint
  split at h
  · cases h
  · split at h
    · cases h
    · cases h
    · split at h <;> cases h

theorem rank_ne_finalized : w.rank unit ≠ .finalized := by
  unfold rank
  split <;> simp

theorem insertEntry_eq_ok {entryId : String} {addedAt : Int} {entry : LeaderboardEntry}
    (h : w.insertEntry unit entryId addedAt = .ok entry) :
    entry = insertedEntry unit.experiment entryId addedAt ∧ w.entries.get? entryId = none ∧
      ∀ other ∈ w.entries.rows, other.experimentResultId ≠ unit.experiment.id := by
  unfold insertEntry at h
  split at h
  · cases h
  next hnew =>
    cases h
    rw [Bool.not_eq_true, Bool.or_eq_false_iff] at hnew
    refine ⟨rfl, Option.isNone_iff_eq_none.mp (by simpa using hnew.1), ?_⟩
    have hnone : getByExperimentResultId w.entries unit.experiment.id = none :=
      Option.isNone_iff_eq_none.mp (by simpa using hnew.2)
    intro other hother hsame
    exact List.find?_eq_none.mp hnone other hother (beq_iff_eq.mpr hsame)

theorem finalizedRow_eq_ok {token : String} {now : Int} {row : Option StoredCandidate}
    (h : w.finalizedRow unit token now = .ok row) :
    ∃ before, w.world.stored unit.candidate.candidateId = some before ∧
      before.status = .processingResult ∧
      row = some (before.completionFinalized unit.experiment.id now) := by
  unfold finalizedRow at h
  simp only [Postgres.finalizeCompletion, RepositoryState.fencedWrite] at h
  split at h
  next state heq =>
    cases h
    split at heq
    next before hbefore =>
      split at heq
      next hguard =>
        cases heq
        have hid : before.candidateId = unit.candidate.candidateId := Table.key_of_get? hbefore
        refine ⟨before, hbefore, beq_iff_eq.mp hguard.1, ?_⟩
        exact Table.get?_put_of_eq _ hid.symm
      next => cases heq
    next => cases heq
  next => cases h

/-- A call may wait here: what is known of it holds, and what it holds nobody else does. -/
structure Ready (w : CompletionWorld) (call : Call) : Prop where
  sound : call.Sound w
  apart : ∀ unit, call.unit? = some unit → unit.Apart w call.token

theorem ready_reading (hread : ∀ candidate, call.candidate? = some candidate →
      candidate.candidateId = call.candidateId) (hexisting : call.existing? = none)
    (hunit : call.unit? = none) : Ready w call where
  sound := by
    refine ⟨hread, ?_, ?_⟩
    · intro experiment hexperiment
      rw [hexisting] at hexperiment
      cases hexperiment
    · intro unit h
      rw [hunit] at h
      cases h
  apart unit h := by
    rw [hunit] at h
    cases h

theorem ready_writing (hread : unit.candidate.candidateId = call.candidateId)
    (hsound : unit.Sound w) (hapart : unit.Apart w call.token) :
    Ready w { call with phase := .writing unit } where
  sound := by
    refine ⟨?_, ?_, ?_⟩
    · intro candidate h
      cases h
      exact hread
    · intro experiment h
      cases h
    · intro other h
      cases h
      exact hsound
  apart other h := by
    cases h
    exact hapart

theorem ready_finished : Ready w { call with phase := .finished } :=
  ready_reading (fun candidate hcandidate => by cases hcandidate) rfl rfl

theorem ready_failing (hsound : call.Sound w) (candidate : StoredCandidate) (error : String)
    (hread : call.candidate? = some candidate) :
    Ready w { call with phase := .failing candidate error } := by
  refine ready_reading ?_ rfl rfl
  intro other hother
  cases hother
  exact hsound.read candidate hread

/-- The moves up to the beginning of the unit of work read only. -/
theorem ready_reads (hsound : call.Sound w) (hphase : w.phaseAfter call move = some phase)
    (hreads : move = .readBack ∨ move = .readAttempt ∨ move = .findExperiment ∨ move = .begin ∨
      ∃ scope scored, move = .score scope scored) : Ready w { call with phase } := by
  rcases hreads with rfl | rfl | rfl | rfl | ⟨scope, scored, rfl⟩
  · simp only [phaseAfter] at hphase
    split at hphase
    next =>
      cases hphase
      cases hstored : w.world.stored call.candidateId with
      | none => exact ready_finished
      | some candidate =>
        refine ready_reading ?_ rfl rfl
        intro other hother
        cases hother
        exact Table.key_of_get? hstored
    next => cases hphase
  · simp only [phaseAfter] at hphase
    split at hphase
    next candidate hp =>
      have hread : call.candidate? = some candidate := by simp only [Call.candidate?, hp]
      split at hphase
      next => cases hphase
      next =>
        split at hphase
        next attempt _ =>
          cases hphase
          refine ready_reading ?_ rfl rfl
          intro other hother
          cases hother
          exact hsound.read candidate hread
        next =>
          cases hphase
          exact ready_failing hsound candidate _ hread
    next => cases hphase
  · simp only [phaseAfter] at hphase
    split at hphase
    next inputs hp =>
      cases hphase
      refine ⟨⟨?_, ?_, ?_⟩, ?_⟩
      · intro candidate hcandidate
        cases hcandidate
        exact hsound.read _ (by simp only [Call.candidate?, hp]; rfl)
      · intro experiment hfind
        have howner := List.find?_some hfind
        exact ⟨List.mem_of_find?_eq_some hfind, beq_iff_eq.mp howner⟩
      · intro unit hunit
        cases hunit
      · intro unit hunit
        cases hunit
    next => cases hphase
  · simp only [phaseAfter] at hphase
    split at hphase
    next inputs existing hp =>
      cases hphase
      refine ⟨⟨?_, ?_, ?_⟩, ?_⟩
      · intro candidate hcandidate
        cases hcandidate
        exact hsound.read _ (by simp only [Call.candidate?, hp]; rfl)
      · intro experiment hexisting
        exact hsound.found experiment (by simpa only [Call.existing?, hp] using hexisting)
      · intro unit hunit
        cases hunit
      · intro unit hunit
        cases hunit
    next => cases hphase
  · simp only [phaseAfter] at hphase
    split at hphase
    next candidate attempt hp =>
      split at hphase
      next =>
        cases hphase
        refine ready_reading ?_ rfl rfl
        intro other hother
        cases hother
        exact hsound.read candidate (by simp only [Call.candidate?, hp]; rfl)
      next => cases hphase
    next => cases hphase

theorem ready_stage (h : Once w) (hcall : call ∈ w.calls.rows) {experimentId : String}
    {createdAt : Int} (hphase : w.phaseAfter call (.stage experimentId createdAt) = some phase)
    (hfree : w.Free Call.holdsExperimentId call.token experimentId) :
    Ready w { call with phase } := by
  have hsound := h.calls call hcall
  simp only [phaseAfter] at hphase
  split at hphase
  next inputs existing hp =>
    have hread : call.candidate? = some inputs.candidate := by simp only [Call.candidate?, hp]
    have howner := hsound.read _ hread
    split at hphase
    next staged hstage =>
      cases hphase
      have hexisting : ∀ experiment, existing = some experiment →
          experiment ∈ w.repository.experiments.rows ∧
            experiment.candidateId = call.candidateId :=
        fun experiment heq => hsound.found experiment (by simp only [Call.existing?, hp, heq]; rfl)
      rcases stage_eq_ok hstage with ⟨hfound, hold⟩ | ⟨hnew, hnone, hid, hof⟩
      · have hstored : staged.1 ∈ w.repository.experiments.rows ∧
            staged.1.candidateId = inputs.candidate.candidateId := by
          rcases hold with heq | hstored
          · rw [howner]
            exact hexisting _ heq
          · exact hstored
        have hnotNew : staged.2 ≠ true := by simp [hfound]
        exact ready_writing howner
          (begunUnit_sound (fun _ => hstored.1) (fun hnew => absurd hnew hnotNew) hstored.2)
          (begunUnit_apart fun hnew => absurd hnew hnotNew)
      · have hnotFound : staged.2 ≠ false := by simp [hnew]
        exact ready_writing howner
          (begunUnit_sound (fun hfound => absurd hfound hnotFound) (fun _ => hnone) hof)
          (begunUnit_apart fun _ => hid ▸ hfree)
    next error _ =>
      cases hphase
      exact ready_failing hsound inputs.candidate error hread
  next => cases hphase

/-- What is known of a call inside its unit of work. -/
theorem known_of_writing (h : Once w) (hcall : call ∈ w.calls.rows)
    (hp : call.phase = .writing unit) : call.candidate? = some unit.candidate ∧
      unit.candidate.candidateId = call.candidateId ∧ unit.Sound w ∧ unit.Apart w call.token := by
  have hunit : call.unit? = some unit := by simp only [Call.unit?, hp]
  have hread : call.candidate? = some unit.candidate := by simp only [Call.candidate?, hp]
  have hsound := h.calls call hcall
  exact ⟨hread, hsound.read _ hread, hsound.unit unit hunit, apart_of_mem h hcall hunit⟩

theorem ready_lookUp (h : Once w) (hcall : call ∈ w.calls.rows) {scopeFound : Bool}
    (hphase : w.phaseAfter call (.lookUp scopeFound) = some phase) :
    Ready w { call with phase } := by
  simp only [phaseAfter] at hphase
  split at hphase
  next unit hp =>
    obtain ⟨hread, howner, hunit, hapart⟩ := known_of_writing h hcall hp
    split at hphase
    next =>
      split at hphase
      next point hpoint =>
        cases hphase
        have hclosed := lookUp_eq_ok hpoint
        exact ready_writing howner
          { hunit with closed := fun heq => absurd heq hclosed }
          { hapart with }
      next error _ =>
        cases hphase
        exact ready_failing (h.calls call hcall) unit.candidate error hread
    next => cases hphase
  next => cases hphase

theorem ready_rank (h : Once w) (hcall : call ∈ w.calls.rows)
    (hphase : w.phaseAfter call .rank = some phase) :
    Ready w { call with phase } := by
  simp only [phaseAfter] at hphase
  split at hphase
  next unit hp =>
    obtain ⟨-, howner, hunit, hapart⟩ := known_of_writing h hcall hp
    split at hphase
    next =>
      cases hphase
      exact ready_writing howner
        { hunit with closed := fun heq => absurd heq rank_ne_finalized }
        { hapart with }
    next => cases hphase
  next => cases hphase

theorem ready_evict (h : Once w) (hcall : call ∈ w.calls.rows)
    (hphase : w.phaseAfter call .evict = some phase) :
    Ready w { call with phase } := by
  simp only [phaseAfter] at hphase
  split at hphase
  next unit hp =>
    obtain ⟨-, howner, hunit, hapart⟩ := known_of_writing h hcall hp
    split at hphase
    next =>
      cases hphase
      exact ready_writing howner
        { hunit with closed := fun heq => by cases heq }
        { hapart with }
    next => cases hphase
  next => cases hphase

theorem ready_insertEntry (h : Once w) (hcall : call ∈ w.calls.rows) {entryId : String} {addedAt : Int}
    (hphase : w.phaseAfter call (.insertEntry entryId addedAt) = some phase)
    (hfree : w.Unblocked call (.insertEntry entryId addedAt)) :
    Ready w { call with phase } := by
  simp only [phaseAfter] at hphase
  split at hphase
  next unit hp =>
    obtain ⟨hread, howner, hunit, hapart⟩ := known_of_writing h hcall hp
    split at hphase
    next =>
      split at hphase
      next entry hentry =>
        cases hphase
        obtain ⟨rfl, hnone, hothers⟩ := insertEntry_eq_ok hentry
        refine ready_writing howner { hunit with
            ranks := ?_, unranked := ?_, closed := fun heq => by cases heq }
          { hapart with ranked := ?_, entryId := ?_ }
        · intro entry hentry
          cases hentry
          rfl
        · intro entry hentry
          cases hentry
          exact ⟨hnone, hothers⟩
        · intro entry hentry
          cases hentry
          exact hfree.2 unit (by simp only [Call.unit?, hp]; rfl)
        · intro entry hentry
          cases hentry
          exact hfree.1
      next error _ =>
        cases hphase
        exact ready_failing (h.calls call hcall) unit.candidate error hread
    next => cases hphase
  next => cases hphase

theorem ready_finalize (h : Once w) (hcall : call ∈ w.calls.rows) {now : Int}
    (hphase : w.phaseAfter call (.finalize now) = some phase)
    (hfree : w.Free Call.holdsRow call.token call.candidateId) :
    Ready w { call with phase } := by
  simp only [phaseAfter] at hphase
  split at hphase
  next unit hp =>
    obtain ⟨hread, howner, hunit, hapart⟩ := known_of_writing h hcall hp
    split at hphase
    next =>
      split at hphase
      next row hrow =>
        cases hphase
        obtain ⟨before, hbefore, hs, rfl⟩ := finalizedRow_eq_ok hrow
        have hid : before.candidateId = unit.candidate.candidateId := Table.key_of_get? hbefore
        refine ready_writing howner { hunit with
            completes := ?_, pending := ?_, closed := fun _ => rfl }
          { hapart with row := ?_ }
        · intro row hrow
          cases hrow
          exact ⟨hunit.owner.trans hid.symm, rfl, rfl, rfl⟩
        · intro row hrow
          cases hrow
          refine ⟨before, ?_, hs⟩
          change w.world.stored before.candidateId = some before
          rw [hid, hbefore]
        · intro row hrow
          cases hrow
          change w.Free Call.holdsRow call.token before.candidateId
          rw [hid, howner]
          exact hfree
      next error _ =>
        cases hphase
        exact ready_failing (h.calls call hcall) unit.candidate error hread
    next => cases hphase
  next => cases hphase

/-- Where a call goes on, what is known of it holds again. -/
theorem ready_next (h : Once w) (hcall : call ∈ w.calls.rows)
    (hphase : w.phaseAfter call move = some phase) (hfree : w.Unblocked call move) :
    Ready w { call with phase } := by
  have hsound := h.calls call hcall
  cases move with
  | readBack | readAttempt | findExperiment | begin | score =>
    exact ready_reads hsound hphase (by simp)
  | stage experimentId createdAt => exact ready_stage h hcall hphase hfree.2
  | lookUp scopeFound => exact ready_lookUp h hcall hphase
  | rank => exact ready_rank h hcall hphase
  | evict => exact ready_evict h hcall hphase
  | insertEntry entryId addedAt => exact ready_insertEntry h hcall hphase hfree
  | finalize now => exact ready_finalize h hcall hphase hfree
  | finalizeTerminalFailure now =>
    simp only [phaseAfter] at hphase
    split at hphase
    next candidate hp =>
      split at hphase
      next =>
        split at hphase
        next =>
          cases hphase
          exact ready_finished
        next error _ =>
          cases hphase
          exact ready_failing hsound candidate error (by simp only [Call.candidate?, hp])
      next => cases hphase
    next => cases hphase
  | commit answered =>
    simp only [phaseAfter] at hphase
    split at hphase
    next unit hp =>
      split at hphase
      next =>
        cases hphase
        cases answered with
        | false => exact ready_failing hsound unit.candidate _ (by simp only [Call.candidate?, hp])
        | true => exact ready_finished
      next => cases hphase
    next => cases hphase
  | fail error =>
    simp only [phaseAfter] at hphase
    split at hphase
    next => cases hphase
    next =>
      obtain ⟨candidate, hread, rfl⟩ := Option.map_eq_some_iff.mp hphase
      exact ready_failing hsound candidate error hread
  | failCompletion retryAt now =>
    simp only [phaseAfter] at hphase
    split at hphase
    next =>
      cases hphase
      exact ready_finished
    next => cases hphase
  | crash =>
    cases hphase
    exact ready_finished

end Moves

section Steps

variable {move : Move} {phase : Phase} {step : CompletionStep}

/-- What a move changes beside its own call: it commits what the call has written, or it runs an
operation on the call's candidate, or it changes nothing. -/
theorem effect_cases (hphase : w.phaseAfter call move = some phase) :
    (∃ unit, call.unit? = some unit ∧ unit.point = .finalized ∧
        Call.unit? { call with phase } = none ∧
        (w.effect call move).setPhase call phase = (w.setPhase call phase).committed unit) ∨
      (∃ operation candidate, call.candidate? = some candidate ∧
        operation.row = some candidate.candidateId ∧ LeavesCompleted w.world operation ∧
        w.Unblocked call move = w.Free Call.holdsRow call.token call.candidateId ∧
        Call.unit? { call with phase } = none ∧
        (w.effect call move).setPhase call phase =
          { w.setPhase call phase with world := Storage.postgres.next w.world operation }) ∨
      (w.effect call move).setPhase call phase = w.setPhase call phase := by
  cases move with
  | commit answered =>
    simp only [phaseAfter] at hphase
    split at hphase
    next unit hp =>
      split at hphase
      next hpoint =>
        cases hphase
        refine .inl ⟨unit, by simp only [Call.unit?, hp], hpoint, by cases answered <;> rfl, ?_⟩
        simp only [effect, hp]
        rfl
      next => cases hphase
    next => cases hphase
  | finalizeTerminalFailure now =>
    simp only [phaseAfter] at hphase
    split at hphase
    next candidate hp =>
      have hread : call.candidate? = some candidate := by simp only [Call.candidate?, hp]
      split at hphase
      next =>
        refine .inr (.inl ⟨.finalizeTerminalFailure candidate call.token now, candidate, hread, rfl,
          trivial, rfl, ?_, ?_⟩)
        · split at hphase <;> cases hphase <;> rfl
        · simp only [effect, operationOf, hread, Option.map_some]
          rfl
      next => cases hphase
    next => cases hphase
  | failCompletion retryAt now =>
    simp only [phaseAfter] at hphase
    split at hphase
    next candidate error hp =>
      cases hphase
      refine .inr (.inl ⟨.failCompletion candidate call.token retryAt now error, candidate,
        by simp only [Call.candidate?, hp], rfl, trivial, rfl, rfl, ?_⟩)
      simp only [effect, operationOf, hp]
      rfl
    next => cases hphase
  | _ => exact .inr (.inr rfl)

/-- A call has let go of what its commit shows. -/
theorem released_setPhase {unit : UnitOfWork} (hapart : unit.Apart w call.token)
    (hclosed : Call.unit? { call with phase } = none) : Released (w.setPhase call phase) unit := by
  have hnothing : ∀ {κ : Type} {holds : Call → Option κ} {key : κ},
      w.Free holds call.token key → holds { call with phase } = none →
      ∀ other ∈ (w.setPhase call phase).calls.rows, holds other ≠ some key := by
    intro κ holds key hfree hnone other hother
    refine @released_put w { call with phase } κ holds key hfree ?_ other hother
    rw [hnone]
    exact nofun
  constructor
  · intro hinserted
    exact hnothing (hapart.experimentId hinserted)
      (by simp [Call.holdsExperimentId, Call.stagedExperiment, hclosed])
  · intro entry hentry
    exact hnothing (hapart.ranked entry hentry)
      (by simp [Call.holdsRanked, Call.stagedEntry, hclosed])
  · intro entry hentry
    exact hnothing (hapart.entryId entry hentry)
      (by simp [Call.holdsEntryId, Call.stagedEntry, hclosed])
  · intro row hrow
    exact hnothing (hapart.row row hrow) (by simp [Call.holdsRow, hclosed])

theorem once_move (h : Once w) (hcall : call ∈ w.calls.rows)
    (hphase : w.phaseAfter call move = some phase) (hfree : w.Unblocked call move) :
    Once ((w.effect call move).setPhase call phase) := by
  have hready := ready_next h hcall hphase hfree
  have hmoved : Once (w.setPhase call phase) := once_put h hready.sound hready.apart
  rcases effect_cases hphase with ⟨unit, hunit, hpoint, hclosed, heq⟩ |
    ⟨operation, candidate, hread, hrow, hleaves, hblocked, hclosed, heq⟩ | heq
  · rw [heq]
    have hsound : unit.Sound (w.setPhase call phase) := { (h.calls call hcall).unit unit hunit with }
    obtain ⟨row, hrow⟩ := Option.isSome_iff_exists.mp (hsound.closed hpoint)
    exact once_commit hmoved hsound hrow (released_setPhase (apart_of_mem h hcall hunit) hclosed)
  · rw [heq]
    refine once_operation hmoved (Storage.undisturbed_next hleaves) ?_
    intro candidateId hwritten
    rw [hrow] at hwritten
    cases hwritten
    rw [(h.calls call hcall).read candidate hread]
    rw [hblocked] at hfree
    refine @released_put w { call with phase } _ _ _ hfree ?_
    simp [Call.holdsRow, hclosed]
  · rw [heq]
    exact hmoved

/-- No cancellation is written over a completed row. -/
def SparesCompleted (w : CompletionWorld) : CompletionStep → Prop
  | .operation (.cancel copy _) => ∀ candidate ∈ w.world.stored copy.candidateId,
      candidate.status ≠ .completed
  | _ => True

instance : ∀ step, Decidable (SparesCompleted w step)
  | .operation (.cancel copy _) =>
    inferInstanceAs (Decidable (∀ candidate ∈ w.world.stored copy.candidateId, _))
  | .operation (.tick _) | .operation (.submit ..) | .operation (.read _)
  | .operation (.claimWorkerAttempt _) | .operation (.persistWorkerSuccess _)
  | .operation (.failWorkerAttempt _) | .operation (.recoverAbandonedAttempt ..)
  | .operation (.repairTerminalQueueFailure ..) | .operation (.claimCompletion ..)
  | .operation (.finalizeCompletion ..) | .operation (.finalizeTerminalFailure ..)
  | .operation (.failCompletion ..) | .operation (.markDispatchCancelled ..)
  | .claim .. | .move .. => inferInstanceAs (Decidable True)

theorem leavesCompleted_of_enabled {operation : Step} (henabled : w.enabled (.operation operation))
    (hspares : SparesCompleted w (.operation operation)) : LeavesCompleted w.world operation := by
  obtain ⟨hworkers, hworld, -⟩ := henabled
  cases operation with
  | submit candidate dispatch key => exact Option.isNone_iff_eq_none.mp hworld.1
  | cancel copy now => exact hspares
  | finalizeCompletion => cases hworkers
  | _ => trivial

/-- A granted claim writes the row and starts a call, a refused one writes nothing. -/
theorem claimed_cases (token candidateId : String) (now leaseExpiresAt : Int) :
    let world := Storage.postgres.next w.world (.claimCompletion candidateId token now leaseExpiresAt)
    w.claimed token candidateId now leaseExpiresAt = { w with world } ∨
      w.claimed token candidateId now leaseExpiresAt =
        { w with world, calls := w.calls.put ⟨token, candidateId, .claimed⟩ } := by
  unfold claimed
  split
  · exact .inr rfl
  · exact .inl rfl

theorem once_next (h : Once w) (henabled : w.enabled step) (hspares : SparesCompleted w step) :
    Once (w.next step) := by
  cases step with
  | operation operation =>
    exact once_operation h
      (Storage.undisturbed_next (leavesCompleted_of_enabled henabled hspares)) henabled.2.2
  | claim token candidateId now leaseExpiresAt =>
    have hquiet : Undisturbed w.world (Storage.postgres.next w.world
        (.claimCompletion candidateId token now leaseExpiresAt)) (some candidateId) :=
      Storage.undisturbed_next trivial
    have hworld := once_operation h hquiet (by
      intro written hwritten
      cases hwritten
      exact henabled.2)
    have hready : ∀ w', Ready w' ⟨token, candidateId, .claimed⟩ :=
      fun _ => ready_reading (fun _ hcandidate => by cases hcandidate) rfl rfl
    change Once (w.claimed token candidateId now leaseExpiresAt)
    rcases claimed_cases (w := w) token candidateId now leaseExpiresAt with heq | heq
    · rw [heq]
      exact hworld
    · rw [heq]
      exact once_put hworld (hready _).sound (hready _).apart
  | move token move =>
    obtain ⟨call, hget, hsome, hfree⟩ := henabled
    obtain ⟨phase, hphase⟩ := Option.isSome_iff_exists.mp hsome
    have heq : w.next (.move token move) = (w.effect call move).setPhase call phase := by
      simp only [next, Option.mem_def.mp hget, hphase]
    rw [heq]
    exact once_move h (Table.mem_rows_of_get? hget) hphase hfree

/-- The experiments are there as they were, and the entries up to their flag. -/
structure Kept (w later : CompletionWorld) : Prop where
  experiments : ∀ experiment ∈ w.repository.experiments.rows,
    experiment ∈ later.repository.experiments.rows
  entries : Traced w.entries later.entries

theorem Kept.trans {first later : CompletionWorld} (h : Kept first w) (h' : Kept w later) :
    Kept first later where
  experiments experiment hexperiment := h'.experiments experiment (h.experiments experiment hexperiment)
  entries entry hentry := by
    obtain ⟨row, hrow, hid, hresult⟩ := h.entries entry hentry
    obtain ⟨last, hlast, hid', hresult'⟩ := h'.entries row hrow
    exact ⟨last, hlast, hid'.trans hid, hresult'.trans hresult⟩

theorem kept_of_same {later : CompletionWorld}
    (hexperiments : later.repository.experiments = w.repository.experiments)
    (hentries : later.entries = w.entries) : Kept w later where
  experiments _ hexperiment := hexperiments ▸ hexperiment
  entries := hentries ▸ traced_refl w.entries

theorem kept_commit (h : Once w) {unit : UnitOfWork} {row : StoredCandidate}
    (hsound : unit.Sound w) (hrow : unit.row = some row) : Kept w (w.committed unit) where
  experiments experiment hexperiment := by
    rw [experiments_committed (inserted_of_row h hsound hrow) hsound]
    exact List.mem_append_left _ hexperiment
  entries entry hentry := by
    obtain ⟨old, hold, hid, hresult⟩ := (traced_deactivated w.entries unit.deactivated).1 entry hentry
    refine ⟨old, ?_, hid, hresult⟩
    change old ∈ ((unit.deactivated.elim w.entries (deactivate w.entries)).putOption unit.entry).rows
    cases hnew : unit.entry with
    | none => exact hold
    | some new =>
      have hne : old.id ≠ new.id := by
        intro hsame
        have hnone := (hsound.unranked new hnew).1
        rw [← hsame, hid, Table.get?_of_mem_rows hentry] at hnone
        cases hnone
      exact Table.mem_rows_of_get?
        ((Table.get?_put_of_ne _ hne).trans (Table.get?_of_mem_rows hold))

theorem kept_next (h : Once w) (henabled : w.enabled step) (hspares : SparesCompleted w step) :
    Kept w (w.next step) := by
  cases step with
  | operation operation =>
    exact kept_of_same
      (Storage.undisturbed_next (leavesCompleted_of_enabled henabled hspares)).experiments rfl
  | claim token candidateId now leaseExpiresAt =>
    have hquiet : Undisturbed w.world (Storage.postgres.next w.world
        (.claimCompletion candidateId token now leaseExpiresAt)) (some candidateId) :=
      Storage.undisturbed_next trivial
    change Kept w (w.claimed token candidateId now leaseExpiresAt)
    rcases claimed_cases (w := w) token candidateId now leaseExpiresAt with heq | heq <;>
    · rw [heq]
      exact kept_of_same hquiet.experiments rfl
  | move token move =>
    obtain ⟨call, hget, hsome, hfree⟩ := henabled
    obtain ⟨phase, hphase⟩ := Option.isSome_iff_exists.mp hsome
    have hcall : call ∈ w.calls.rows := Table.mem_rows_of_get? hget
    have heq : w.next (.move token move) = (w.effect call move).setPhase call phase := by
      simp only [next, Option.mem_def.mp hget, hphase]
    rw [heq]
    rcases effect_cases hphase with ⟨unit, hunit, hpoint, -, heq⟩ |
      ⟨operation, -, -, -, hleaves, -, -, heq⟩ | heq
    · rw [heq]
      have hsound := (h.calls call hcall).unit unit hunit
      obtain ⟨row, hrow⟩ := Option.isSome_iff_exists.mp (hsound.closed hpoint)
      exact { kept_commit h hsound hrow with }
    · rw [heq]
      exact kept_of_same (Storage.undisturbed_next hleaves).experiments rfl
    · rw [heq]
      exact kept_of_same rfl rfl

end Steps

/-- The entry is the leaderboard's for the candidate. -/
def EntryOf (w : CompletionWorld) (candidateId : String) (entry : LeaderboardEntry) : Prop :=
  ∃ experiment ∈ w.repository.experiments.rows,
    experiment.id = entry.experimentResultId ∧ experiment.candidateId = candidateId

/-- A candidate has at most one experiment and at most one entry, a completed one names its
experiment, and any other has neither. -/
structure ExactlyOnce (w : CompletionWorld) : Prop where
  experiments : ∀ first ∈ w.repository.experiments.rows, ∀ second ∈ w.repository.experiments.rows,
    first.candidateId = second.candidateId → first = second
  entries : ∀ candidateId, ∀ first ∈ w.entries.rows, ∀ second ∈ w.entries.rows,
    w.EntryOf candidateId first → w.EntryOf candidateId second → first = second
  named : ∀ candidateId row, w.world.stored candidateId = some row → row.status = .completed →
    ∃ experiment ∈ w.repository.experiments.rows, experiment.candidateId = candidateId ∧
      row.experimentResultId = some experiment.id
  nothing : ∀ candidateId row, w.world.stored candidateId = some row → row.status ≠ .completed →
    (∀ experiment ∈ w.repository.experiments.rows, experiment.candidateId ≠ candidateId) ∧
      ∀ entry ∈ w.entries.rows, ¬ w.EntryOf candidateId entry
  owned : ∀ entry ∈ w.entries.rows, ∃ candidateId, w.EntryOf candidateId entry

theorem exactlyOnce (h : Once w) : w.ExactlyOnce := by
  have hsame : ∀ first ∈ w.repository.experiments.rows,
      ∀ second ∈ w.repository.experiments.rows,
        first.candidateId = second.candidateId → first = second := by
    intro first hfirst second hsecond howner
    obtain ⟨row, hrow, hdone⟩ := h.completed first hfirst
    obtain ⟨row', hrow', hdone'⟩ := h.completed second hsecond
    rw [howner, hrow'] at hrow
    cases hrow
    have hid : first.id = second.id :=
      Option.some.inj (hdone.result.symm.trans hdone'.result)
    have hget := Table.get?_of_mem_rows hfirst
    rw [hid, Table.get?_of_mem_rows hsecond] at hget
    exact (Option.some.inj hget).symm
  have hnone : ∀ candidateId row, w.world.stored candidateId = some row →
      row.status ≠ .completed → ∀ experiment ∈ w.repository.experiments.rows,
        experiment.candidateId ≠ candidateId := by
    intro candidateId row hrow hs experiment hexperiment howner
    obtain ⟨found, hfound, hdone⟩ := h.completed experiment hexperiment
    rw [howner, hrow] at hfound
    cases hfound
    exact hs hdone.status
  constructor
  case experiments => exact hsame
  case entries =>
    rintro candidateId first hfirst second hsecond ⟨experiment, hexperiment, hid, howner⟩
      ⟨experiment', hexperiment', hid', howner'⟩
    obtain rfl := hsame experiment hexperiment experiment' hexperiment' (howner.trans howner'.symm)
    exact h.single first hfirst second hsecond (hid.symm.trans hid')
  case named =>
    intro candidateId row hrow hs
    obtain ⟨experiment, hexperiment, hdone⟩ := h.named candidateId row hrow hs
    have hid : row.candidateId = candidateId := Table.key_of_get? hrow
    exact ⟨experiment, hexperiment, hdone.owner.trans hid, hdone.result⟩
  case nothing =>
    intro candidateId row hrow hs
    refine ⟨hnone candidateId row hrow hs, ?_⟩
    rintro entry - ⟨experiment, hexperiment, -, howner⟩
    exact hnone candidateId row hrow hs experiment hexperiment howner
  case owned =>
    intro entry hentry
    obtain ⟨experiment, hexperiment, hid⟩ := h.listed entry hentry
    exact ⟨experiment.candidateId, experiment, hexperiment, hid, rfl⟩

/-- In every run that writes no cancellation over a completed row, every candidate is completed
once: over any calls, crashes, lost answers, lapsed leases and cancellations. -/
theorem completion_exactly_once (steps later : List CompletionStep)
    (h : system.Legal SparesCompleted start (steps ++ later)) :
    (after (steps ++ later)).ExactlyOnce ∧ Kept (after steps) (after (steps ++ later)) := by
  obtain ⟨hbefore, hafter⟩ := GuardedSystem.legal_append.mp h
  have hinv : Once (after steps) :=
    hbefore.invariant Once (fun _ _ hi henabled hc => once_next hi henabled hc) once_start
  have hrun : after (steps ++ later) = system.run (after steps) later :=
    GuardedSystem.run_append start steps later
  constructor
  · exact exactlyOnce
      (h.invariant Once (fun _ _ hi henabled hc => once_next hi henabled hc) once_start)
  · rw [hrun]
    refine hafter.stable Once (Kept (after steps)) ?_ ?_ hinv (kept_of_same rfl rfl)
    · exact fun _ _ hi henabled hc => once_next hi henabled hc
    · exact fun _ _ hi hkept henabled hc => hkept.trans (kept_next hi henabled hc)

namespace Sample

def searched : StoredCandidate :=
  { Backtesting.Sample.candidate with origin := .search, searchRunId := some "r",
                                      iterationNumber := some 1 }

def scope : StoredBenchmarkScope where
  id := "s"
  ownerUserId := "u"
  datasetSnapshotId := "d"
  pairMetadata := ⟨"BTC", "USDT", "USDT"⟩
  sentimentDatasetSnapshot := none
  workerRuntimeVersion := "1.0.0"
  workerRuntimeSha256 := "ab"
  pair := "BTCUSDT"
  timeframe := .h1
  warmupCapacityCandles := 0
  initialCapital := .finite ⟨1000, 0⟩
  feeRatePercent := .finite ⟨0, 0⟩
  slippageBps := .finite ⟨0, 0⟩
  riskPolicy := none
  scoreFormulaId := "f"

/-- A call claims the result and stages an experiment of its own. -/
def staged (token experimentId : String) (now : Int) : List CompletionStep :=
  [.claim token "c" now (now + 60000), .move token .readBack, .move token .readAttempt,
    .move token (.score scope ⟨"f", .finite ⟨5, 0⟩, true⟩), .move token .findExperiment,
    .move token .begin, .move token (.stage experimentId now)]

/-- The first call ends before its commit; the second, after the lease, is admitted and commits. -/
def retried : List CompletionStep :=
  [.operation (.submit searched Backtesting.Sample.dispatch none),
    .operation (.claimWorkerAttempt (Backtesting.Sample.delivery 1 "f" 0)),
    .operation (.persistWorkerSuccess (Backtesting.Sample.success 1 "f" 1000))]
    ++ staged "t" "d" 2000 ++ [.move "t" .crash] ++ staged "k" "e" 70000
    ++ [.move "k" (.lookUp true), .move "k" .rank, .move "k" .evict,
      .move "k" (.insertEntry "n" 71000), .move "k" (.finalize 72000), .move "k" (.commit false),
      .move "k" (.failCompletion none 73000)]

end Sample

/-- The second call's experiment is the only one, and its lost answer undoes nothing. -/
theorem completion_exactly_once_retried :
    ((after Sample.retried).world.stored "c").map (·.experimentResultId) = some (some "e") ∧
      (after (Sample.retried ++ [])).ExactlyOnce ∧
        Kept (after Sample.retried) (after (Sample.retried ++ [])) :=
  ⟨by decide, completion_exactly_once Sample.retried [] (by decide)⟩

end CompletionWorld

end Cryptox.Backtesting
