import Cryptox.Search.Fill

/-!
# Interleaved runs of one search

Fills, pauses, resumptions, cancellations and the error handlers of fills, from any number of
processes, between the operations of everybody else on the candidates. The row lock lets one fill
or one write of the row in at a time; reads wait for nobody.

The rows of the runs are those of the Postgres repository. The in-memory repository of the runs has
no lock and is outside the model. The `Storage` below is Backtesting's, which keeps the candidates.
-/
namespace Cryptox.Search

open Cryptox.Library
open Cryptox.Backtesting (JsNumber Storage World Step StoredCandidate BacktestDispatch
  SearchCandidateSummary summarizeSearchCandidates)

/-- The fingerprint column of a stored candidate, which nothing in Backtesting reads. -/
structure StoredFingerprint where
  candidateId : String
  fingerprint : String
deriving DecidableEq, Repr

structure SearchWorld where
  backtesting : World
  fingerprints : Table StoredFingerprint.candidateId
  /-- The row of the run, once it is started. -/
  run : Option SearchRun
  /-- The rows read so far, whoever read them. -/
  copies : List SearchRun
  /-- The fill that holds the row lock. -/
  fill : Option Fill

/-- A fill's own steps: the answers it waits for, its synchronous parts, its end. -/
inductive FillStep where
  | summarize
  | rank (topScore : Option JsNumber) (now : Int)
  | generate
  | create (candidate : StoredCandidate) (dispatch : BacktestDispatch)
  | accepted
  | rejected (error : String)
  | commit
  /-- An error or a crash: the transaction is rolled back. -/
  | rollback

inductive SearchStep where
  /-- What the other callers of Backtesting do. -/
  | operation (step : Step)
  | start (config : SearchConfig) (ownerUserId : String) (now : Int)
  | read
  | pause (copy : SearchRun) (now : Int)
  | resume (copy : SearchRun) (now : Int)
  /-- A fill has thrown and its error handler has read the row. -/
  | fail (copy : SearchRun) (error : String) (now : Int)
  | cancel (now : Int)
  | lock
  | fill (step : FillStep)

/-- The phase a step of a fill is for. A fill may fail in any. -/
def FillStep.fits : FillStep → Phase → Bool
  | .summarize, .summarizing _ | .rank .., .ranking .. | .generate, .looping
  | .create .., .submitting _ | .accepted, .stored _ | .rejected _, .submitting _
  | .rejected _, .stored _ | .commit, .saving | .commit, .returning | .rollback, _ => true
  | _, _ => false

namespace SearchWorld

def empty : SearchWorld := ⟨World.start, .empty, none, [], none⟩

variable (world : SearchWorld)

/-- The state of the stored row. -/
def state : Option SearchRunState := world.run.map (·.state)

/-- The row is written, by whoever may write it. -/
def save (run : SearchRun) : SearchWorld :=
  { world with run := world.run.map (SearchRun.overwritten · run) }

def fingerprintOf (candidate : StoredCandidate) : Option String :=
  (world.fingerprints.get? candidate.candidateId).map (·.fingerprint)

def withFill (fill : Fill) : SearchWorld := { world with fill := some fill }

/-- A fill takes a step in the phase it is for, and stores what its run asks for. -/
def allows (fill : Fill) (step : FillStep) : Prop :=
  step.fits fill.phase = true ∧
    match step with
    | .create candidate dispatch =>
      Requested fill.run candidate ∧ world.backtesting.enabled (.submit candidate dispatch none)
    | _ => True

/-- The callers' guards: a copy was read, and its state asks for the write. A write waits for the
row lock. Candidates of the run come from its fills. -/
def enabled (searchRunId : String) : SearchStep → Prop
  | .operation step => step.submitsFor searchRunId = false ∧ world.backtesting.enabled step
  | .start .. => world.run = none
  | .read => True
  | .pause copy _ => world.fill = none ∧ copy ∈ world.copies ∧ copy.state = .running
  | .resume copy _ => world.fill = none ∧ copy ∈ world.copies ∧ copy.state = .paused
  | .fail copy .. =>
    world.fill = none ∧ copy ∈ world.copies ∧ (copy.state = .running ∨ copy.state = .paused)
  | .cancel _ | .lock => world.fill = none
  | .fill step => ∃ fill ∈ world.fill, world.allows fill step

instance (fill : Fill) : ∀ step, Decidable (world.allows fill step)
  | .create candidate dispatch =>
    inferInstanceAs (Decidable (_ ∧ Requested fill.run candidate ∧
      world.backtesting.enabled (.submit candidate dispatch none)))
  | .summarize | .rank .. | .generate | .accepted | .rejected _ | .commit | .rollback =>
    inferInstanceAs (Decidable (_ ∧ True))

instance (searchRunId : String) : ∀ step, Decidable (world.enabled searchRunId step)
  | .operation step =>
    inferInstanceAs (Decidable (step.submitsFor searchRunId = false ∧ world.backtesting.enabled step))
  | .start .. => inferInstanceAs (Decidable (world.run = none))
  | .read => inferInstanceAs (Decidable True)
  | .pause copy _ | .resume copy _ | .fail copy .. =>
    inferInstanceAs (Decidable (_ ∧ copy ∈ world.copies ∧ _))
  | .cancel _ | .lock => inferInstanceAs (Decidable (world.fill = none))
  | .fill step => inferInstanceAs (Decidable (∃ fill ∈ world.fill, world.allows fill step))

end SearchWorld

variable (storage : Storage) (generators : Generators) (searchRunId : String)

/-- A submission is stored, and its fingerprint with it, or the iteration is there already. -/
def fillCreates (world : SearchWorld) (fill : Fill) (generated : GeneratedCandidate)
    (candidate : StoredCandidate) (dispatch : BacktestDispatch) : SearchWorld :=
  let created :=
    { world with backtesting := storage.next world.backtesting (.submit candidate dispatch none) }
  match (storage.createQueuedSubmission world.backtesting.repository candidate.submitted dispatch
      none).2 with
  | .error error => created.withFill (fill.retried error)
  | .ok saved =>
    { created with
      fingerprints :=
        if saved.candidateId = candidate.candidateId then
          world.fingerprints.put ⟨candidate.candidateId, generated.fingerprint⟩
        else world.fingerprints
      fill := some { fill with phase := .stored generated } }

def fillNext (world : SearchWorld) (fill : Fill) (step : FillStep) : SearchWorld :=
  match step, fill.phase with
  | .summarize, .summarizing again =>
    world.withFill (fill.summarized again
      (summarizeSearchCandidates world.backtesting.repository fill.run.searchRunId
        fill.run.ownerUserId))
  | .rank topScore now, .ranking again summary =>
    world.withFill (fill.ranked generators again summary topScore now)
  | .generate, .looping => world.withFill (fill.generated generators)
  | .create candidate dispatch, .submitting generated =>
    fillCreates storage world fill generated candidate dispatch
  | .accepted, .stored generated => world.withFill (fill.accepted generated)
  | .rejected error, .submitting _ | .rejected error, .stored _ => world.withFill (fill.retried error)
  | .commit, .saving => { world.save fill.run with fill := none }
  | .commit, .returning | .rollback, _ => { world with fill := none }
  | _, _ => world

def searchNext (world : SearchWorld) : SearchStep → SearchWorld
  | .operation step => { world with backtesting := storage.next world.backtesting step }
  | .start config ownerUserId now =>
    match start searchRunId config ownerUserId now with
    | .ok run => { world with run := some run }
    | .error _ => world
  | .read => { world with copies := world.run.toList ++ world.copies }
  | .pause copy now => world.save (copy.pausedAt now)
  | .resume copy now => world.save (copy.resumedAt now)
  | .fail copy error now => world.save (copy.failedAt error now)
  | .cancel now =>
    match world.run with
    | none => world
    | some run =>
      -- only these two are left alone: a completed run is cancelled
      if run.state = .cancelled ∨ run.state = .failed then world else world.save (run.cancelledAt now)
  | .lock =>
    match world.run with
    | none => world
    | some run => world.withFill (Fill.ofRun run)
  | .fill step =>
    match world.fill with
    | none => world
    | some fill => fillNext storage generators world fill step

def searchSystem : GuardedSystem SearchWorld SearchStep where
  enabled := fun world step => world.enabled searchRunId step
  next := searchNext storage generators searchRunId

instance (world : SearchWorld) (step : SearchStep) :
    Decidable ((searchSystem storage generators searchRunId).enabled world step) :=
  inferInstanceAs (Decidable (world.enabled searchRunId step))

/-- The search after a run from nothing stored. -/
def searchAfter (steps : List SearchStep) : SearchWorld :=
  (searchSystem storage generators searchRunId).run SearchWorld.empty steps

/-- What a step of a fill can do, phase by phase. -/
inductive FillMoved (world : SearchWorld) (fill : Fill) : FillStep → SearchWorld → Prop
  | summarized (again : Bool) (phase : fill.phase = .summarizing again) :
      FillMoved world fill .summarize
        (world.withFill (fill.summarized again
          (summarizeSearchCandidates world.backtesting.repository fill.run.searchRunId
            fill.run.ownerUserId)))
  | ranked {topScore : Option JsNumber} {now : Int} (again : Bool)
      (summary : SearchCandidateSummary) (phase : fill.phase = .ranking again summary) :
      FillMoved world fill (.rank topScore now)
        (world.withFill (fill.ranked generators again summary topScore now))
  | generated (phase : fill.phase = .looping) :
      FillMoved world fill .generate (world.withFill (fill.generated generators))
  | created {candidate : StoredCandidate} {dispatch : BacktestDispatch}
      (generated : GeneratedCandidate) (phase : fill.phase = .submitting generated)
      (requested : Requested fill.run candidate)
      (fresh : world.backtesting.enabled (.submit candidate dispatch none)) :
      FillMoved world fill (.create candidate dispatch)
        (fillCreates storage world fill generated candidate dispatch)
  | accepted (generated : GeneratedCandidate) (phase : fill.phase = .stored generated) :
      FillMoved world fill .accepted (world.withFill (fill.accepted generated))
  | rejected {error : String} (generated : GeneratedCandidate)
      (phase : fill.phase = .submitting generated ∨ fill.phase = .stored generated) :
      FillMoved world fill (.rejected error) (world.withFill (fill.retried error))
  | saved (phase : fill.phase = .saving) :
      FillMoved world fill .commit { world.save fill.run with fill := none }
  | returned (phase : fill.phase = .returning) :
      FillMoved world fill .commit { world with fill := none }
  | rolledBack : FillMoved world fill .rollback { world with fill := none }

variable {storage} {generators} {searchRunId}

theorem fillNext_moved {world : SearchWorld} {fill : Fill} {step : FillStep}
    (h : world.allows fill step) :
    FillMoved storage generators world fill step (fillNext storage generators world fill step) := by
  obtain ⟨hfits, hstep⟩ := h
  cases step <;> cases hphase : fill.phase <;> simp only [hphase, FillStep.fits, reduceCtorEq] at hfits
  case summarize.summarizing again =>
    simp only [fillNext, hphase]
    exact .summarized again hphase
  case rank.ranking again summary =>
    simp only [fillNext, hphase]
    exact .ranked again summary hphase
  case generate.looping =>
    simp only [fillNext, hphase]
    exact .generated hphase
  case create.submitting generated =>
    simp only [fillNext, hphase]
    exact .created generated hphase hstep.1 hstep.2
  case accepted.stored generated =>
    simp only [fillNext, hphase]
    exact .accepted generated hphase
  case rejected.submitting generated =>
    simp only [fillNext, hphase]
    exact .rejected generated (Or.inl hphase)
  case rejected.stored generated =>
    simp only [fillNext, hphase]
    exact .rejected generated (Or.inr hphase)
  case commit.saving =>
    simp only [fillNext, hphase]
    exact .saved hphase
  case commit.returning =>
    simp only [fillNext, hphase]
    exact .returned hphase
  all_goals
    simp only [fillNext]
    exact .rolledBack

/-- The row that a step outside the fills writes, and the copy it is made from. -/
inductive WritesRow (world : SearchWorld) : SearchStep → SearchRun → SearchRun → Prop
  | paused {copy : SearchRun} {now : Int} (read : copy ∈ world.copies)
      (running : copy.state = .running) : WritesRow world (.pause copy now) copy (copy.pausedAt now)
  | resumed {copy : SearchRun} {now : Int} (read : copy ∈ world.copies)
      (paused : copy.state = .paused) : WritesRow world (.resume copy now) copy (copy.resumedAt now)
  | failed {copy : SearchRun} {error : String} {now : Int} (read : copy ∈ world.copies)
      (live : copy.state = .running ∨ copy.state = .paused) :
      WritesRow world (.fail copy error now) copy (copy.failedAt error now)
  | cancelled {now : Int} {run : SearchRun} (stored : world.run = some run)
      (open' : run.state ≠ .cancelled ∧ run.state ≠ .failed) :
      WritesRow world (.cancel now) run (run.cancelledAt now)

variable (storage) (generators) (searchRunId) in
/-- What a step can do. -/
inductive Moved (world : SearchWorld) : SearchStep → SearchWorld → Prop
  | operated {step : Step} (other : step.submitsFor searchRunId = false)
      (enabled : world.backtesting.enabled step) :
      Moved world (.operation step)
        { world with backtesting := storage.next world.backtesting step }
  | started {config : SearchConfig} {ownerUserId : String} {now : Int} {run : SearchRun}
      (fresh : world.run = none) (answer : start searchRunId config ownerUserId now = .ok run) :
      Moved world (.start config ownerUserId now) { world with run := some run }
  | nothing {step : SearchStep} : Moved world step world
  | read : Moved world .read { world with copies := world.run.toList ++ world.copies }
  | wrote {step : SearchStep} {copy run : SearchRun} (unlocked : world.fill = none)
      (writes : WritesRow world step copy run) : Moved world step (world.save run)
  | locked {run : SearchRun} (unlocked : world.fill = none) (stored : world.run = some run) :
      Moved world .lock (world.withFill (Fill.ofRun run))
  | filled {fill : Fill} {step : FillStep} {later : SearchWorld} (holds : world.fill = some fill)
      (moved : FillMoved storage generators world fill step later) : Moved world (.fill step) later

theorem searchNext_moved {world : SearchWorld} {step : SearchStep}
    (h : world.enabled searchRunId step) :
    Moved storage generators searchRunId world step
      (searchNext storage generators searchRunId world step) := by
  cases step with
  | operation step => exact .operated h.1 h.2
  | start config ownerUserId now =>
    simp only [searchNext]
    split
    next run hrun => exact .started h hrun
    next => exact .nothing
  | read => exact .read
  | pause copy now => exact .wrote h.1 (.paused h.2.1 h.2.2)
  | resume copy now => exact .wrote h.1 (.resumed h.2.1 h.2.2)
  | fail copy error now => exact .wrote h.1 (.failed h.2.1 h.2.2)
  | cancel now =>
    simp only [searchNext]
    split
    next => exact .nothing
    next run hrun =>
      split
      next => exact .nothing
      next hopen => exact .wrote h (.cancelled hrun (not_or.mp hopen))
  | lock =>
    simp only [searchNext]
    split
    next => exact .nothing
    next run hrun => exact .locked h hrun
  | fill step =>
    obtain ⟨fill, hfill, hallowed⟩ := h
    rw [Option.mem_def] at hfill
    simp only [searchNext, hfill]
    exact .filled hfill (fillNext_moved hallowed)

theorem started_run {config : SearchConfig} {ownerUserId : String} {now : Int} {run : SearchRun}
    (h : start searchRunId config ownerUserId now = .ok run) :
    run = createRun searchRunId config ownerUserId now := by
  unfold start at h
  cases hvalid : validateStopCondition config.stopCondition with
  | error error =>
    rw [hvalid] at h
    cases h
  | ok _ =>
    rw [hvalid] at h
    dsimp only [bind, Except.bind] at h
    split at h
    · cases h
    · cases h
      rfl

theorem searchAfter_append (before later : List SearchStep) :
    searchAfter storage generators searchRunId (before ++ later) =
      (searchSystem storage generators searchRunId).run
        (searchAfter storage generators searchRunId before) later :=
  GuardedSystem.run_append SearchWorld.empty before later

/-- Every reachable world satisfies what holds at first and is kept by each move. -/
theorem searchAfter_invariant (inv : SearchWorld → Prop) {cond : SearchWorld → SearchStep → Prop}
    (hempty : inv SearchWorld.empty)
    (hmoved : ∀ world step later, inv world → cond world step →
      Moved storage generators searchRunId world step later → inv later)
    {steps : List SearchStep}
    (h : (searchSystem storage generators searchRunId).Legal cond SearchWorld.empty steps) :
    inv (searchAfter storage generators searchRunId steps) :=
  h.invariant inv (fun _ _ hinv henabled hc => hmoved _ _ _ hinv hc (searchNext_moved henabled))
    hempty

/-! What a fill keeps of its run, and the columns that no write names. -/

/-- The columns set at the start. -/
structure FixedColumns where
  searchRunId : String
  ownerUserId : String
  leaderboardScopeId : String
  generatorType : GeneratorType
  stopCondition : StopCondition
  maxInFlight : Nat

def SearchRun.fixed (run : SearchRun) : FixedColumns :=
  ⟨run.searchRunId, run.ownerUserId, run.leaderboardScopeId, run.generatorType, run.stopCondition,
    run.maxInFlight⟩

/-- The progress of a run: how far the iterations are, and what was generated. -/
def SearchRun.progress (run : SearchRun) : Nat × List String :=
  (run.nextIteration, run.searchSpace.generatedFingerprints)

@[simp] theorem overwritten_fixed (stored run : SearchRun) :
    (stored.overwritten run).fixed = stored.fixed := rfl

@[simp] theorem overwritten_progress (stored run : SearchRun) :
    (stored.overwritten run).progress = run.progress := rfl

@[simp] theorem overwritten_state (stored run : SearchRun) :
    (stored.overwritten run).state = run.state := rfl

theorem run_save {world : SearchWorld} {stored : SearchRun} (h : world.run = some stored)
    (run : SearchRun) : (world.save run).run = some (stored.overwritten run) := by
  rw [SearchWorld.save, h]
  rfl

theorem WritesRow.progress {world : SearchWorld} {step : SearchStep} {copy run : SearchRun}
    (h : WritesRow world step copy run) : run.progress = copy.progress := by
  cases h <;> rfl

theorem refresh_kept (run : SearchRun) (summary : SearchCandidateSummary)
    (topScore : Option JsNumber) (now : Int) :
    (refresh run summary topScore now).fixed = run.fixed ∧
      (refresh run summary topScore now).progress = run.progress ∧
      (refresh run summary topScore now).state = run.state ∧
      inFlight (refresh run summary topScore now) = summary.queuedCount + summary.runningCount := by
  unfold refresh
  cases topScore with
  | none => exact ⟨rfl, rfl, rfl, rfl⟩
  | some score =>
    dsimp only
    split <;> exact ⟨rfl, rfl, rfl, rfl⟩

theorem completeIfDrained_kept (run : SearchRun) (met : Option StopReason) (now : Int) :
    (completeIfDrained run met now).fixed = run.fixed ∧
      (completeIfDrained run met now).progress = run.progress := by
  unfold completeIfDrained
  cases met with
  | none => exact ⟨rfl, rfl⟩
  | some reason =>
    dsimp only
    split <;> exact ⟨rfl, rfl⟩

namespace Fill

variable (fill : Fill)

theorem summarized_kept (again : Bool) (answer : Except String SearchCandidateSummary) :
    (fill.summarized again answer).run = fill.run := by
  cases answer <;> rfl

theorem retried_kept (error : String) : (fill.retried error).run = fill.run := by
  unfold retried
  split <;> rfl

theorem exited_kept : fill.exited.run = fill.run := by
  unfold exited
  split <;> rfl

theorem generated_kept : (fill.generated generators).run = fill.run := by
  unfold generated
  split
  · dsimp only
    split
    · rfl
    · split
      · exact retried_kept _ _
      · split <;> rfl
  · exact exited_kept fill

theorem ranked_kept (again : Bool) (summary : SearchCandidateSummary) (topScore : Option JsNumber)
    (now : Int) : (fill.ranked generators again summary topScore now).run.fixed = fill.run.fixed ∧
      (fill.ranked generators again summary topScore now).run.progress = fill.run.progress := by
  obtain ⟨hfixed, hprogress, -, -⟩ := refresh_kept fill.run summary topScore now
  rw [← hfixed, ← hprogress]
  unfold ranked
  generalize refresh fill.run summary topScore now = run
  cases again with
  | true => exact completeIfDrained_kept run (stopReason run now) now
  | false =>
    simp only [planned, Bool.false_eq_true, ↓reduceIte]
    split
    next met _ => exact completeIfDrained_kept run (some met) now
    next => split <;> exact ⟨rfl, rfl⟩

end Fill

variable (storage) in
/-- What storing a submission leaves of the search: the fill goes on with it, or retries. -/
structure FillCreated (world : SearchWorld) (fill : Fill) (generated : GeneratedCandidate)
    (candidate : StoredCandidate) (dispatch : BacktestDispatch) (later : SearchWorld) : Prop where
  run : later.run = world.run
  copies : later.copies = world.copies
  backtesting : later.backtesting =
    storage.next world.backtesting (.submit candidate dispatch none)
  goesOn : later.fill = some { fill with phase := .stored generated } ∨
    ∃ error, later.fill = some (fill.retried error)
  fingerprints : later.fingerprints = world.fingerprints ∨
    later.fingerprints = world.fingerprints.put ⟨candidate.candidateId, generated.fingerprint⟩
  answered : (storage.createQueuedSubmission world.backtesting.repository candidate.submitted
      dispatch none).2 = .ok candidate.submitted →
    later.fill = some { fill with phase := .stored generated } ∧
      later.fingerprints = world.fingerprints.put ⟨candidate.candidateId, generated.fingerprint⟩
  refused : ∀ error, (storage.createQueuedSubmission world.backtesting.repository
      candidate.submitted dispatch none).2 = .error error → later.fill = some (fill.retried error)

theorem fillCreates_created (storage : Storage) (world : SearchWorld) (fill : Fill)
    (generated : GeneratedCandidate) (candidate : StoredCandidate) (dispatch : BacktestDispatch) :
    FillCreated storage world fill generated candidate dispatch
      (fillCreates storage world fill generated candidate dispatch) := by
  unfold fillCreates
  split
  next error herror =>
    refine ⟨rfl, rfl, rfl, Or.inr ⟨error, rfl⟩, Or.inl rfl, fun hok => ?_, fun other hother => ?_⟩
    · rw [herror] at hok
      cases hok
    · rw [herror] at hother
      cases hother
      rfl
  next saved hsaved =>
    refine ⟨rfl, rfl, rfl, Or.inl rfl, ?_, fun hok => ⟨rfl, ?_⟩, fun other hother => ?_⟩
    · dsimp only
      split
      · exact Or.inr rfl
      · exact Or.inl rfl
    · rw [hsaved] at hok
      cases hok
      exact if_pos rfl
    · rw [hsaved] at hother
      cases hother

/-- What a fill is about to submit is not recorded. -/
theorem fillMoved_fresh {world later : SearchWorld} {fill fill' : Fill} {step : FillStep}
    (h : FillMoved storage generators world fill step later) (hlater : later.fill = some fill') :
    ∀ generated, fill'.phase = .submitting generated →
      generated.fingerprint ∉ fill'.run.searchSpace.generatedFingerprints := by
  have hretried : ∀ (fill : Fill) (error : String) (generated : GeneratedCandidate),
      (fill.retried error).phase ≠ .submitting generated := by
    intro fill error
    unfold Fill.retried
    split <;> nofun
  cases h with
  | summarized again =>
    cases hlater
    unfold Fill.summarized
    split <;> nofun
  | ranked again summary =>
    cases hlater
    unfold Fill.ranked
    cases again with
    | true => nofun
    | false =>
      simp only [Bool.false_eq_true, ↓reduceIte, Fill.planned]
      split
      · nofun
      · split <;> nofun
  | generated hphase =>
    cases hlater
    unfold Fill.generated
    split
    · dsimp only
      split
      · nofun
      · split
        next error _ =>
          exact fun generated hs =>
            absurd hs (hretried { fill with attempts := fill.attempts + 1 } error generated)
        next candidate _ =>
          split
          next =>
            rw [hphase]
            nofun
          next hnew =>
            intro generated hs
            cases hs
            exact hnew
    · unfold Fill.exited
      split <;> nofun
  | @created candidate dispatch generated =>
    rcases (fillCreates_created storage world fill generated candidate dispatch).goesOn with
      hstored | ⟨error, hretry⟩
    · rw [hstored] at hlater
      cases hlater
      nofun
    · rw [hretry] at hlater
      cases hlater
      exact fun generated hs => absurd hs (hretried fill error generated)
  | accepted =>
    cases hlater
    nofun
  | @rejected error generated =>
    cases hlater
    exact fun generated hs => absurd hs (hretried fill error generated)
  | saved | returned | rolledBack => cases hlater

/-! A run of two candidates, one of them in flight at a time, and the steps of its fills. -/
namespace Sample

def config (maxInFlight : Nat) : SearchConfig where
  searchSpace := ⟨[Backtesting.Sample.definition], []⟩
  stopCondition := ⟨some 2, none, none⟩
  generatorType := .random
  leaderboardScopeId := "s"
  maxInFlight

/-- Every iteration has a fingerprint of its own. -/
def numbered : Generators := fun _ => some fun _ context =>
  .ok ⟨if context.iterationNumber = 1 then "A" else if context.iterationNumber = 2 then "B" else "C"⟩

def candidate (candidateId : String) (iteration : Nat) : StoredCandidate :=
  { Backtesting.Sample.candidate with
    candidateId
    origin := .search
    searchRunId := some "r"
    iterationNumber := some iteration
    maxAttempts := 1
    queueJobId := candidateId }

def dispatch (candidateId : String) : BacktestDispatch :=
  { Backtesting.Sample.dispatch with
    job := { Backtesting.Sample.dispatch.job with jobId := candidateId, candidateId } }

/-- The run is locked, refreshed and its slots are counted. -/
def planning : List SearchStep := [.lock, .fill .summarize, .fill (.rank none 0)]

def submission (candidateId : String) (iteration : Nat) : List SearchStep :=
  [.fill .generate, .fill (.create (candidate candidateId iteration) (dispatch candidateId)),
    .fill .accepted]

/-- The loop is left, the run refreshed again and saved. -/
def saving : List SearchStep :=
  [.fill .generate, .fill .summarize, .fill (.rank none 0), .fill .commit]

end Sample

end Cryptox.Search
