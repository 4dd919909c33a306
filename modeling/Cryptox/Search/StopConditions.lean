import Cryptox.Search.InFlight
import Cryptox.Search.Progress

/-!
# Met stop conditions

`stopReason` is asked at every refresh of a fill. Active time and submitted iterations only grow, and
so does the number of tested candidates; but a candidate that was in flight may still improve the
best score, and then a run that had stopped improving goes on.
-/
namespace Cryptox.Search

open Cryptox.Library
open Cryptox.Backtesting (Storage World Step StoredCandidate BacktestDispatch SearchCandidateSummary
  JsNumber LeavesTerminal terminal summarizeSearchCandidates)

/-- The reading of the clock that a step takes. -/
def SearchStep.now : SearchStep → Option Int
  | .start _ _ now | .pause _ now | .resume _ now | .fail _ _ now | .cancel now
  | .fill (.rank _ now) => some now
  | _ => none

/-- A search, the latest reading of the clock, and whether a fill has thrown whose error handler has
yet to answer. -/
structure TimedSearch where
  search : SearchWorld
  clock : Int
  thrown : Bool

section System

variable (storage : Storage) (generators : Generators) (searchRunId : String)

/-- The clock never goes back. -/
def timedSystem : GuardedSystem TimedSearch SearchStep where
  enabled := fun timed step =>
    timed.search.enabled searchRunId step ∧ ∀ now ∈ step.now, timed.clock ≤ now
  next := fun timed step =>
    { search := searchNext storage generators searchRunId timed.search step
      clock := step.now.getD timed.clock
      thrown := match step with
        | .fill .rollback => true
        | .fail .. => false
        | _ => timed.thrown }

instance (timed : TimedSearch) (step : SearchStep) :
    Decidable ((timedSystem storage generators searchRunId).enabled timed step) :=
  inferInstanceAs (Decidable (_ ∧ ∀ now ∈ step.now, timed.clock ≤ now))

def timedAfter (clock : Int) (steps : List SearchStep) : TimedSearch :=
  (timedSystem storage generators searchRunId).run ⟨SearchWorld.empty, clock, false⟩ steps

end System

/-- The step cancels a candidate. -/
def cancelsCandidate : Step → Bool
  | .cancel .. => true
  | _ => false

def Phase.throws : Phase → Bool
  | .throwing _ => true
  | _ => false

/-- Whole fills, pauses and resumptions one after the other, between what others do with the
candidates short of cancelling them: a pause or a resumption writes the row it has just read, a fill
ends by saving or by throwing, a submission that is rejected has stored no candidate, and a throw is
answered by its error handler. -/
def Orderly (timed : TimedSearch) : SearchStep → Prop
  | .operation step => cancelsCandidate step = false
  | .pause copy _ | .resume copy _ => timed.search.run = some copy ∧ timed.thrown = false
  | .fail copy .. => timed.search.run = some copy ∧ timed.thrown = true
  | .lock => timed.thrown = false
  | .cancel _ => False
  | .fill .rollback => ∀ fill ∈ timed.search.fill, fill.phase.throws = true
  | .fill (.rejected _) => ∀ fill ∈ timed.search.fill, fill.phase.unrecorded = []
  | _ => True

instance (timed : TimedSearch) : ∀ step, Decidable (Orderly timed step)
  | .operation step => inferInstanceAs (Decidable (cancelsCandidate step = false))
  | .pause copy _ | .resume copy _ | .fail copy .. =>
    inferInstanceAs (Decidable (timed.search.run = some copy ∧ _))
  | .lock => inferInstanceAs (Decidable (timed.thrown = false))
  | .cancel _ => inferInstanceAs (Decidable False)
  | .fill .rollback | .fill (.rejected _) =>
    inferInstanceAs (Decidable (∀ fill ∈ timed.search.fill, _))
  | .start .. | .read | .fill .summarize | .fill (.rank ..) | .fill .generate | .fill (.create ..)
  | .fill .accepted | .fill .commit => inferInstanceAs (Decidable True)

/-- What a fill asks a stop condition of: its run refreshed, and the time. -/
def asked (world : SearchWorld) : SearchStep → Option (SearchRun × Int)
  | .fill (.rank topScore now) =>
    world.fill.bind fun fill =>
      match fill.phase with
      | .ranking _ summary => some (refresh fill.run summary topScore now, now)
      | _ => none
  | _ => none

/-- The first of the ranking beats the best score the run had. -/
def improves (world : SearchWorld) : SearchStep → Bool
  | .fill (.rank (some score) _) =>
    world.fill.any fun fill => fill.run.bestScore.all fun best => best.lt score
  | _ => false

/-- No improvement is found as long as only that is what the run has stopped for. -/
def Steady (reason : StopReason) (timed : TimedSearch) (step : SearchStep) : Prop :=
  Orderly timed step ∧ (reason = .noImprovement → improves timed.search step = false)

instance (reason : StopReason) (timed : TimedSearch) (step : SearchStep) :
    Decidable (Steady reason timed step) :=
  inferInstanceAs (Decidable (Orderly timed step ∧ (_ → _)))

def elapsed (run : SearchRun) (now : Int) : Int :=
  run.activeDurationMs + run.activeSince.elim 0 (now - ·)

/-- The stop condition is met by what a run cannot lose: active time from the clock's reading on,
iterations submitted, candidates tested without an improvement. -/
def Met (tested : Nat) (clock : Int) (run : SearchRun) : StopReason → Prop
  | .maxDuration => ∃ seconds, run.stopCondition.maxDurationSeconds = some seconds ∧
      ∀ now, clock ≤ now → (seconds : Int) * 1000 ≤ elapsed run now
  | .maxCandidates => ∃ maxCandidates, run.stopCondition.maxCandidates = some maxCandidates ∧
      maxCandidates ≤ run.nextIteration - 1
  | .noImprovement => ∃ iterations last,
      run.stopCondition.noImprovementAfterIterations = some iterations ∧ run.bestScore.isSome ∧
      run.lastImprovementAtCandidates = some last ∧ iterations + last ≤ tested
  | .userCancelled | .error => False

section Meeting

variable {tested : Nat} {clock now : Int} {run : SearchRun} {reason : StopReason}

theorem met_of_stopReason (h : stopReason run now = some reason)
    (hreserved : reserved run = run.nextIteration - 1) : Met run.candidatesTested now run reason := by
  unfold stopReason at h
  dsimp only at h
  split at h
  next hduration =>
    cases h
    obtain ⟨seconds, hseconds, hpast⟩ := (Option.any_eq_true _ _).mp hduration
    refine ⟨seconds, hseconds, fun later hlater => ?_⟩
    have hpast : (seconds : Int) * 1000 ≤ elapsed run now := of_decide_eq_true hpast
    refine hpast.trans ?_
    unfold elapsed
    cases run.activeSince with
    | none => exact le_refl _
    | some since =>
      simp only [Option.elim_some]
      omega
  next =>
    split at h
    next hcandidates =>
      cases h
      obtain ⟨maxCandidates, hmax, hle⟩ := (Option.any_eq_true _ _).mp hcandidates
      refine ⟨maxCandidates, hmax, ?_⟩
      rw [← hreserved]
      exact of_decide_eq_true hle
    next =>
      split at h
      next hstale =>
        cases h
        obtain ⟨iterations, hiterations, hboth⟩ := (Option.any_eq_true _ _).mp hstale
        obtain ⟨hscored, hlast⟩ := Bool.and_eq_true_iff.mp hboth
        obtain ⟨last, hstored, hle⟩ := (Option.any_eq_true _ _).mp hlast
        exact ⟨iterations, last, hiterations, hscored, hstored, of_decide_eq_true hle⟩
      next => cases h

/-- What is met is found at every later time, though perhaps behind another condition. -/
theorem stopReason_of_met (h : Met tested clock run reason) (htested : tested ≤ run.candidatesTested)
    (hnow : clock ≤ now) : ∃ first, stopReason run now = some first := by
  unfold stopReason
  dsimp only
  split
  next => exact ⟨_, rfl⟩
  next hduration =>
    split
    next => exact ⟨_, rfl⟩
    next hcandidates =>
      split
      next => exact ⟨_, rfl⟩
      next hstale =>
        exfalso
        cases reason with
        | maxDuration =>
          obtain ⟨seconds, hseconds, hpast⟩ := h
          rw [hseconds, Option.any_some, decide_eq_true_eq] at hduration
          exact hduration (hpast now hnow)
        | maxCandidates =>
          obtain ⟨maxCandidates, hmax, hle⟩ := h
          rw [hmax, Option.any_some, decide_eq_true_eq] at hcandidates
          exact hcandidates (hle.trans (Nat.le_max_right _ _))
        | noImprovement =>
          obtain ⟨iterations, last, hiterations, hscored, hlast, hle⟩ := h
          rw [hiterations, Option.any_some, hscored, hlast, Option.any_some, Bool.true_and,
            decide_eq_true_eq] at hstale
          exact hstale (hle.trans htested)
        | userCancelled => exact h
        | error => exact h

theorem Met.later {clock' : Int} (h : Met tested clock run reason) (hclock : clock ≤ clock') :
    Met tested clock' run reason := by
  cases reason with
  | maxDuration =>
    obtain ⟨seconds, hseconds, hpast⟩ := h
    exact ⟨seconds, hseconds, fun now hnow => hpast now (hclock.trans hnow)⟩
  | maxCandidates | noImprovement | userCancelled | error => exact h

/-- Only the condition, the iterations and the best score count beside the active time. -/
theorem Met.congr {run' : SearchRun} (h : Met tested clock run reason)
    (hcondition : run'.stopCondition = run.stopCondition)
    (helapsed : ∀ now, clock ≤ now → elapsed run now ≤ elapsed run' now)
    (hnext : run.nextIteration ≤ run'.nextIteration)
    (hscore : reason = .noImprovement → run'.bestScore = run.bestScore ∧
      run'.lastImprovementAtCandidates = run.lastImprovementAtCandidates) :
    Met tested clock run' reason := by
  cases reason with
  | maxDuration =>
    obtain ⟨seconds, hseconds, hpast⟩ := h
    exact ⟨seconds, hcondition ▸ hseconds, fun now hnow =>
      (hpast now hnow).trans (helapsed now hnow)⟩
  | maxCandidates =>
    obtain ⟨maxCandidates, hmax, hle⟩ := h
    exact ⟨maxCandidates, hcondition ▸ hmax, hle.trans (Nat.sub_le_sub_right hnext 1)⟩
  | noImprovement =>
    obtain ⟨iterations, last, hiterations, hscored, hlast, hle⟩ := h
    obtain ⟨hbest, himproved⟩ := hscore rfl
    exact ⟨iterations, last, hcondition ▸ hiterations, hbest ▸ hscored, himproved.trans hlast, hle⟩
  | userCancelled => exact h
  | error => exact h

theorem Met.refreshed (h : Met tested clock run reason) (summary : SearchCandidateSummary)
    (topScore : Option JsNumber) (now : Int)
    (hsteady : reason = .noImprovement → ∀ score ∈ topScore,
      run.bestScore.all (fun best => best.lt score) = false) :
    Met tested clock (refresh run summary topScore now) reason := by
  unfold refresh
  cases topScore with
  | none => exact h.congr rfl (fun _ _ => le_refl _) (le_refl _) fun _ => ⟨rfl, rfl⟩
  | some score =>
    dsimp only
    split
    next hbetter =>
      refine h.congr rfl (fun _ _ => le_refl _) (le_refl _) fun hreason => ?_
      rw [hsteady hreason score rfl] at hbetter
      cases hbetter
    next => exact h.congr rfl (fun _ _ => le_refl _) (le_refl _) fun _ => ⟨rfl, rfl⟩

theorem Met.completed (h : Met tested clock run reason) (met : Option StopReason) (now : Int) :
    Met tested clock (completeIfDrained run met now) reason := by
  unfold completeIfDrained
  cases met with
  | none => exact h
  | some first =>
    dsimp only
    split
    next => exact h.congr rfl (fun _ _ => le_refl _) (le_refl _) fun _ => ⟨rfl, rfl⟩
    next => exact h

/-- A pause keeps the active time that it finds. -/
theorem Met.paused (h : Met tested clock run reason) (hnow : clock ≤ now) :
    Met tested now (run.pausedAt now) reason := by
  cases reason with
  | maxDuration =>
    obtain ⟨seconds, hseconds, hpast⟩ := h
    refine ⟨seconds, hseconds, fun later _ => ?_⟩
    have hkept : elapsed (run.pausedAt now) later = elapsed run now := Int.add_zero _
    rw [hkept]
    exact hpast now hnow
  | maxCandidates | noImprovement | userCancelled | error => exact h

theorem Met.resumed (h : Met tested clock run reason) (hidle : run.activeSince = none)
    (hnow : clock ≤ now) : Met tested now (run.resumedAt now) reason := by
  refine (h.later hnow).congr rfl (fun later hlater => ?_) (le_refl _) fun _ => ⟨rfl, rfl⟩
  simp only [elapsed, hidle, SearchRun.resumedAt, Option.elim_none, Option.elim_some]
  omega

theorem Met.overwritten (h : Met tested clock run reason) {stored : SearchRun}
    (hfixed : run.fixed = stored.fixed) : Met tested clock (stored.overwritten run) reason :=
  h.congr (congrArg FixedColumns.stopCondition hfixed).symm (fun _ _ => le_refl _) (le_refl _)
    fun _ => ⟨rfl, rfl⟩

end Meeting

/-! What whole fills keep of the candidates. -/

/-- The candidates of the run that are completed or failed. -/
def testedCount (world : World) (searchRunId : String) : Nat :=
  (world.ofRun searchRunId).countP fun candidate =>
    candidate.status == .completed || candidate.status == .failed

def NoneCancelled (world : World) : Prop :=
  ∀ candidateId candidate, world.stored candidateId = some candidate →
    candidate.status ≠ .cancelled

section Candidates

variable {storage : Storage} {world : World} {step : Step} {searchRunId : String}

theorem leavesTerminal_of_uncancelled (h : NoneCancelled world)
    (hstep : cancelsCandidate step = false) : LeavesTerminal world step := by
  cases step with
  | cancel => cases hstep
  | failCompletion copy => exact fun candidate hstored hs => absurd hs (h _ _ hstored)
  | _ => trivial

theorem noneCancelled_next (h : NoneCancelled world) (hstep : cancelsCandidate step = false) :
    NoneCancelled (storage.next world step) := by
  refine Storage.rows_next h fun row attempt trades hwrite => ?_
  cases hwrite with
  | submitted | claimed | persisted | repaired | completionFinalized | terminalFailureFinalized =>
    nofun
  | persistedAudit retryAt hfenced hcancelled | failedAudit kind code error hfenced hcancelled =>
    exact absurd hcancelled (h _ _ hfenced.candidate_stored)
  | @failed input => cases input.retrying <;> nofun
  | recovered retrying => cases retrying <;> nofun
  | completionClaimed hstored =>
    have hstatus := h _ _ hstored
    exact hstatus
  | completionFailed =>
    show (if _ then Backtesting.CandidateStatus.failed else .processingResult) ≠ .cancelled
    split <;> nofun
  | cancelled => cases hstep

/-- Where none is cancelled, a candidate is tested or alive. -/
theorem tested_add_live (h : NoneCancelled world) (searchRunId : String) :
    testedCount world searchRunId + world.liveCount searchRunId =
      (world.ofRun searchRunId).length := by
  have hstatus : ∀ candidate ∈ world.ofRun searchRunId, candidate.status ≠ .cancelled :=
    fun candidate hmem => h _ _ (Table.get?_of_mem_rows (World.mem_ofRun.mp hmem).1)
  unfold testedCount World.liveCount
  generalize world.ofRun searchRunId = candidates at hstatus
  induction candidates with
  | nil => rfl
  | cons candidate rest ih =>
    have hrest := ih fun candidate hmem => hstatus candidate (List.mem_cons_of_mem _ hmem)
    have hcandidate := hstatus candidate List.mem_cons_self
    simp only [List.countP_cons, List.length_cons] at hrest ⊢
    cases hs : candidate.status <;> simp_all [terminal] <;> omega

theorem length_next (storage : Storage) (hsourced : world.Sourced) (henabled : world.enabled step)
    (hother : step.submitsFor searchRunId = false) :
    ((storage.next world step).ofRun searchRunId).length = (world.ofRun searchRunId).length := by
  have hsubmissions := Storage.submissions_next storage hsourced henabled hother
  have hlength := congrArg List.length hsubmissions
  rwa [List.length_map, List.length_map] at hlength

theorem testedCount_next (storage : Storage) (hsourced : world.Sourced)
    (hrows : Storage.RowsInv world) (huncancelled : NoneCancelled world)
    (henabled : world.enabled step) (hstep : cancelsCandidate step = false)
    (hother : step.submitsFor searchRunId = false) :
    testedCount world searchRunId ≤ testedCount (storage.next world step) searchRunId := by
  have hlive := Storage.liveCount_next storage hsourced hrows henabled
    (leavesTerminal_of_uncancelled huncancelled hstep) hother
  have hlength := length_next storage hsourced henabled hother
  have hbefore := tested_add_live huncancelled searchRunId
  have hnext : NoneCancelled (storage.next world step) := noneCancelled_next huncancelled hstep
  have hafter := tested_add_live hnext searchRunId
  omega

end Candidates

variable {storage : Storage} {generators : Generators} {searchRunId : String}
  {timed : TimedSearch} {step : SearchStep}

variable (storage) (generators) (searchRunId) in
/-- What a step of whole fills, pauses and resumptions can do. -/
inductive OrderlyMoved (timed : TimedSearch) : SearchStep → TimedSearch → Prop
  | operated {step : Step} (kept : cancelsCandidate step = false)
      (other : step.submitsFor searchRunId = false)
      (enabled : timed.search.backtesting.enabled step) :
      OrderlyMoved timed (.operation step)
        { timed with
          search :=
            { timed.search with backtesting := storage.next timed.search.backtesting step } }
  | started {config : SearchConfig} {ownerUserId : String} {now : Int} {run : SearchRun}
      (fresh : timed.search.run = none) (answer : start searchRunId config ownerUserId now = .ok run) :
      OrderlyMoved timed (.start config ownerUserId now)
        { timed with search := { timed.search with run := some run }, clock := now }
  | refused {config : SearchConfig} {ownerUserId : String} {now : Int}
      (fresh : timed.search.run = none) :
      OrderlyMoved timed (.start config ownerUserId now) { timed with clock := now }
  | read :
      OrderlyMoved timed .read
        { timed with
          search :=
            { timed.search with copies := timed.search.run.toList ++ timed.search.copies } }
  | wrote {step : SearchStep} {copy run : SearchRun} {now : Int} (unlocked : timed.search.fill = none)
      (stored : timed.search.run = some copy) (calm : timed.thrown = false)
      (past : timed.clock ≤ now)
      (writes : copy.state = .running ∧ run = copy.pausedAt now ∨
        copy.state = .paused ∧ run = copy.resumedAt now) :
      OrderlyMoved timed step { timed with search := timed.search.save run, clock := now }
  | failed {copy : SearchRun} {error : String} {now : Int} (unlocked : timed.search.fill = none)
      (stored : timed.search.run = some copy) :
      OrderlyMoved timed (.fail copy error now)
        ⟨timed.search.save (copy.failedAt error now), now, false⟩
  | idle (fresh : timed.search.run = none) : OrderlyMoved timed .lock timed
  | locked {run : SearchRun} (unlocked : timed.search.fill = none)
      (stored : timed.search.run = some run) (calm : timed.thrown = false) :
      OrderlyMoved timed .lock { timed with search := timed.search.withFill (Fill.ofRun run) }
  | thrown {fill : Fill} (holds : timed.search.fill = some fill) (throws : fill.phase.throws = true) :
      OrderlyMoved timed (.fill .rollback)
        { timed with search := { timed.search with fill := none }, thrown := true }
  | filled {fill : Fill} {step : FillStep} {later : SearchWorld}
      (holds : timed.search.fill = some fill) (goesOn : step ≠ .rollback)
      (recorded : ∀ error, step = .rejected error → fill.phase.unrecorded = [])
      (past : ∀ topScore now, step = .rank topScore now → timed.clock ≤ now)
      (moved : FillMoved storage generators timed.search fill step later) :
      OrderlyMoved timed (.fill step)
        { timed with
          search := later
          clock := (SearchStep.fill step).now.getD timed.clock }

theorem orderly_moved (henabled : (timedSystem storage generators searchRunId).enabled timed step)
    (horderly : Orderly timed step) :
    OrderlyMoved storage generators searchRunId timed step
      ((timedSystem storage generators searchRunId).next timed step) := by
  obtain ⟨henabled, hpast⟩ := henabled
  cases step with
  | operation step => exact .operated horderly henabled.1 henabled.2
  | start config ownerUserId now =>
    simp only [timedSystem, searchNext, SearchStep.now, Option.getD_some]
    split
    next run hrun => exact .started henabled hrun
    next => exact .refused henabled
  | read => exact .read
  | pause copy now =>
    exact .wrote henabled.1 horderly.1 horderly.2 (hpast now rfl) (Or.inl ⟨henabled.2.2, rfl⟩)
  | resume copy now =>
    exact .wrote henabled.1 horderly.1 horderly.2 (hpast now rfl) (Or.inr ⟨henabled.2.2, rfl⟩)
  | fail copy error now => exact .failed henabled.1 horderly.1
  | cancel now => exact horderly.elim
  | lock =>
    simp only [timedSystem, searchNext, SearchStep.now, Option.getD_none]
    split
    next hfresh => exact .idle hfresh
    next run hrun => exact .locked henabled hrun horderly
  | fill step =>
    obtain ⟨fill, hfill, hallowed⟩ := henabled
    rw [Option.mem_def] at hfill
    have hmoved : FillMoved storage generators timed.search fill step _ := fillNext_moved hallowed
    by_cases hrollback : step = .rollback
    · subst hrollback
      simp only [timedSystem, searchNext, hfill]
      exact .thrown hfill (horderly fill hfill)
    · have hnext : (timedSystem storage generators searchRunId).next timed (.fill step) =
          { timed with
            search := fillNext storage generators timed.search fill step
            clock := (SearchStep.fill step).now.getD timed.clock } := by
        simp only [timedSystem, searchNext, hfill]
        cases step <;> first | rfl | exact absurd rfl hrollback
      rw [hnext]
      refine .filled hfill hrollback ?_ ?_ hmoved
      · rintro error rfl
        exact horderly fill hfill
      · rintro topScore now rfl
        exact hpast now rfl

/-- The iterations of all candidates of the run come before the next one. -/
def Below (searchRunId : String) (world : World) (next : Nat) : Prop :=
  ∀ candidate ∈ world.ofRun searchRunId, ∀ number, candidate.iterationNumber = some number →
    number < next

/-- The run of a fill knows of every candidate, and the fill has counted no more than there are. -/
structure Fill.Whole (fill : Fill) (searchRunId : String) (world : SearchWorld) : Prop where
  awake : fill.phase ≠ .returning → fill.run.state ≠ .paused
  stored : fill.phase = .returning → world.run = some fill.run
  below : fill.phase.throws = false → (fill.phase = .returning → ended fill.run.state = false) →
    Below searchRunId world.backtesting (fill.run.nextIteration + fill.phase.unrecorded.length)
  counted : ∀ again summary, fill.phase = .ranking again summary →
    summary.candidatesTested ≤ testedCount world.backtesting searchRunId ∧
      summary.candidatesTested + (summary.queuedCount + summary.runningCount) ≤
        (world.backtesting.ofRun searchRunId).length

structure OrderlyInv (searchRunId : String) (timed : TimedSearch) : Prop where
  reached : ReachedInv searchRunId timed.search
  rows : Storage.RowsInv timed.search.backtesting
  uncancelled : NoneCancelled timed.search.backtesting
  thrown : timed.thrown = true → timed.search.fill = none
  idle : ∀ run, timed.search.run = some run → run.state = .paused → run.activeSince = none
  row : timed.search.fill = none → timed.thrown = false → ∀ run, timed.search.run = some run →
    ended run.state = false → Below searchRunId timed.search.backtesting run.nextIteration
  fill : ∀ fill, timed.search.fill = some fill → fill.Whole searchRunId timed.search

namespace Fill

variable {fill fill' : Fill} {world : SearchWorld}

theorem completeIfDrained_awake {run : SearchRun} (h : run.state ≠ .paused)
    (met : Option StopReason) (now : Int) : (completeIfDrained run met now).state ≠ .paused := by
  unfold completeIfDrained
  split
  · exact h
  · split
    · nofun
    · exact h

theorem ranked_awake (h : fill.run.state ≠ .paused) (again : Bool)
    (summary : SearchCandidateSummary) (topScore : Option JsNumber) (now : Int) :
    (fill.ranked generators again summary topScore now).run.state ≠ .paused := by
  obtain ⟨-, -, hstate, -⟩ := refresh_kept fill.run summary topScore now
  rw [← hstate] at h
  unfold ranked
  generalize refresh fill.run summary topScore now = run at h
  cases again with
  | true => exact completeIfDrained_awake h (stopReason run now) now
  | false =>
    simp only [planned, Bool.false_eq_true, ↓reduceIte]
    split
    next met _ => exact completeIfDrained_awake h (some met) now
    next => split <;> exact h

/-- The fill goes on into a plain phase. -/
theorem whole_plain (hplain : fill'.phase.plain = true) (hawake : fill'.run.state ≠ .paused)
    (hbelow : Below searchRunId world.backtesting fill'.run.nextIteration) :
    fill'.Whole searchRunId world where
  awake := fun _ => hawake
  stored := fun hphase => by rw [hphase] at hplain; cases hplain
  below := by
    intro _ _
    rw [Phase.unrecorded_of_plain hplain]
    exact hbelow
  counted := fun again summary hphase => by rw [hphase] at hplain; cases hplain

/-- The candidates have moved on, and no iteration is new among them. -/
theorem whole_kept {later : SearchWorld} (h : fill.Whole searchRunId world)
    (hrun : later.run = world.run)
    (hbelow : ∀ next, Below searchRunId world.backtesting next →
      Below searchRunId later.backtesting next)
    (htested : testedCount world.backtesting searchRunId ≤
      testedCount later.backtesting searchRunId)
    (hlength : (world.backtesting.ofRun searchRunId).length ≤
      (later.backtesting.ofRun searchRunId).length) : fill.Whole searchRunId later where
  awake := h.awake
  stored := fun hphase => hrun.trans (h.stored hphase)
  below := fun hthrows hended => hbelow _ (h.below hthrows hended)
  counted := fun again summary hphase =>
    let hcounts := h.counted again summary hphase
    ⟨hcounts.1.trans htested, hcounts.2.trans hlength⟩

end Fill

theorem below_next (hsourced : timed.search.backtesting.Sourced) {step : Step}
    (henabled : timed.search.backtesting.enabled step) (hother : step.submitsFor searchRunId = false)
    {next : Nat} (h : Below searchRunId timed.search.backtesting next) :
    Below searchRunId (storage.next timed.search.backtesting step) next := by
  intro candidate hmem number hnumber
  have hsubmission : candidate.submission ∈
      ((storage.next timed.search.backtesting step).ofRun searchRunId).map (·.submission) :=
    List.mem_map_of_mem hmem
  rw [Storage.submissions_next storage hsourced henabled hother] at hsubmission
  obtain ⟨before, hbefore, hequal⟩ := List.mem_map.mp hsubmission
  have hsame : before.iterationNumber = candidate.iterationNumber := congrArg (·.2.1) hequal
  exact h before hbefore number (hsame.trans hnumber)

/-- A summary counts the tested candidates, and no candidate twice. -/
theorem summary_tested {world : SearchWorld} (h : OwnedInv searchRunId world) {run : SearchRun}
    (hrun : world.run = some run) (huncancelled : NoneCancelled world.backtesting)
    {summary : SearchCandidateSummary}
    (hanswer : summarizeSearchCandidates world.backtesting.repository searchRunId run.ownerUserId =
      .ok summary) :
    summary.candidatesTested = testedCount world.backtesting searchRunId ∧
      summary.candidatesTested + (summary.queuedCount + summary.runningCount) ≤
        (world.backtesting.ofRun searchRunId).length := by
  obtain ⟨summary', hcounted, hlive⟩ := summary_counts h hrun
  rw [hanswer] at hcounted
  cases hcounted
  have howner : ∀ candidate ∈ world.backtesting.ofRun searchRunId,
      candidate.ownerUserId = run.ownerUserId := by
    intro candidate hmem
    obtain ⟨run', hrun', howner⟩ := h.owners candidate hmem
    rw [hrun] at hrun'
    cases hrun'
    exact howner
  rw [Backtesting.summarize_eq_ok howner] at hanswer
  have htested : summary.candidatesTested = testedCount world.backtesting searchRunId := by
    cases hanswer
    rfl
  have hall := tested_add_live huncancelled searchRunId
  exact ⟨htested, by omega⟩

namespace OrderlyInv

theorem operated (h : OrderlyInv searchRunId timed) {step : Step}
    (hkept : cancelsCandidate step = false) (hother : step.submitsFor searchRunId = false)
    (henabled : timed.search.backtesting.enabled step)
    (hreached : ReachedInv searchRunId
      { timed.search with backtesting := storage.next timed.search.backtesting step }) :
    OrderlyInv searchRunId
      { timed with
        search :=
          { timed.search with backtesting := storage.next timed.search.backtesting step } } where
  reached := hreached
  rows := Storage.rowsInv_next h.rows (leavesTerminal_of_uncancelled h.uncancelled hkept)
  uncancelled := noneCancelled_next h.uncancelled hkept
  thrown := h.thrown
  idle := h.idle
  row := fun hfill hcalm run hrun hended =>
    below_next h.reached.budget.sourced henabled hother (h.row hfill hcalm run hrun hended)
  fill := fun fill hfill =>
    Fill.whole_kept (h.fill fill hfill) rfl
      (fun _ => below_next h.reached.budget.sourced henabled hother)
      (testedCount_next storage h.reached.budget.sourced h.rows h.uncancelled henabled hkept hother)
      (length_next storage h.reached.budget.sourced henabled hother).ge

/-- A fill goes on with the candidates as they are. -/
theorem withFill (h : OrderlyInv searchRunId timed) {fill fill' : Fill} {clock : Int}
    (hholds : timed.search.fill = some fill)
    (hreached : ReachedInv searchRunId (timed.search.withFill fill'))
    (hwhole : fill'.Whole searchRunId timed.search) :
    OrderlyInv searchRunId { timed with search := timed.search.withFill fill', clock } where
  reached := hreached
  rows := h.rows
  uncancelled := h.uncancelled
  thrown := fun hthrown => by
    rw [h.thrown hthrown] at hholds
    cases hholds
  idle := h.idle
  row := nofun
  fill := fun other hother => by
    cases hother
    exact ⟨hwhole.awake, hwhole.stored, hwhole.below, hwhole.counted⟩

/-- The row is written, outside the fills or at the end of one. -/
theorem saved (h : OrderlyInv searchRunId timed) {run : SearchRun} {clock : Int} {thrown : Bool}
    (hreached : ReachedInv searchRunId { timed.search.save run with fill := none })
    (hidle : run.state = .paused → run.activeSince = none)
    (hbelow : thrown = false → ended run.state = false →
      Below searchRunId timed.search.backtesting run.nextIteration) :
    OrderlyInv searchRunId ⟨{ timed.search.save run with fill := none }, clock, thrown⟩ where
  reached := hreached
  rows := h.rows
  uncancelled := h.uncancelled
  thrown := fun _ => rfl
  idle := by
    intro run' hrun'
    change timed.search.run.map (SearchRun.overwritten · run) = some run' at hrun'
    obtain ⟨stored, -, rfl⟩ := Option.map_eq_some_iff.mp hrun'
    exact hidle
  row := by
    intro _ hcalm run' hrun'
    change timed.search.run.map (SearchRun.overwritten · run) = some run' at hrun'
    obtain ⟨stored, -, rfl⟩ := Option.map_eq_some_iff.mp hrun'
    exact hbelow hcalm
  fill := fun _ hfill => by cases hfill

/-- A fill stores the candidate of its next iteration, or finds the iteration there. -/
theorem created (h : OrderlyInv searchRunId timed) {fill : Fill}
    (hholds : timed.search.fill = some fill) {generated : GeneratedCandidate}
    {candidate : StoredCandidate} {dispatch : BacktestDispatch} {later : SearchWorld}
    (hphase : fill.phase = .submitting generated) (hrequested : Requested fill.run candidate)
    (hfresh : timed.search.backtesting.enabled (.submit candidate dispatch none))
    (hcreated : FillCreated storage timed.search fill generated candidate dispatch later)
    (hreached : ReachedInv searchRunId later) :
    OrderlyInv searchRunId { timed with search := later } := by
  obtain ⟨⟨run, hrun, hfixed⟩, -⟩ := h.reached.budget.fill fill hholds
  have hid : fill.run.searchRunId = searchRunId :=
    (congrArg FixedColumns.searchRunId hfixed).trans (h.reached.budget.row run hrun).1
  have hwhole := h.fill fill hholds
  have hawake := hwhole.awake (by rw [hphase]; nofun)
  have hbelow := hwhole.below (by rw [hphase]; rfl) (by rw [hphase]; nofun)
  rw [show fill.phase.unrecorded = [] by rw [hphase]; rfl] at hbelow
  have hof := ofRun_created storage hrequested hfresh
  rw [← hcreated.backtesting, hid] at hof
  have hnext : Below searchRunId later.backtesting (fill.run.nextIteration + 1) := by
    intro stored hmem number hnumber
    rcases hof with ⟨hsame, -⟩ | ⟨-, happend, -⟩
    · exact Nat.lt_succ_of_lt (hbelow stored (hsame ▸ hmem) number hnumber)
    · rw [happend] at hmem
      rcases List.mem_append.mp hmem with hthere | hmade
      · exact Nat.lt_succ_of_lt (hbelow stored hthere number hnumber)
      · rw [List.mem_singleton.mp hmade] at hnumber
        have hiteration := hrequested.2.2.1
        rw [show candidate.iterationNumber = some number from hnumber] at hiteration
        cases hiteration
        exact Nat.lt_succ_self _
  refine ⟨hreached, ?_, ?_, ?_, ?_, ?_, ?_⟩
  · rw [hcreated.backtesting]
    exact Storage.rowsInv_next h.rows trivial
  · rw [hcreated.backtesting]
    exact noneCancelled_next h.uncancelled rfl
  · intro hthrown
    rw [h.thrown hthrown] at hholds
    cases hholds
  · rw [hcreated.run]
    exact h.idle
  · intro hnone
    rcases hcreated.goesOn with hstored | ⟨error, hretried⟩
    · rw [hnone] at hstored
      cases hstored
    · rw [hnone] at hretried
      cases hretried
  · intro fill' hfill'
    by_cases hstored : later.fill = some { fill with phase := .stored generated }
    · rw [hstored] at hfill'
      cases hfill'
      exact ⟨fun _ => hawake, nofun, fun _ _ => hnext, nofun⟩
    · -- nothing is stored without being answered
      obtain ⟨error, hretried⟩ := hcreated.goesOn.resolve_left hstored
      rw [hretried] at hfill'
      cases hfill'
      refine Fill.whole_plain (Fill.retried_plain fill error) ?_ ?_
      · rw [Fill.retried_kept]
        exact hawake
      · rw [Fill.retried_kept]
        rcases hof with ⟨hsame, -⟩ | ⟨-, -, hanswer⟩
        · intro stored hmem
          exact hbelow stored (hsame ▸ hmem)
        · exact absurd (hcreated.answered hanswer).1 hstored

theorem filled (h : OrderlyInv searchRunId timed) {fill : Fill}
    (hholds : timed.search.fill = some fill) {step : FillStep} {search : SearchWorld}
    (hgoesOn : step ≠ .rollback)
    (hrecorded : ∀ error, step = .rejected error → fill.phase.unrecorded = [])
    (hmoved : FillMoved storage generators timed.search fill step search)
    (hreached : ReachedInv searchRunId search) (clock : Int) :
    OrderlyInv searchRunId { timed with search, clock } := by
  obtain ⟨⟨run, hrun, hfixed⟩, -⟩ := h.reached.budget.fill fill hholds
  have hwhole := h.fill fill hholds
  -- what a fill that goes on knows at each of its waits
  have hknows : fill.phase.throws = false → fill.phase ≠ .returning → fill.phase.unrecorded = [] →
      fill.run.state ≠ .paused ∧
        Below searchRunId timed.search.backtesting fill.run.nextIteration := by
    intro hthrows hnot hnone
    have hbelow := hwhole.below hthrows fun hreturning => absurd hreturning hnot
    rw [hnone] at hbelow
    exact ⟨hwhole.awake hnot, hbelow⟩
  cases hmoved with
  | summarized again hphase =>
    obtain ⟨hawake, hbelow⟩ := hknows (by rw [hphase]; rfl) (by rw [hphase]; nofun)
      (by rw [hphase]; rfl)
    refine h.withFill hholds hreached ?_
    have hid : fill.run.searchRunId = searchRunId :=
      (congrArg FixedColumns.searchRunId hfixed).trans (h.reached.budget.row run hrun).1
    have howner : fill.run.ownerUserId = run.ownerUserId :=
      congrArg FixedColumns.ownerUserId hfixed
    rw [hid, howner]
    cases hanswer : summarizeSearchCandidates timed.search.backtesting.repository searchRunId
      run.ownerUserId with
    | error error => exact Fill.whole_plain rfl hawake hbelow
    | ok summary =>
      obtain ⟨htested, hall⟩ := summary_tested h.reached.owned hrun h.uncancelled hanswer
      refine ⟨fun _ => hawake, nofun, fun _ _ => hbelow, fun again' summary' hranking => ?_⟩
      cases hranking
      exact ⟨htested.le, hall⟩
  | @ranked topScore now again summary hphase =>
    obtain ⟨hawake, hbelow⟩ := hknows (by rw [hphase]; rfl) (by rw [hphase]; nofun)
      (by rw [hphase]; rfl)
    refine h.withFill hholds hreached (Fill.whole_plain (Fill.ranked_plain again summary _ _)
      (Fill.ranked_awake hawake again summary topScore now) ?_)
    rw [next_of_progress (Fill.ranked_kept fill again summary topScore now).2]
    exact hbelow
  | generated hphase =>
    obtain ⟨hawake, hbelow⟩ := hknows (by rw [hphase]; rfl) (by rw [hphase]; nofun)
      (by rw [hphase]; rfl)
    refine h.withFill hholds hreached (Fill.whole_plain (Fill.generated_plain hphase) ?_ ?_)
    · rw [Fill.generated_kept]
      exact hawake
    · rw [Fill.generated_kept]
      exact hbelow
  | created generated hphase hrequested hfresh =>
    have hinv := h.created hholds hphase hrequested hfresh
      (fillCreates_created storage timed.search fill generated _ _) hreached
    exact ⟨hinv.reached, hinv.rows, hinv.uncancelled, hinv.thrown, hinv.idle, hinv.row, hinv.fill⟩
  | accepted generated hphase =>
    refine h.withFill hholds hreached (Fill.whole_plain rfl ?_ ?_)
    · exact hwhole.awake (by rw [hphase]; nofun)
    · have hbelow := hwhole.below (by rw [hphase]; rfl) (by rw [hphase]; nofun)
      rw [hphase] at hbelow
      exact hbelow
  | @rejected error generated hphase =>
    obtain ⟨hawake, hbelow⟩ := hknows (by rcases hphase with hp | hp <;> rw [hp] <;> rfl)
      (by rcases hphase with hp | hp <;> rw [hp] <;> nofun) (hrecorded error rfl)
    refine h.withFill hholds hreached (Fill.whole_plain (Fill.retried_plain fill error) ?_ ?_)
    · rw [Fill.retried_kept]
      exact hawake
    · rw [Fill.retried_kept]
      exact hbelow
  | saved hphase =>
    obtain ⟨hawake, hbelow⟩ := hknows (by rw [hphase]; rfl) (by rw [hphase]; nofun)
      (by rw [hphase]; rfl)
    exact h.saved hreached (fun hpaused => absurd hpaused hawake) fun _ _ => hbelow
  | returned hphase =>
    refine ⟨hreached, h.rows, h.uncancelled, fun _ => rfl, h.idle, ?_, fun _ hfill => by cases hfill⟩
    intro _ _ run' hrun' hended
    rw [hwhole.stored hphase] at hrun'
    cases hrun'
    have hbelow := hwhole.below (by rw [hphase]; rfl) fun _ => hended
    rw [hphase] at hbelow
    exact hbelow
  | rolledBack => exact absurd rfl hgoesOn

theorem next (h : OrderlyInv searchRunId timed)
    (henabled : (timedSystem storage generators searchRunId).enabled timed step)
    (horderly : Orderly timed step) :
    OrderlyInv searchRunId ((timedSystem storage generators searchRunId).next timed step) := by
  have hreached : ReachedInv searchRunId
      ((timedSystem storage generators searchRunId).next timed step).search :=
    reachedInv_moved h.reached (searchNext_moved henabled.1)
  have hmoved := orderly_moved henabled horderly
  generalize (timedSystem storage generators searchRunId).next timed step = later
    at hreached hmoved
  -- a write of an unlocked row
  have hunlocked : timed.search.fill = none → ∀ run : SearchRun,
      ({ timed.search.save run with fill := none } : SearchWorld) = timed.search.save run := by
    intro hnone run
    rw [← hnone]
    rfl
  cases hmoved with
  | operated hkept hother hallowed => exact h.operated hkept hother hallowed hreached
  | @started config ownerUserId now run hfresh hanswer =>
    refine ⟨hreached, h.rows, h.uncancelled, h.thrown, ?_, ?_, fun fill hfill => ?_⟩
    · intro run' hrun' hpaused
      cases hrun'
      rw [started_run hanswer] at hpaused
      cases hpaused
    · intro _ _ run' _ _ candidate hmem
      obtain ⟨run, hrun, -⟩ := h.reached.budget.admitted candidate hmem
      rw [hfresh] at hrun
      cases hrun
    · obtain ⟨⟨run, hrun, -⟩, -⟩ := h.reached.budget.fill fill hfill
      rw [hfresh] at hrun
      cases hrun
  | refused => exact ⟨hreached, h.rows, h.uncancelled, h.thrown, h.idle, h.row, h.fill⟩
  | read =>
    refine ⟨hreached, h.rows, h.uncancelled, h.thrown, h.idle, h.row, fun fill hfill => ?_⟩
    exact Fill.whole_kept (h.fill fill hfill) rfl (fun _ hbelow => hbelow) (le_refl _) (le_refl _)
  | @wrote _ copy run now hnone hstored hcalm _ hwrites =>
    have hlive : ended copy.state = false := by
      rcases hwrites with ⟨hs, -⟩ | ⟨hs, -⟩ <;> rw [hs] <;> rfl
    have hbelow := h.row hnone hcalm copy hstored hlive
    have hnext : run.nextIteration = copy.nextIteration := by
      rcases hwrites with ⟨-, rfl⟩ | ⟨-, rfl⟩ <;> rfl
    rw [← hunlocked hnone] at hreached ⊢
    refine h.saved hreached ?_ fun _ _ => hnext ▸ hbelow
    rcases hwrites with ⟨-, rfl⟩ | ⟨-, rfl⟩
    · exact fun _ => rfl
    · intro hrunning
      cases hrunning
  | @failed copy error now hnone hstored =>
    rw [← hunlocked hnone] at hreached ⊢
    refine h.saved hreached ?_ fun _ hlive => ?_
    · intro hrunning
      cases hrunning
    · cases hlive
  | idle => exact h
  | @locked run hnone hstored hcalm =>
    refine ⟨hreached, h.rows, h.uncancelled, fun hthrown => ?_, h.idle, fun hfill => ?_,
      fun fill hfill => ?_⟩
    · rw [hcalm] at hthrown
      cases hthrown
    · cases hfill
    · cases hfill
      have hbelow := h.row hnone hcalm run hstored
      by_cases hrunning : run.state = .running
      · simp only [Fill.ofRun, hrunning, if_true]
        exact Fill.whole_plain rfl (by rw [hrunning]; simp) (hbelow (by rw [hrunning]; rfl))
      · simp only [Fill.ofRun, hrunning, if_false]
        refine ⟨fun hnot => absurd rfl hnot, fun _ => hstored, fun _ hended => hbelow (hended rfl),
          fun _ _ hranking => ?_⟩
        cases hranking
  | thrown =>
    refine ⟨hreached, h.rows, h.uncancelled, fun _ => rfl, h.idle, fun _ hcalm => ?_,
      fun _ hfill => by cases hfill⟩
    cases hcalm
  | filled hholds hgoesOn hrecorded _ hmoved =>
    exact h.filled hholds hgoesOn hrecorded hmoved hreached _

theorem start (clock : Int) : OrderlyInv searchRunId ⟨SearchWorld.empty, clock, false⟩ where
  reached := reachedInv_empty
  rows := Storage.rowsInv_start
  uncancelled := fun _ _ h => by cases h
  thrown := nofun
  idle := fun _ hrun => by cases hrun
  row := fun _ _ _ hrun => by cases hrun
  fill := fun _ hfill => by cases hfill

theorem after {clock : Int} {steps : List SearchStep}
    (h : (timedSystem storage generators searchRunId).Legal Orderly
      ⟨SearchWorld.empty, clock, false⟩ steps) :
    OrderlyInv searchRunId (timedAfter storage generators searchRunId clock steps) :=
  h.invariant (OrderlyInv searchRunId) (fun _ _ hinv henabled horderly => hinv.next henabled horderly)
    (start clock)

end OrderlyInv

/-! From the refresh that finds a condition met. -/

theorem asked_eq_some {world : SearchWorld} {run : SearchRun} {now : Int}
    (h : asked world step = some (run, now)) :
    ∃ fill again summary topScore, step = .fill (.rank topScore now) ∧ world.fill = some fill ∧
      fill.phase = .ranking again summary ∧ run = refresh fill.run summary topScore now := by
  unfold asked at h
  split at h
  next topScore now' =>
    obtain ⟨fill, hfill, hphase⟩ := Option.bind_eq_some_iff.mp h
    split at hphase
    next again summary hranking =>
      cases hphase
      exact ⟨fill, again, summary, topScore, rfl, hfill, hranking, rfl⟩
    next => cases hphase
  next => cases h

theorem refresh_candidatesTested (run : SearchRun) (summary : SearchCandidateSummary)
    (topScore : Option JsNumber) (now : Int) :
    (refresh run summary topScore now).candidatesTested = summary.candidatesTested := by
  unfold refresh
  cases topScore with
  | none => rfl
  | some score =>
    dsimp only
    split <;> rfl

/-- Every candidate is one of the iterations that are reserved. -/
theorem OrderlyInv.reserved_eq (h : OrderlyInv searchRunId timed) {fill : Fill} {again : Bool}
    {summary : SearchCandidateSummary} (hholds : timed.search.fill = some fill)
    (hphase : fill.phase = .ranking again summary) (topScore : Option JsNumber) (now : Int) :
    reserved (refresh fill.run summary topScore now) =
      (refresh fill.run summary topScore now).nextIteration - 1 := by
  have hwhole := h.fill fill hholds
  have hbelow := hwhole.below (by rw [hphase]; rfl) (by rw [hphase]; nofun)
  rw [show fill.phase.unrecorded = [] by rw [hphase]; rfl] at hbelow
  have hlength := h.reached.budget.length_le fun candidate hmem number hnumber =>
    Nat.le_sub_one_of_lt (hbelow candidate hmem number hnumber)
  obtain ⟨-, hall⟩ := hwhole.counted again summary hphase
  obtain ⟨-, hprogress, -, hcount⟩ := refresh_kept fill.run summary topScore now
  rw [reserved, hcount, refresh_candidatesTested, next_of_progress hprogress]
  change _ ≤ fill.run.nextIteration - 1 at hlength
  omega

namespace Fill

variable {fill : Fill} {tested : Nat} {clock : Int} {reason : StopReason}

/-- A fill that has found the condition met, or is to find it met once it has refreshed its run. -/
def Stops (fill : Fill) (tested : Nat) (clock : Int) (reason : StopReason) : Prop :=
  match fill.phase with
  | .saving => Met tested clock fill.run reason
  | .summarizing again => again = false ∧ Met tested clock fill.run reason
  | .ranking again summary =>
    again = false ∧ tested ≤ summary.candidatesTested ∧ Met tested clock fill.run reason
  | .returning => ended fill.run.state = false → Met tested clock fill.run reason
  | .throwing _ => True
  | .looping | .submitting _ | .stored _ => False

/-- The refresh that finds a condition met is a fill's last one. -/
theorem ranked_of_met {again : Bool} {summary : SearchCandidateSummary}
    {topScore : Option JsNumber} {now : Int} {first : StopReason}
    (h : stopReason (refresh fill.run summary topScore now) now = some first) :
    (fill.ranked generators again summary topScore now).phase = .saving ∧
      (Met tested clock (refresh fill.run summary topScore now) reason →
        Met tested clock (fill.ranked generators again summary topScore now).run reason) ∧
      (inFlight (refresh fill.run summary topScore now) = 0 →
        (fill.ranked generators again summary topScore now).run.state = .completed ∧
          (fill.ranked generators again summary topScore now).run.stopReason = some first) := by
  unfold ranked
  generalize refresh fill.run summary topScore now = run at h
  have hdrained : inFlight run = 0 → (completeIfDrained run (some first) now).state = .completed ∧
      (completeIfDrained run (some first) now).stopReason = some first := by
    intro hnone
    simp only [completeIfDrained, hnone, if_true]
    exact ⟨trivial, trivial⟩
  cases again with
  | true =>
    simp only [if_true, finished, h]
    refine ⟨trivial, fun hmet => ?_, hdrained⟩
    exact (hmet.completed (some first) now).congr rfl (fun _ _ => le_refl _) (le_refl _)
      fun _ => ⟨rfl, rfl⟩
  | false =>
    simp only [Bool.false_eq_true, ↓reduceIte, planned, h]
    exact ⟨trivial, fun hmet => hmet.completed (some first) now, hdrained⟩

end Fill

/-- The condition was met with so many candidates tested, and nothing has changed that since. -/
structure Stopping (searchRunId : String) (tested : Nat) (reason : StopReason)
    (timed : TimedSearch) : Prop where
  counted : tested ≤ testedCount timed.search.backtesting searchRunId
  stored : timed.search.run.isSome
  row : timed.search.fill = none → timed.thrown = false → ∀ run, timed.search.run = some run →
    ended run.state = false → Met tested timed.clock run reason
  fill : ∀ fill, timed.search.fill = some fill → fill.Stops tested timed.clock reason

/-- The step that finds it. -/
theorem stopping_found (h : OrderlyInv searchRunId timed)
    (henabled : (timedSystem storage generators searchRunId).enabled timed step)
    {run : SearchRun} {now : Int} {reason : StopReason}
    (hasked : asked timed.search step = some (run, now)) (hmet : stopReason run now = some reason) :
    Stopping searchRunId run.candidatesTested reason
      ((timedSystem storage generators searchRunId).next timed step) := by
  obtain ⟨fill, again, summary, topScore, rfl, hholds, hphase, rfl⟩ := asked_eq_some hasked
  have hnext : (timedSystem storage generators searchRunId).next timed
      (.fill (.rank topScore now)) =
      { timed with
        search := timed.search.withFill (fill.ranked generators again summary topScore now)
        clock := now } := by
    simp only [timedSystem, searchNext, hholds, fillNext, hphase, SearchStep.now, Option.getD_some]
  obtain ⟨⟨stored, hstored, -⟩, -⟩ := h.reached.budget.fill fill hholds
  obtain ⟨hcounted, -⟩ := (h.fill fill hholds).counted again summary hphase
  have htested : (refresh fill.run summary topScore now).candidatesTested =
      summary.candidatesTested := refresh_candidatesTested _ _ _ _
  obtain ⟨hsaving, hkept, -⟩ := @Fill.ranked_of_met generators fill summary.candidatesTested now
    reason again _ _ _ _ hmet
  rw [hnext]
  refine ⟨?_, ?_, fun hnone => ?_, fun fill' hfill' => ?_⟩
  · rw [htested]
    exact hcounted
  · show timed.search.run.isSome
    rw [hstored]
    rfl
  · cases hnone
  · cases hfill'
    rw [Fill.Stops, hsaving, htested]
    have hmeets := met_of_stopReason hmet (h.reserved_eq hholds hphase topScore now)
    rw [htested] at hmeets
    exact hkept hmeets

/-- It is found met again when the run is refreshed. -/
theorem Fill.Stops.asked {fill : Fill} {tested : Nat} {clock now : Int} {reason : StopReason}
    (h : fill.Stops tested clock reason) {world : SearchWorld} {again : Bool}
    {summary : SearchCandidateSummary} {topScore : Option JsNumber}
    (hphase : fill.phase = .ranking again summary) (hholds : world.fill = some fill)
    (hsteady : reason = .noImprovement → improves world (.fill (.rank topScore now)) = false)
    (hnow : clock ≤ now) :
    Met tested now (refresh fill.run summary topScore now) reason ∧
      ∃ first, stopReason (refresh fill.run summary topScore now) now = some first := by
  simp only [Stops, hphase] at h
  obtain ⟨-, htested, hmet⟩ := h
  have hbest : reason = .noImprovement → ∀ score ∈ topScore,
      fill.run.bestScore.all (fun best => best.lt score) = false := by
    rintro hreason score hscore
    have hnot := hsteady hreason
    rw [Option.mem_def.mp hscore] at hnot
    simpa only [improves, hholds, Option.any_some] using hnot
  have hrefreshed := (hmet.later hnow).refreshed summary topScore now hbest
  rw [← refresh_candidatesTested fill.run summary topScore now] at htested
  exact ⟨hrefreshed, stopReason_of_met hrefreshed htested (le_refl now)⟩

/-- A fill that has found the condition met submits nothing, and finds it met again. -/
theorem Fill.stops_moved {fill : Fill} {tested : Nat} {clock : Int} {reason : StopReason}
    (h : fill.Stops tested clock reason) {world later : SearchWorld} {step : FillStep}
    (hmoved : FillMoved storage generators world fill step later)
    (hsteady : reason = .noImprovement → improves world (.fill step) = false)
    (hholds : world.fill = some fill)
    (hcounted : ∀ summary,
      summarizeSearchCandidates world.backtesting.repository fill.run.searchRunId
        fill.run.ownerUserId = .ok summary → tested ≤ summary.candidatesTested)
    (hpast : ∀ topScore now, step = .rank topScore now → clock ≤ now) :
    ∀ fill', later.fill = some fill' →
      fill'.Stops tested ((SearchStep.fill step).now.getD clock) reason := by
  cases hmoved with
  | summarized again hphase =>
    simp only [Stops, hphase] at h
    obtain ⟨rfl, hmet⟩ := h
    rintro fill' hfill'
    cases hfill'
    cases hanswer : summarizeSearchCandidates world.backtesting.repository fill.run.searchRunId
      fill.run.ownerUserId with
    | error error => trivial
    | ok summary => exact ⟨rfl, hcounted summary hanswer, hmet⟩
  | @ranked topScore now again summary hphase =>
    rintro fill' hfill'
    cases hfill'
    obtain ⟨hmet, first, hfirst⟩ := h.asked hphase hholds hsteady (hpast topScore now rfl)
    obtain ⟨hsaving, hkept, -⟩ := @ranked_of_met generators fill tested now reason again _ _ _ _
      hfirst
    rw [Stops, hsaving]
    exact hkept hmet
  | generated hphase | accepted generated hphase | created generated hphase =>
    simp only [Stops, hphase] at h
  | rejected generated hphase =>
    rcases hphase with hphase | hphase <;> simp only [Stops, hphase] at h
  | saved | returned | rolledBack => exact fun _ hfill' => by cases hfill'

theorem Stopping.filled (hinv : OrderlyInv searchRunId timed) {tested : Nat} {reason : StopReason}
    (h : Stopping searchRunId tested reason timed) {fill : Fill}
    (hholds : timed.search.fill = some fill) {step : FillStep} {search : SearchWorld}
    (hpast : ∀ topScore now, step = .rank topScore now → timed.clock ≤ now)
    (hgoesOn : step ≠ .rollback)
    (hsteady : reason = .noImprovement → improves timed.search (.fill step) = false)
    (hmoved : FillMoved storage generators timed.search fill step search) :
    Stopping searchRunId tested reason
      { timed with search, clock := (SearchStep.fill step).now.getD timed.clock } := by
  obtain ⟨⟨run, hrun, hfixed⟩, -⟩ := hinv.reached.budget.fill fill hholds
  have hid : fill.run.searchRunId = searchRunId :=
    (congrArg FixedColumns.searchRunId hfixed).trans (hinv.reached.budget.row run hrun).1
  have howner : fill.run.ownerUserId = run.ownerUserId := congrArg FixedColumns.ownerUserId hfixed
  have hcounted : ∀ summary,
      summarizeSearchCandidates timed.search.backtesting.repository fill.run.searchRunId
        fill.run.ownerUserId = .ok summary → tested ≤ summary.candidatesTested := by
    intro summary hanswer
    rw [hid, howner] at hanswer
    rw [(summary_tested hinv.reached.owned hrun hinv.uncancelled hanswer).1]
    exact h.counted
  have hstops := h.fill fill hholds
  have hfill := Fill.stops_moved hstops hmoved hsteady hholds hcounted hpast
  have hsubmits : fill.phase.inLoop = false := by
    unfold Fill.Stops at hstops
    cases hphase : fill.phase <;> simp_all [Phase.inLoop]
  cases hmoved with
  | summarized again hphase | ranked again summary hphase =>
    exact ⟨h.counted, h.stored, fun hnone => absurd hnone (Option.some_ne_none _), hfill⟩
  | generated hphase | accepted generated hphase | created generated hphase =>
    rw [hphase] at hsubmits
    cases hsubmits
  | rejected generated hphase =>
    rcases hphase with hphase | hphase <;> rw [hphase] at hsubmits <;> cases hsubmits
  | saved hphase =>
    simp only [Fill.Stops, hphase] at hstops
    refine ⟨h.counted, ?_, ?_, hfill⟩
    · show (timed.search.run.map _).isSome
      rw [hrun]
      rfl
    · intro _ _ run' hrun' _
      change timed.search.run.map (SearchRun.overwritten · fill.run) = some run' at hrun'
      rw [hrun] at hrun'
      cases hrun'
      exact hstops.overwritten hfixed
  | returned hphase =>
    simp only [Fill.Stops, hphase] at hstops
    refine ⟨h.counted, h.stored, ?_, hfill⟩
    intro _ _ run' hrun' hended
    have hsame := (hinv.fill fill hholds).stored hphase
    rw [show timed.search.run = some run' from hrun'] at hsame
    cases hsame
    exact hstops hended
  | rolledBack => exact absurd rfl hgoesOn

theorem Stopping.next (hinv : OrderlyInv searchRunId timed) {tested : Nat} {reason : StopReason}
    (h : Stopping searchRunId tested reason timed)
    (henabled : (timedSystem storage generators searchRunId).enabled timed step)
    (hsteady : Steady reason timed step) :
    Stopping searchRunId tested reason
      ((timedSystem storage generators searchRunId).next timed step) := by
  obtain ⟨horderly, hsteady⟩ := hsteady
  have hmoved := orderly_moved henabled horderly
  generalize (timedSystem storage generators searchRunId).next timed step = later at hmoved
  have hstored := h.stored
  cases hmoved with
  | operated hkept hother hallowed =>
    refine ⟨h.counted.trans ?_, h.stored, h.row, h.fill⟩
    exact testedCount_next storage hinv.reached.budget.sourced hinv.rows hinv.uncancelled hallowed
      hkept hother
  | started hfresh | refused hfresh | idle hfresh =>
    rw [hfresh] at hstored
    cases hstored
  | read => exact ⟨h.counted, h.stored, h.row, h.fill⟩
  | @wrote _ copy run now hnone hcopy hcalm hpast hwrites =>
    have hlive : ended copy.state = false := by
      rcases hwrites with ⟨hs, -⟩ | ⟨hs, -⟩ <;> rw [hs] <;> rfl
    have hmet := h.row hnone hcalm copy hcopy hlive
    have hwritten : Met tested now run reason := by
      rcases hwrites with ⟨-, rfl⟩ | ⟨hpaused, rfl⟩
      · exact hmet.paused hpast
      · exact hmet.resumed (hinv.idle copy hcopy hpaused) hpast
    have hfixed : run.fixed = copy.fixed := by
      rcases hwrites with ⟨-, rfl⟩ | ⟨-, rfl⟩ <;> rfl
    refine ⟨h.counted, ?_, ?_, fun fill hfill => ?_⟩
    · show (timed.search.run.map _).isSome
      rw [hcopy]
      rfl
    · intro _ _ run' hrun' _
      change timed.search.run.map (SearchRun.overwritten · run) = some run' at hrun'
      rw [hcopy] at hrun'
      cases hrun'
      exact hwritten.overwritten hfixed
    · rw [show timed.search.fill = some fill from hfill] at hnone
      cases hnone
  | @failed copy error now hnone hcopy =>
    refine ⟨h.counted, ?_, ?_, fun fill hfill => ?_⟩
    · show (timed.search.run.map _).isSome
      rw [hcopy]
      rfl
    · intro _ _ run' hrun' hended
      change timed.search.run.map (SearchRun.overwritten · (copy.failedAt error now)) =
        some run' at hrun'
      rw [hcopy] at hrun'
      cases hrun'
      cases hended
    · rw [show timed.search.fill = some fill from hfill] at hnone
      cases hnone
  | @locked run hnone hrun hcalm =>
    refine ⟨h.counted, h.stored, fun hnone => absurd hnone (Option.some_ne_none _),
      fun fill hfill => ?_⟩
    cases hfill
    have hmet := h.row hnone hcalm run hrun
    by_cases hrunning : run.state = .running
    · simp only [Fill.ofRun, hrunning, if_true, Fill.Stops]
      exact ⟨trivial, hmet (by rw [hrunning]; rfl)⟩
    · simp only [Fill.ofRun, hrunning, if_false, Fill.Stops]
      exact hmet
  | thrown =>
    refine ⟨h.counted, h.stored, fun _ hcalm => ?_, fun _ hfill => ?_⟩
    · cases hcalm
    · cases hfill
  | filled hholds hgoesOn _ hpast hmoved => exact h.filled hinv hholds hpast hgoesOn hsteady hmoved

theorem Stopping.nothing_created {tested : Nat} {reason : StopReason}
    (h : Stopping searchRunId tested reason timed) {candidate : StoredCandidate}
    {dispatch : BacktestDispatch} :
    ¬ (timedSystem storage generators searchRunId).enabled timed
      (.fill (.create candidate dispatch)) := by
  rintro ⟨⟨fill, hfill, hfits, -⟩, -⟩
  rw [Option.mem_def] at hfill
  have hstops := h.fill fill hfill
  unfold Fill.Stops at hstops
  cases hphase : fill.phase <;> simp_all [FillStep.fits]

theorem Stopping.asked {tested : Nat} {reason : StopReason}
    (h : Stopping searchRunId tested reason timed)
    (henabled : (timedSystem storage generators searchRunId).enabled timed step)
    (hsteady : Steady reason timed step) {run : SearchRun} {now : Int}
    (hasked : asked timed.search step = some (run, now)) :
    ∃ first, stopReason run now = some first := by
  obtain ⟨fill, again, summary, topScore, rfl, hholds, hphase, rfl⟩ := asked_eq_some hasked
  exact ((h.fill fill hholds).asked hphase hholds hsteady.2 (henabled.2 now rfl)).2

def SearchStep.isFill : SearchStep → Bool
  | .fill _ => true
  | _ => false

/-- A fill that saves a completed run waits for nobody but itself. -/
structure Saves (first : StopReason) (timed : TimedSearch) : Prop where
  stored : timed.search.run.isSome
  fill : ∃ fill, timed.search.fill = some fill ∧ fill.phase = .saving ∧
    fill.run.state = .completed ∧ fill.run.stopReason = some first

theorem saves_next {first : StopReason} (h : Saves first timed)
    (henabled : (timedSystem storage generators searchRunId).enabled timed step)
    (horderly : Orderly timed step) (hother : step.isFill = false) :
    Saves first ((timedSystem storage generators searchRunId).next timed step) := by
  have hmoved := orderly_moved henabled horderly
  generalize (timedSystem storage generators searchRunId).next timed step = later at hmoved
  obtain ⟨hstored, fill, hholds, hsaves⟩ := h
  cases hmoved with
  | operated | read | refused | idle => exact ⟨hstored, fill, hholds, hsaves⟩
  | started => exact ⟨rfl, fill, hholds, hsaves⟩
  | wrote hnone | failed hnone | locked hnone =>
    rw [hholds] at hnone
    cases hnone
  | thrown | filled => cases hother

theorem saves_run {first : StopReason} {steps : List SearchStep} (h : Saves first timed)
    (hlegal : (timedSystem storage generators searchRunId).Legal Orderly timed steps)
    (hother : ∀ other ∈ steps, other.isFill = false) :
    Saves first ((timedSystem storage generators searchRunId).run timed steps) := by
  induction steps generalizing timed with
  | nil => exact h
  | cons step steps ih =>
    have hnext := saves_next h hlegal.1.1 hlegal.1.2 (hother step List.mem_cons_self)
    exact ih hnext hlegal.2 fun other hmem => hother other (List.mem_cons_of_mem _ hmem)

theorem saves_committed {first : StopReason} (h : Saves first timed) :
    ((timedSystem storage generators searchRunId).next timed (.fill .commit)).search.run.map
      (fun run => (run.state, run.stopReason)) = some (.completed, some first) := by
  obtain ⟨hstored, fill, hholds, hphase, hcompleted, hreason⟩ := h
  obtain ⟨run, hrun⟩ := Option.isSome_iff_exists.mp hstored
  simp only [timedSystem, searchNext, hholds, fillNext, hphase]
  show (timed.search.run.map _).map _ = _
  rw [hrun, ← hcompleted, ← hreason]
  rfl

/-- A refresh that finds nothing in flight completes the run once the fill is saved. -/
theorem saves_asked {run : SearchRun} {now : Int} {first : StopReason}
    (hinv : OrderlyInv searchRunId timed) (hasked : asked timed.search step = some (run, now))
    (hmet : stopReason run now = some first) (hnone : inFlight run = 0) :
    Saves first ((timedSystem storage generators searchRunId).next timed step) := by
  obtain ⟨fill, again, summary, topScore, rfl, hholds, hphase, rfl⟩ := asked_eq_some hasked
  obtain ⟨⟨stored, hstored, -⟩, -⟩ := hinv.reached.budget.fill fill hholds
  obtain ⟨hsaving, -, hdrained⟩ := @Fill.ranked_of_met generators fill summary.candidatesTested now
    first again _ _ _ _ hmet
  simp only [timedSystem, searchNext, hholds, fillNext, hphase]
  refine ⟨?_, _, rfl, hsaving, hdrained hnone⟩
  show timed.search.run.isSome
  rw [hstored]
  rfl

/-- No candidate is submitted; every refresh finds a condition met, and the first one that finds
nothing in flight as well completes the run with that condition. -/
structure Finished (storage : Storage) (generators : Generators) (searchRunId : String)
    (timed : TimedSearch) (steps : List SearchStep) : Prop where
  unsubmitted : ∀ candidate dispatch, SearchStep.fill (.create candidate dispatch) ∉ steps
  met : ∀ before step later run now, steps = before ++ step :: later →
    asked ((timedSystem storage generators searchRunId).run timed before).search step =
      some (run, now) →
    ∃ first, stopReason run now = some first ∧ (inFlight run = 0 → ∀ between rest,
      later = between ++ .fill .commit :: rest → (∀ other ∈ between, other.isFill = false) →
      ((timedSystem storage generators searchRunId).run timed
          (before ++ step :: between ++ [.fill .commit])).search.run.map
        (fun run => (run.state, run.stopReason)) = some (.completed, some first))

/-- Once a refresh has found the active time spent, the candidates used up, or no improvement for so
many candidates while none is found afterwards either, the run is over: in every continuation with
whole fills, pauses and resumptions, and whatever becomes of the candidates in flight. -/
theorem met_stop_condition_final (storage : Storage) (generators : Generators)
    (searchRunId : String) (clock : Int) (before : List SearchStep) (found : SearchStep)
    (later : List SearchStep)
    (h : (timedSystem storage generators searchRunId).Legal Orderly
      ⟨SearchWorld.empty, clock, false⟩ (before ++ [found]))
    (run : SearchRun) (now : Int) (reason : StopReason)
    (hasked : asked (timedAfter storage generators searchRunId clock before).search found =
      some (run, now))
    (hmet : stopReason run now = some reason)
    (hlater : (timedSystem storage generators searchRunId).Legal (Steady reason)
      (timedAfter storage generators searchRunId clock (before ++ [found])) later) :
    Finished storage generators searchRunId (timedAfter storage generators searchRunId clock before)
      (found :: later) := by
  obtain ⟨hbefore, hfound⟩ := GuardedSystem.legal_append.mp h
  have hinv := OrderlyInv.after hbefore
  have hstopping := stopping_found hinv hfound.1.1 hasked hmet
  have hinv' := hinv.next hfound.1.1 hfound.1.2
  have hrun : timedAfter storage generators searchRunId clock (before ++ [found]) =
      (timedSystem storage generators searchRunId).next
        (timedAfter storage generators searchRunId clock before) found :=
    GuardedSystem.run_append _ before [found]
  rw [hrun] at hlater
  change (timedSystem storage generators searchRunId).Legal Orderly
    (timedAfter storage generators searchRunId clock before) [found] at hfound
  generalize timedAfter storage generators searchRunId clock before = timed at *
  have horderly := hlater.mono fun _ _ hsteady => hsteady.1
  -- where a later step fires, the condition still stops the run
  have hstops : ∀ middle step rest, later = middle ++ step :: rest →
      let waiting := (timedSystem storage generators searchRunId).run
        ((timedSystem storage generators searchRunId).next timed found) middle
      OrderlyInv searchRunId waiting ∧ Stopping searchRunId run.candidatesTested reason waiting ∧
        (timedSystem storage generators searchRunId).enabled waiting step ∧
        Steady reason waiting step := by
    rintro middle step rest rfl waiting
    obtain ⟨hmiddle, hstep⟩ := GuardedSystem.legal_append.mp hlater
    have hboth := hmiddle.invariant
      (fun timed => OrderlyInv searchRunId timed ∧
        Stopping searchRunId run.candidatesTested reason timed)
      (fun _ _ hinv henabled hsteady =>
        ⟨hinv.1.next henabled hsteady.1, hinv.2.next hinv.1 henabled hsteady⟩)
      ⟨hinv', hstopping⟩
    exact ⟨hboth.1, hboth.2, hstep.1.1, hstep.1.2⟩
  constructor
  · intro candidate dispatch hmem
    rcases List.mem_cons.mp hmem with rfl | hmem
    · cases hasked
    · obtain ⟨middle, rest, hsplit⟩ := List.append_of_mem hmem
      obtain ⟨-, hstopping, henabled, -⟩ := hstops middle _ rest hsplit
      exact hstopping.nothing_created henabled
  · intro middle step rest run' now' hsplit hasked'
    have hreaches : OrderlyInv searchRunId
          ((timedSystem storage generators searchRunId).run timed middle) ∧
        ∃ first, stopReason run' now' = some first := by
      cases middle with
      | nil =>
        cases hsplit
        change asked timed.search found = _ at hasked'
        rw [hasked] at hasked'
        cases hasked'
        exact ⟨hinv, reason, hmet⟩
      | cons first middle =>
        cases hsplit
        obtain ⟨hinv, hstopping, henabled, hsteady⟩ := hstops middle step rest rfl
        exact ⟨hinv, hstopping.asked henabled hsteady hasked'⟩
    obtain ⟨hinv, first, hfirst⟩ := hreaches
    refine ⟨first, hfirst, ?_⟩
    rintro hnone between last rfl hother
    have hlegal : (timedSystem storage generators searchRunId).Legal Orderly timed
        (found :: later) := ⟨hfound.1, horderly⟩
    rw [hsplit] at hlegal
    obtain ⟨-, -, hrest⟩ := GuardedSystem.legal_append.mp hlegal
    obtain ⟨hbetween, -⟩ := GuardedSystem.legal_append.mp hrest
    have hsaves := saves_run (saves_asked hinv hasked' hfirst hnone) hbetween hother
    have hend : ((timedSystem storage generators searchRunId).next _ (.fill .commit)).search.run.map
      (fun run => (run.state, run.stopReason)) = some (.completed, some first) :=
      saves_committed hsaves
    rw [← hend, List.append_assoc, GuardedSystem.run_append, List.cons_append]
    show ((timedSystem storage generators searchRunId).run _
      (between ++ [.fill .commit])).search.run.map _ = _
    rw [GuardedSystem.run_append]
    rfl

namespace Sample

/-- A fingerprint for every iteration. -/
def spelled : Generators := fun _ => some fun _ context =>
  .ok ⟨String.ofList (List.replicate context.iterationNumber 'x')⟩

/-- A candidate is claimed, run and completed. -/
def completion (candidateId : String) (iteration : Nat) : List SearchStep :=
  let delivery :=
    { Backtesting.Sample.delivery 1 "f" 0 with
      candidateId, queueJobId := candidateId, attemptId := .delivery candidateId 1 }
  let result := { Backtesting.Sample.success 1 "f" 1000 with
    candidateId, attemptId := .delivery candidateId 1 }
  let row := (((candidate candidateId iteration).submitted.claimed delivery).persisted 1000
    ).completionClaimed "k" 2000 62000
  [.operation (.claimWorkerAttempt delivery), .operation (.persistWorkerSuccess result),
    .operation (.claimCompletion candidateId "k" 2000 62000), .operation (.read candidateId),
    .operation (.finalizeCompletion row candidateId "k" 3000)]

/-- Three candidates are submitted. The first is completed before the fill ends, the second before
the next one, and the best score stays: no improvement, with the third in flight. -/
def untilStale : List SearchStep :=
  .start { config 3 with stopCondition := ⟨none, none, some 1⟩ } "u" 0 :: planning
    ++ (submission "c" 1 ++ submission "d" 2 ++ submission "e" 3 ++ [.fill .generate])
    ++ completion "c" 1 ++ [.fill .summarize, .fill (.rank (some (.ofInt 1)) 0), .fill .commit]
    ++ completion "d" 2 ++ [.lock, .fill .summarize]

/-- The third is completed too. -/
def drained : List SearchStep :=
  .fill .commit :: completion "e" 3 ++ [.lock, .fill .summarize]

end Sample

/-- The third candidate is no better: the run is completed. -/
theorem met_stop_condition_final_drained :
    Finished .postgres Sample.spelled "r" (timedAfter .postgres Sample.spelled "r" 0 Sample.untilStale)
      (.fill (.rank (some (.ofInt 1)) 0) ::
        (Sample.drained ++ [.fill (.rank (some (.ofInt 1)) 4000), .fill .commit])) := by
  have hanswer : ((asked (timedAfter .postgres Sample.spelled "r" 0 Sample.untilStale).search
      (.fill (.rank (some (.ofInt 1)) 0))).bind fun answer => stopReason answer.1 answer.2) =
        some .noImprovement := by decide
  obtain ⟨⟨run, now⟩, hasked, hmet⟩ := Option.bind_eq_some_iff.mp hanswer
  exact met_stop_condition_final .postgres Sample.spelled "r" 0 Sample.untilStale _ _
    (by decide) run now .noImprovement hasked hmet (by decide)

/-- The third candidate beats the best score, and the next fill submits a fourth. -/
theorem improvement_after_stop :
    let later := Sample.drained ++ .fill (.rank (some (.ofInt 2)) 4000) :: Sample.submission "g" 4
    (timedSystem .postgres Sample.spelled "r").Legal Orderly ⟨SearchWorld.empty, 0, false⟩
        (Sample.untilStale ++ .fill (.rank (some (.ofInt 1)) 0) :: later) ∧
      ((asked (timedAfter .postgres Sample.spelled "r" 0 Sample.untilStale).search
        (.fill (.rank (some (.ofInt 1)) 0))).bind fun answer => stopReason answer.1 answer.2) =
          some .noImprovement ∧
      ¬ Finished .postgres Sample.spelled "r"
        (timedAfter .postgres Sample.spelled "r" 0 Sample.untilStale)
        (.fill (.rank (some (.ofInt 1)) 0) :: later) := by
  intro later
  refine ⟨by decide, by decide, fun hfinished => ?_⟩
  refine hfinished.unsubmitted (Sample.candidate "g" 4) (Sample.dispatch "g") ?_
  simp [later, Sample.submission]

end Cryptox.Search
