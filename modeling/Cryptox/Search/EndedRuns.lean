import Cryptox.Search.Runs

/-!
# Ended runs

Completed, cancelled and failed runs stay so unless a row that was read before is written back over
them, or a completed run is cancelled. A fill does not disturb them: while it holds the lock the
stored run is running.
-/
namespace Cryptox.Search

open Cryptox.Library
open Cryptox.Backtesting (Storage)

/-- What ended in one world is as it was in a later one. -/
def EndKept (world later : SearchWorld) : Prop :=
  ∀ state, world.state = some state → ended state = true → later.state = some state

/-- The steps that leave an ended run alone: nothing is written back over it, but for a failure over
a failure, and a completed run is not cancelled. -/
def KeepsEnd (world : SearchWorld) : SearchStep → Prop
  | .pause .. | .resume .. => ∀ state ∈ world.state, ended state = false
  | .fail .. => ∀ state ∈ world.state, ended state = true → state = .failed
  | .cancel _ => ∀ state ∈ world.state, state ≠ .completed
  | _ => True

instance (world : SearchWorld) : ∀ step, Decidable (KeepsEnd world step)
  | .pause .. | .resume .. => inferInstanceAs (Decidable (∀ state ∈ world.state, _))
  | .fail .. => inferInstanceAs (Decidable (∀ state ∈ world.state, _ → _))
  | .cancel _ => inferInstanceAs (Decidable (∀ state ∈ world.state, _))
  | .operation _ | .start .. | .read | .lock | .fill _ => inferInstanceAs (Decidable True)

def SearchStep.isResume : SearchStep → Bool
  | resume .. => true
  | _ => false

/-- A fill that has something to save has locked a running run. -/
def LockedRunning (world : SearchWorld) : Prop :=
  ∀ fill, world.fill = some fill → fill.phase ≠ .returning → world.state = some .running

variable {storage : Storage} {generators : Generators} {searchRunId : String}
  {world later : SearchWorld} {step : SearchStep}

theorem lockedRunning_moved (h : LockedRunning world)
    (hmoved : Moved storage generators searchRunId world step later) : LockedRunning later := by
  cases hmoved with
  | operated | nothing | read => exact h
  | started hfresh =>
    intro fill hfill hphase
    have hrunning := h fill hfill hphase
    rw [SearchWorld.state, hfresh] at hrunning
    cases hrunning
  | wrote hunlocked =>
    intro fill hfill
    rw [show world.fill = some fill from hfill] at hunlocked
    cases hunlocked
  | @locked run hunlocked hstored =>
    intro fill hfill hphase
    cases hfill
    show world.run.map (·.state) = some .running
    by_cases hrunning : run.state = .running
    · rw [hstored, Option.map_some, hrunning]
    · simp [Fill.ofRun, hrunning] at hphase
  | @filled fill step later hholds hmoved =>
    cases hmoved with
    | summarized again hphase | ranked again summary hphase | generated hphase
    | accepted generated hphase =>
      exact fun _ _ _ => h fill hholds (by rw [hphase]; nofun)
    | rejected generated hphase =>
      exact fun _ _ _ => h fill hholds (by rcases hphase with hp | hp <;> rw [hp] <;> nofun)
    | @created candidate dispatch generated hphase =>
      have hcreated := fillCreates_created storage world fill generated candidate dispatch
      intro _ _ _
      rw [SearchWorld.state, hcreated.run]
      exact h fill hholds (by rw [hphase]; nofun)
    | saved | returned | rolledBack => exact fun _ hfill => by cases hfill

theorem state_save (world : SearchWorld) (run : SearchRun) :
    (world.save run).state = world.state.map fun _ => run.state := by
  rw [SearchWorld.state, SearchWorld.state, SearchWorld.save, Option.map_map, Option.map_map]
  rfl

theorem endKept_save_iff (world : SearchWorld) (run : SearchRun) :
    EndKept world (world.save run) ↔
      ∀ state ∈ world.state, ended state = true → state = run.state := by
  unfold EndKept
  rw [state_save]
  constructor
  · intro hkept state hstate hended
    rw [Option.mem_def] at hstate
    have hlater := hkept state hstate hended
    rw [hstate] at hlater
    exact (Option.some.inj hlater).symm
  · intro hsame state hstate hended
    rw [hstate, Option.map_some, hsame state hstate hended]

theorem endKept_of_state (h : later.state = world.state) : EndKept world later :=
  fun _ hstate _ => h.trans hstate

theorem endKept_fillMoved (h : LockedRunning world) {fill : Fill} {step : FillStep}
    (hholds : world.fill = some fill)
    (hmoved : FillMoved storage generators world fill step later) : EndKept world later := by
  cases hmoved with
  | created generated =>
    refine endKept_of_state ?_
    rw [SearchWorld.state, (fillCreates_created storage world fill generated _ _).run]
    rfl
  | saved hphase =>
    intro state hstate hended
    rw [h fill hholds (by rw [hphase]; nofun)] at hstate
    cases hstate
    cases hended
  | _ => exact endKept_of_state rfl

/-- A step leaves an ended run alone exactly when it is one of those that do. -/
theorem endKept_next_iff (h : LockedRunning world) (henabled : world.enabled searchRunId step) :
    EndKept world (searchNext storage generators searchRunId world step) ↔ KeepsEnd world step := by
  have hends : ∀ run : SearchRun, ended run.state = false →
      ((∀ state ∈ world.state, ended state = true → state = run.state) ↔
        ∀ state ∈ world.state, ended state = false) := by
    intro run hlive
    refine forall₂_congr fun state _ => ?_
    constructor
    · intro hsame
      by_contra hended
      rw [Bool.not_eq_false] at hended
      rw [← hsame hended, hended] at hlive
      cases hlive
    · intro hopen hended
      rw [hopen] at hended
      cases hended
  cases step with
  | operation step => exact iff_of_true (endKept_of_state rfl) trivial
  | start config ownerUserId now =>
    refine iff_of_true (fun state hstate => ?_) trivial
    rw [SearchWorld.state, show world.run = none from henabled] at hstate
    cases hstate
  | read => exact iff_of_true (endKept_of_state rfl) trivial
  | pause copy now => exact (endKept_save_iff world _).trans (hends (copy.pausedAt now) rfl)
  | resume copy now => exact (endKept_save_iff world _).trans (hends (copy.resumedAt now) rfl)
  | fail copy error now => exact endKept_save_iff world _
  | cancel now =>
    cases hrun : world.run with
    | none =>
      have hstate : world.state = none := by rw [SearchWorld.state, hrun]; rfl
      simp [searchNext, hrun, KeepsEnd, hstate, EndKept]
    | some run =>
      have hstate : world.state = some run.state := by rw [SearchWorld.state, hrun]; rfl
      simp only [searchNext, hrun]
      split
      next hclosed =>
        refine iff_of_true (endKept_of_state rfl) ?_
        intro state hmem
        rw [hstate, Option.mem_some_iff] at hmem
        rcases hclosed with hs | hs <;> rw [← hmem, hs] <;> simp
      next hopen =>
        rw [endKept_save_iff]
        simp only [KeepsEnd, hstate, Option.mem_some_iff, forall_eq', SearchRun.cancelledAt]
        rw [not_or] at hopen
        cases hs : run.state <;> simp_all [ended]
  | lock =>
    simp only [searchNext]
    split
    · exact iff_of_true (endKept_of_state rfl) trivial
    · exact iff_of_true (endKept_of_state rfl) trivial
  | fill step =>
    refine iff_of_true ?_ trivial
    obtain ⟨fill, hholds, hallowed⟩ := henabled
    rw [Option.mem_def] at hholds
    simp only [searchNext, hholds]
    exact endKept_fillMoved h hholds (fillNext_moved hallowed)

/-- A paused run is made running by a resumption only. -/
theorem resumed_of_running (h : LockedRunning world) (henabled : world.enabled searchRunId step)
    (hpaused : world.state = some .paused)
    (hrunning : (searchNext storage generators searchRunId world step).state = some .running) :
    step.isResume = true := by
  have hmoved : Moved storage generators searchRunId world step
      (searchNext storage generators searchRunId world step) := searchNext_moved henabled
  generalize searchNext storage generators searchRunId world step = later at hmoved hrunning
  have hchanged : later.state ≠ world.state := by
    rw [hpaused, hrunning]
    nofun
  cases hmoved with
  | operated | nothing | read | locked => exact absurd rfl hchanged
  | started hfresh =>
    rw [SearchWorld.state, hfresh] at hpaused
    cases hpaused
  | @wrote step copy run hunlocked hwrites =>
    rw [state_save, hpaused] at hrunning
    cases hwrites with
    | resumed => rfl
    | paused | failed | cancelled => cases hrunning
  | @filled fill step later hholds hmoved =>
    cases hmoved with
    | created generated =>
      refine absurd ?_ hchanged
      rw [SearchWorld.state, (fillCreates_created storage world fill generated _ _).run]
      rfl
    | saved hphase =>
      rw [h fill hholds (by rw [hphase]; nofun)] at hpaused
      cases hpaused
    | _ => exact absurd rfl hchanged

/-- What the states of a run may do: once ended they stay as they are, and out of a pause they get
by a resumption only. -/
structure EndsAbsorb (storage : Storage) (generators : Generators) (searchRunId : String)
    (steps : List SearchStep) : Prop where
  kept : ∀ before middle later, steps = before ++ (middle ++ later) →
    EndKept (searchAfter storage generators searchRunId before)
      (searchAfter storage generators searchRunId (before ++ middle))
  resumed : ∀ before step later, steps = before ++ step :: later →
    (searchAfter storage generators searchRunId before).state = some .paused →
    (searchAfter storage generators searchRunId (before ++ [step])).state = some .running →
    step.isResume = true

theorem lockedRunning_after {cond : SearchWorld → SearchStep → Prop} {steps : List SearchStep}
    (h : (searchSystem storage generators searchRunId).Legal cond SearchWorld.empty steps) :
    LockedRunning (searchAfter storage generators searchRunId steps) :=
  searchAfter_invariant LockedRunning (fun _ hfill => by cases hfill)
    (fun _ _ _ hinv _ hmoved => lockedRunning_moved hinv hmoved) h

/-- A run of the search absorbs in its ended states exactly when each of its steps leaves an ended
run alone. -/
theorem ends_absorb_iff (storage : Storage) (generators : Generators) (searchRunId : String)
    (steps : List SearchStep)
    (h : (searchSystem storage generators searchRunId).Legal (fun _ _ => True) SearchWorld.empty
      steps) :
    EndsAbsorb storage generators searchRunId steps ↔
      (searchSystem storage generators searchRunId).Legal KeepsEnd SearchWorld.empty steps := by
  have hstep : ∀ before step later, steps = before ++ step :: later →
      LockedRunning (searchAfter storage generators searchRunId before) ∧
        (searchAfter storage generators searchRunId before).enabled searchRunId step := by
    rintro before step later rfl
    obtain ⟨hbefore, hlater⟩ := GuardedSystem.legal_append.mp h
    exact ⟨lockedRunning_after hbefore, hlater.1.1⟩
  constructor
  · intro habsorb
    refine GuardedSystem.legal_iff_forall.mpr ⟨h, fun before step later heq => ?_⟩
    obtain ⟨hlocked, henabled⟩ := hstep before step later heq
    have hkept := habsorb.kept before [step] later heq
    rw [searchAfter_append] at hkept
    exact (endKept_next_iff hlocked henabled).mp hkept
  · intro hkeeps
    constructor
    · rintro before middle later rfl
      rw [← List.append_assoc] at hkeeps
      obtain ⟨hboth, -⟩ := GuardedSystem.legal_append.mp hkeeps
      obtain ⟨hbefore, hmiddle⟩ := GuardedSystem.legal_append.mp hboth
      rw [searchAfter_append]
      refine hmiddle.stable LockedRunning
        (EndKept (searchAfter storage generators searchRunId before)) ?_ ?_
        (lockedRunning_after hbefore) (fun _ hstate _ => hstate)
      · exact fun _ _ hinv henabled _ => lockedRunning_moved hinv (searchNext_moved henabled)
      · intro world step hinv hkept henabled hc state hstate hended
        exact (endKept_next_iff hinv henabled).mpr hc state (hkept state hstate hended) hended
    · intro before step later heq hpaused hrunning
      obtain ⟨hlocked, henabled⟩ := hstep before step later heq
      rw [searchAfter_append] at hrunning
      exact resumed_of_running hlocked henabled hpaused hrunning

/-- The run is drained before its first candidate: a fill finds it two seconds old, with a second
to go on. Its owner's page has read it before. -/
def untilCompleted : List SearchStep :=
  [.start { Sample.config 1 with stopCondition := ⟨none, some 1, none⟩ } "u" 0, .read]
    ++ [.lock, .fill .summarize, .fill (.rank none 2000), .fill .commit]

/-- The row as the page has read it. -/
def copyBefore : SearchRun :=
  createRun "r" { Sample.config 1 with stopCondition := ⟨none, some 1, none⟩ } "u" 0

/-- A completed run that is not written over: a later fill finds nothing to do. -/
theorem ends_absorb_iff_completed :
    EndsAbsorb .postgres Sample.numbered "r" (untilCompleted ++ [.lock, .fill .commit]) :=
  (ends_absorb_iff .postgres Sample.numbered "r" _ (by decide)).mpr (by decide)

/-- The page pauses the run it has read, and the completed run is paused. -/
theorem completed_run_paused :
    (searchSystem .postgres Sample.numbered "r").Legal (fun _ _ => True) SearchWorld.empty
        (untilCompleted ++ [.pause copyBefore 3000]) ∧
      ¬ EndsAbsorb .postgres Sample.numbered "r" (untilCompleted ++ [.pause copyBefore 3000]) := by
  refine ⟨by decide, fun habsorb => ?_⟩
  have hkept := habsorb.kept untilCompleted [.pause copyBefore 3000] [] (by simp)
  have hcompleted : (searchAfter .postgres Sample.numbered "r" untilCompleted).state =
      some .completed := by decide
  have hpaused : (searchAfter .postgres Sample.numbered "r"
      (untilCompleted ++ [.pause copyBefore 3000])).state = some .paused := by decide
  have hlater := hkept .completed hcompleted rfl
  rw [hpaused] at hlater
  cases hlater

end Cryptox.Search
