import Cryptox.Search.Budget
import Cryptox.Search.EndedRuns

/-!
# Candidates in flight

The counts a fill works with miss the candidates whose failure is pending. Where there is none when
a fill counts, it fills up to `maxInFlight` and no further, and completes a run only when nothing of
it is alive.
-/
namespace Cryptox.Search

open Cryptox.Library
open Cryptox.Backtesting (Storage World Step StoredCandidate BacktestDispatch SearchCandidateSummary
  JsNumber LeavesTerminal summarizeSearchCandidates pendingFailures)

/-- A fill counts the candidates of its run while no failure is pending, and what the others do
leaves terminal candidates terminal. -/
def CountsInFlight (searchRunId : String) (world : SearchWorld) : SearchStep → Prop
  | .operation step => LeavesTerminal world.backtesting step
  | .fill .summarize => pendingFailures (world.backtesting.ofRun searchRunId) = 0
  | _ => True

instance (searchRunId : String) (world : SearchWorld) :
    ∀ step, Decidable (CountsInFlight searchRunId world step)
  | .operation step => inferInstanceAs (Decidable (LeavesTerminal world.backtesting step))
  | .fill .summarize =>
    inferInstanceAs (Decidable (pendingFailures (world.backtesting.ofRun searchRunId) = 0))
  | .start .. | .read | .pause .. | .resume .. | .fail .. | .cancel _ | .lock | .fill (.rank ..)
  | .fill .generate | .fill (.create ..) | .fill .accepted | .fill (.rejected _) | .fill .commit
  | .fill .rollback => inferInstanceAs (Decidable True)

/-- The live candidates against what a fill has counted and submitted since. Once a submission was
stored without being answered, the iteration it is for is taken. -/
structure Fill.Counted (fill : Fill) (live : Nat) (taken : Prop) : Prop where
  running : fill.phase ≠ .saving → fill.phase ≠ .returning → fill.run.state = .running
  ranking : ∀ again summary, fill.phase = .ranking again summary →
    live ≤ summary.queuedCount + summary.runningCount
  slots : fill.phase.inLoop = true → fill.slots ≤ fill.run.maxInFlight - inFlight fill.run
  open' : fill.phase.submits = true → fill.submitted < fill.slots
  submitted : fill.phase.inLoop = true → live ≤ inFlight fill.run + fill.submitted ∨
    live ≤ inFlight fill.run + fill.submitted + 1 ∧ fill.submitted < fill.slots ∧ taken
  saving : fill.phase = .saving → fill.run.state = .completed → live = 0

def SearchWorld.Taken (world : SearchWorld) (run : SearchRun) : Prop :=
  ∃ candidate ∈ world.backtesting.ofRun run.searchRunId,
    candidate.iterationNumber = some run.nextIteration

namespace Fill

variable {fill : Fill} {live : Nat} {taken : Prop}

theorem counted_mono (h : fill.Counted live taken) {live' : Nat} {taken' : Prop}
    (hlive : live' ≤ live) (hkept : taken → taken') : fill.Counted live' taken' where
  running := h.running
  ranking := fun again summary hphase => hlive.trans (h.ranking again summary hphase)
  slots := h.slots
  open' := h.open'
  submitted := by
    intro hin
    rcases h.submitted hin with hle | ⟨hle, hopen, htaken⟩
    · exact Or.inl (hlive.trans hle)
    · exact Or.inr ⟨hlive.trans hle, hopen, hkept htaken⟩
  saving := fun hphase hcompleted => Nat.le_zero.mp (hlive.trans (h.saving hphase hcompleted).le)

theorem counted_throwing {run : SearchRun} (hrunning : run.state = .running)
    (slots submitted attempts : Nat)
    (error : String) : (Fill.mk run slots submitted attempts (.throwing error)).Counted live taken :=
  ⟨fun _ _ => hrunning, nofun, nofun, nofun, nofun, nofun⟩

/-- A fill that saves its run counts on, provided that a completed run has nothing alive. -/
theorem counted_saving {saved : Fill} (hphase : saved.phase = .saving)
    (hdrained : saved.run.state = .completed → live = 0) : saved.Counted live taken where
  running := fun hnot => absurd hphase hnot
  ranking := by
    intro again summary hranking
    rw [hphase] at hranking
    cases hranking
  slots := by
    intro hin
    rw [hphase] at hin
    cases hin
  open' := by
    intro hsubmits
    rw [hphase] at hsubmits
    cases hsubmits
  submitted := by
    intro hin
    rw [hphase] at hin
    cases hin
  saving := fun _ => hdrained

theorem counted_ofRun (run : SearchRun) : (Fill.ofRun run).Counted live taken := by
  unfold Fill.ofRun
  split
  next hrunning => exact ⟨fun _ _ => hrunning, nofun, nofun, nofun, nofun, nofun⟩
  next => exact ⟨fun _ hnot => absurd rfl hnot, nofun, nofun, nofun, nofun, nofun⟩

/-- The loop goes on with what it had. -/
theorem counted_looping (h : fill.Counted live taken) (hin : fill.phase.inLoop = true)
    (attempts : Nat) : ({ fill with attempts, phase := .looping } : Fill).Counted live taken where
  running := fun _ _ => h.running (by cases hphase : fill.phase <;> simp_all [Phase.inLoop])
    (by cases hphase : fill.phase <;> simp_all [Phase.inLoop])
  ranking := nofun
  slots := fun _ => h.slots hin
  open' := nofun
  submitted := fun _ => h.submitted hin
  saving := nofun

theorem running_of_inLoop (h : fill.Counted live taken) (hin : fill.phase.inLoop = true) :
    fill.run.state = .running :=
  (counted_looping h hin 0).running nofun nofun

theorem counted_retried (h : fill.Counted live taken) (hin : fill.phase.inLoop = true)
    (attempts : Nat) (error : String) :
    (({ fill with attempts } : Fill).retried error).Counted live taken := by
  unfold retried
  split
  · exact counted_throwing (running_of_inLoop h hin) _ _ _ error
  · exact counted_looping h hin attempts

theorem counted_generated {generators : Generators} (h : fill.Counted live taken)
    (hphase : fill.phase = .looping) : (fill.generated generators).Counted live taken := by
  have hin : fill.phase.inLoop = true := by rw [hphase]; rfl
  have hrunning := running_of_inLoop h hin
  unfold generated
  split
  next hopen =>
    dsimp only
    split
    · exact counted_throwing hrunning _ _ _ _
    · split
      next error _ => exact counted_retried h hin (fill.attempts + 1) error
      next candidate _ =>
        split
        · rw [hphase]
          exact counted_looping h hin (fill.attempts + 1)
        · exact ⟨fun _ _ => hrunning, nofun, fun _ => h.slots hin, fun _ => hopen.1,
            fun _ => h.submitted hin, nofun⟩
  next =>
    unfold exited
    split
    · exact counted_throwing hrunning _ _ _ _
    · exact ⟨fun _ _ => hrunning, nofun, nofun, nofun, nofun, nofun⟩

theorem counted_accepted (h : fill.Counted live taken) {generated : GeneratedCandidate}
    (hphase : fill.phase = .stored generated) {taken' : Prop} :
    (fill.accepted generated).Counted live taken' where
  running := fun _ _ => h.running (by rw [hphase]; nofun) (by rw [hphase]; nofun)
  ranking := nofun
  slots := fun _ => h.slots (by rw [hphase]; rfl)
  open' := nofun
  submitted := by
    intro _
    have hsubmitted := h.submitted (by rw [hphase]; rfl)
    refine Or.inl ?_
    show live ≤ inFlight fill.run + (fill.submitted + 1)
    omega
  saving := nofun

theorem counted_summarized (h : fill.Counted live taken) {again : Bool}
    (hphase : fill.phase = .summarizing again) {answer : Except String SearchCandidateSummary}
    (hanswer : ∀ summary, answer = .ok summary →
      live ≤ summary.queuedCount + summary.runningCount) {taken' : Prop} :
    (fill.summarized again answer).Counted live taken' := by
  have hrunning := h.running (by rw [hphase]; nofun) (by rw [hphase]; nofun)
  cases answer with
  | error error => exact counted_throwing hrunning _ _ _ error
  | ok summary =>
    refine ⟨fun _ _ => hrunning, ?_, nofun, nofun, nofun, nofun⟩
    intro again' summary' hranking
    cases hranking
    exact hanswer summary rfl

/-- A submission is stored: as one candidate more, of an iteration that was not taken, or none. -/
theorem counted_stored (h : fill.Counted live taken) {generated : GeneratedCandidate}
    (hphase : fill.phase = .submitting generated) {live' : Nat} {taken' : Prop}
    (hlive : live' ≤ live ∧ (taken → taken') ∨ live' ≤ live + 1 ∧ ¬ taken ∧ taken') :
    ({ fill with phase := .stored generated } : Fill).Counted live' taken' where
  running := fun _ _ => h.running (by rw [hphase]; nofun) (by rw [hphase]; nofun)
  ranking := nofun
  slots := fun _ => h.slots (by rw [hphase]; rfl)
  open' := fun _ => h.open' (by rw [hphase]; rfl)
  submitted := by
    intro _
    have hopen := h.open' (by rw [hphase]; rfl)
    have hsubmitted := h.submitted (by rw [hphase]; rfl)
    rcases hlive with ⟨hle, hkept⟩ | ⟨hle, hnot, htaken⟩
    · rcases hsubmitted with hfirst | ⟨hsecond, -, htaken⟩
      · exact Or.inl (hle.trans hfirst)
      · exact Or.inr ⟨hle.trans hsecond, hopen, hkept htaken⟩
    · rcases hsubmitted with hfirst | ⟨-, -, htaken⟩
      · exact Or.inr ⟨hle.trans (Nat.succ_le_succ hfirst), hopen, htaken⟩
      · exact absurd htaken hnot
  saving := nofun

/-- A run is completed only if what was counted for it is nothing. -/
theorem drained_of_completed {run : SearchRun} (hrunning : run.state = .running)
    (hlive : live ≤ inFlight run) {met : Option StopReason} {now : Int}
    (hcompleted : (completeIfDrained run met now).state = .completed) : live = 0 := by
  unfold completeIfDrained at hcompleted
  split at hcompleted
  · rw [hrunning] at hcompleted
    cases hcompleted
  · split at hcompleted
    next hnone => omega
    next =>
      rw [hrunning] at hcompleted
      cases hcompleted

theorem counted_ranked {generators : Generators} (h : fill.Counted live taken) {again : Bool}
    {summary : SearchCandidateSummary} {topScore : Option JsNumber} {now : Int}
    (hphase : fill.phase = .ranking again summary) {taken' : Prop} :
    (fill.ranked generators again summary topScore now).Counted live taken' := by
  obtain ⟨hfixed, -, hstate, hcount⟩ := refresh_kept fill.run summary topScore now
  have hrunning : (refresh fill.run summary topScore now).state = .running :=
    hstate.trans (h.running (by rw [hphase]; simp) (by rw [hphase]; simp))
  have hlive : live ≤ inFlight (refresh fill.run summary topScore now) := by
    rw [hcount]
    exact h.ranking again summary hphase
  unfold ranked
  dsimp only
  generalize refresh fill.run summary topScore now = run at hrunning hlive
  cases again with
  | true =>
    exact counted_saving rfl fun hcompleted => drained_of_completed hrunning hlive hcompleted
  | false =>
    simp only [Bool.false_eq_true, ↓reduceIte, planned]
    split
    · exact counted_saving rfl fun hcompleted => drained_of_completed hrunning hlive hcompleted
    · split
      · exact counted_throwing hrunning _ _ _ _
      · refine ⟨fun _ _ => hrunning, fun _ _ hranking => ?_, fun _ => Nat.min_le_left _ _,
          fun hsubmits => ?_, fun _ => Or.inl hlive, fun hsaving => ?_⟩
        · cases hranking
        · cases hsubmits
        · cases hsaving

end Fill

variable {storage : Storage} {generators : Generators} {searchRunId : String}
  {world later : SearchWorld} {step : SearchStep}

/-- The candidates of the run are its owner's, and past the first status. -/
structure OwnedInv (searchRunId : String) (world : SearchWorld) : Prop where
  noneCreated : world.backtesting.NoneCreated
  owners : ∀ candidate ∈ world.backtesting.ofRun searchRunId,
    ∃ run, world.run = some run ∧ candidate.ownerUserId = run.ownerUserId

theorem ownedInv_of_run (h : OwnedInv searchRunId world)
    (hbacktesting : later.backtesting = world.backtesting)
    (hrun : ∀ run, world.run = some run →
      ∃ run', later.run = some run' ∧ run'.ownerUserId = run.ownerUserId) :
    OwnedInv searchRunId later where
  noneCreated := hbacktesting ▸ h.noneCreated
  owners := by
    rw [hbacktesting]
    intro candidate hmem
    obtain ⟨run, hstored, howner⟩ := h.owners candidate hmem
    obtain ⟨run', hlater, hsame⟩ := hrun run hstored
    exact ⟨run', hlater, howner.trans hsame.symm⟩

theorem ownedInv_moved (hbudget : BudgetInv searchRunId world) (h : OwnedInv searchRunId world)
    (hmoved : Moved storage generators searchRunId world step later) :
    OwnedInv searchRunId later := by
  cases hmoved with
  | @operated step hother henabled =>
    refine ⟨Storage.noneCreated_next h.noneCreated, fun candidate hmem => ?_⟩
    have hsubmission : candidate.submission ∈
        ((storage.next world.backtesting step).ofRun searchRunId).map (·.submission) :=
      List.mem_map_of_mem hmem
    rw [Storage.submissions_next storage hbudget.sourced henabled hother] at hsubmission
    obtain ⟨before, hbefore, hequal⟩ := List.mem_map.mp hsubmission
    obtain ⟨run, hrun, howner⟩ := h.owners before hbefore
    have hsame : before.ownerUserId = candidate.ownerUserId := congrArg (·.2.2) hequal
    exact ⟨run, hrun, hsame.symm.trans howner⟩
  | started hfresh =>
    refine ownedInv_of_run h rfl fun run hrun => ?_
    rw [hfresh] at hrun
    cases hrun
  | nothing => exact h
  | read | locked => exact ownedInv_of_run h rfl fun run hrun => ⟨run, hrun, rfl⟩
  | @wrote step copy run =>
    exact ownedInv_of_run h rfl fun stored hstored => ⟨_, run_save hstored run, rfl⟩
  | @filled fill step later hholds hmoved =>
    obtain ⟨⟨run, hrun, hfixed⟩, -⟩ := hbudget.fill fill hholds
    cases hmoved with
    | @created candidate dispatch generated hphase hrequested hfresh =>
      have hcreated := fillCreates_created storage world fill generated candidate dispatch
      have hid : fill.run.searchRunId = searchRunId :=
        (congrArg FixedColumns.searchRunId hfixed).trans (hbudget.row run hrun).1
      have hof := ofRun_created storage hrequested hfresh
      rw [hid] at hof
      constructor
      · rw [hcreated.backtesting]
        exact Storage.noneCreated_next h.noneCreated
      · rw [hcreated.backtesting, hcreated.run]
        intro stored hmem
        rcases hof with ⟨hsame, -⟩ | ⟨-, happend, -⟩
        · exact h.owners stored (hsame ▸ hmem)
        · rw [happend] at hmem
          rcases List.mem_append.mp hmem with hthere | hmade
          · exact h.owners stored hthere
          · rw [List.mem_singleton.mp hmade]
            exact ⟨run, hrun, hrequested.2.2.2.1.trans (congrArg FixedColumns.ownerUserId hfixed)⟩
    | saved => exact ownedInv_of_run h rfl fun stored hstored => ⟨_, run_save hstored fill.run, rfl⟩
    | _ => exact ownedInv_of_run h rfl fun run hrun => ⟨run, hrun, rfl⟩

theorem ownedInv_empty : OwnedInv searchRunId SearchWorld.empty :=
  ⟨Backtesting.noneCreated_start, fun _ hmem => by cases hmem⟩

/-- What holds in every world that is reached. -/
structure ReachedInv (searchRunId : String) (world : SearchWorld) : Prop where
  budget : BudgetInv searchRunId world
  owned : OwnedInv searchRunId world
  locked : LockedRunning world

theorem reachedInv_empty : ReachedInv searchRunId SearchWorld.empty :=
  ⟨budgetInv_empty, ownedInv_empty, fun _ hfill => by cases hfill⟩

theorem reachedInv_moved (h : ReachedInv searchRunId world)
    (hmoved : Moved storage generators searchRunId world step later) :
    ReachedInv searchRunId later :=
  ⟨budgetInv_moved h.budget hmoved, ownedInv_moved h.budget h.owned hmoved,
    lockedRunning_moved h.locked hmoved⟩

structure InFlightInv (searchRunId : String) (world : SearchWorld) : Prop where
  rows : Storage.RowsInv world.backtesting
  bound : ∀ run, world.run = some run → world.backtesting.liveCount searchRunId ≤ run.maxInFlight
  drained : ∀ run, world.run = some run → run.state = .completed →
    world.backtesting.liveCount searchRunId = 0
  counted : ∀ fill, world.fill = some fill →
    fill.Counted (world.backtesting.liveCount searchRunId) (world.Taken fill.run)

/-- What a summary counts of a run, in every world that is reached: all but the pending failures. -/
theorem summary_counts (h : OwnedInv searchRunId world) {run : SearchRun}
    (hrun : world.run = some run) :
    ∃ summary, summarizeSearchCandidates world.backtesting.repository searchRunId run.ownerUserId =
        .ok summary ∧
      summary.queuedCount + summary.runningCount
          + pendingFailures (world.backtesting.ofRun searchRunId) =
        world.backtesting.liveCount searchRunId := by
  refine ⟨_, Backtesting.summarize_eq_ok fun candidate hmem => ?_, ?_⟩
  · obtain ⟨run', hrun', howner⟩ := h.owners candidate hmem
    rw [hrun] at hrun'
    cases hrun'
    exact howner
  · refine Backtesting.counted_add_pending _ fun candidate hmem => ?_
    exact h.noneCreated _ _ (Table.get?_of_mem_rows (World.mem_ofRun.mp hmem).1)

theorem inFlightInv_withFill (h : InFlightInv searchRunId world) {fill : Fill}
    (hcounted : fill.Counted (world.backtesting.liveCount searchRunId) (world.Taken fill.run)) :
    InFlightInv searchRunId (world.withFill fill) where
  rows := h.rows
  bound := h.bound
  drained := h.drained
  counted := by
    intro fill' hfill
    cases hfill
    exact hcounted

theorem inFlightInv_unlocked (h : InFlightInv searchRunId world) :
    InFlightInv searchRunId { world with fill := none } where
  rows := h.rows
  bound := h.bound
  drained := h.drained
  counted := fun _ hfill => by cases hfill

/-- A write of the row that completes the run only if it is drained. -/
theorem inFlightInv_save (h : InFlightInv searchRunId world) {run : SearchRun}
    (hdrained : run.state = .completed → world.backtesting.liveCount searchRunId = 0) :
    InFlightInv searchRunId { world.save run with fill := none } where
  rows := h.rows
  bound := by
    intro run' hrun
    change world.run.map (SearchRun.overwritten · run) = some run' at hrun
    obtain ⟨stored, hstored, rfl⟩ := Option.map_eq_some_iff.mp hrun
    exact h.bound stored hstored
  drained := by
    intro run' hrun hcompleted
    change world.run.map (SearchRun.overwritten · run) = some run' at hrun
    obtain ⟨stored, hstored, rfl⟩ := Option.map_eq_some_iff.mp hrun
    exact hdrained hcompleted
  counted := fun _ hfill => by cases hfill

theorem inFlightInv_operation (hbudget : BudgetInv searchRunId world)
    (h : InFlightInv searchRunId world) {step : Step} (hc : LeavesTerminal world.backtesting step)
    (hother : step.submitsFor searchRunId = false) (henabled : world.backtesting.enabled step) :
    InFlightInv searchRunId { world with backtesting := storage.next world.backtesting step } := by
  have hlive := Storage.liveCount_next storage hbudget.sourced h.rows henabled hc hother
  refine ⟨Storage.rowsInv_next h.rows hc, fun run hrun => hlive.trans (h.bound run hrun),
    fun run hrun hcompleted => ?_, fun fill hfill => ?_⟩
  · exact Nat.le_zero.mp (hlive.trans (h.drained run hrun hcompleted).le)
  · refine Fill.counted_mono (h.counted fill hfill) hlive ?_
    rintro ⟨candidate, hmem, hiteration⟩
    obtain ⟨⟨run, hrun, hfixed⟩, -⟩ := hbudget.fill fill hfill
    have hid : fill.run.searchRunId = searchRunId :=
      (congrArg FixedColumns.searchRunId hfixed).trans (hbudget.row run hrun).1
    rw [hid] at hmem
    have hsubmission : candidate.submission ∈
        (world.backtesting.ofRun searchRunId).map (·.submission) := List.mem_map_of_mem hmem
    rw [← Storage.submissions_next storage hbudget.sourced henabled hother] at hsubmission
    obtain ⟨later, hlater, hequal⟩ := List.mem_map.mp hsubmission
    have hsame : later.iterationNumber = candidate.iterationNumber := congrArg (·.2.1) hequal
    refine ⟨later, ?_, hsame.trans hiteration⟩
    rw [hid]
    exact hlater

theorem inFlightInv_created (hbudget : BudgetInv searchRunId world) (hlocked : LockedRunning world)
    (h : InFlightInv searchRunId world) {fill : Fill} (hholds : world.fill = some fill)
    {generated : GeneratedCandidate} {candidate : StoredCandidate} {dispatch : BacktestDispatch}
    (hphase : fill.phase = .submitting generated) (hrequested : Requested fill.run candidate)
    (hfresh : world.backtesting.enabled (.submit candidate dispatch none))
    (hcreated : FillCreated storage world fill generated candidate dispatch later) :
    InFlightInv searchRunId later := by
  obtain ⟨⟨run, hrun, hfixed⟩, -⟩ := hbudget.fill fill hholds
  have hid : fill.run.searchRunId = searchRunId :=
    (congrArg FixedColumns.searchRunId hfixed).trans (hbudget.row run hrun).1
  have hmax : fill.run.maxInFlight = run.maxInFlight := congrArg FixedColumns.maxInFlight hfixed
  have hcounted := h.counted fill hholds
  have hopen : fill.submitted < fill.slots := hcounted.open' (by rw [hphase]; rfl)
  have hslots := hcounted.slots (by rw [hphase]; rfl)
  have hsubmitted := hcounted.submitted (by rw [hphase]; rfl)
  have hbound := h.bound run hrun
  have hof := ofRun_created storage hrequested hfresh
  rw [← hcreated.backtesting] at hof
  -- either nothing is stored, or one more candidate, of an iteration that was free
  have hlive : later.backtesting.liveCount searchRunId ≤ world.backtesting.liveCount searchRunId ∧
        (world.Taken fill.run → later.Taken fill.run) ∨
      later.backtesting.liveCount searchRunId ≤ world.backtesting.liveCount searchRunId + 1 ∧
        ¬ world.Taken fill.run ∧ later.Taken fill.run := by
    rcases hof with ⟨hsame, -⟩ | ⟨hnew, happend, -⟩
    · refine Or.inl ⟨?_, ?_⟩
      · rw [World.liveCount, World.liveCount, ← hid, hsame]
      · rintro ⟨stored, hmem, hiteration⟩
        exact ⟨stored, hsame ▸ hmem, hiteration⟩
    · refine Or.inr ⟨?_, ?_, ?_⟩
      · rw [World.liveCount, World.liveCount, ← hid, happend, List.countP_append]
        exact Nat.add_le_add_left (List.countP_le_length) _
      · rintro ⟨stored, hmem, hiteration⟩
        exact hnew stored hmem hiteration
      · refine ⟨candidate.submitted, ?_, hrequested.2.2.1⟩
        rw [happend]
        exact List.mem_append_right _ (List.mem_singleton_self _)
  have hstored := Fill.counted_stored hcounted hphase hlive
  refine ⟨?_, ?_, ?_, ?_⟩
  · rw [hcreated.backtesting]
    exact Storage.rowsInv_next h.rows trivial
  · rw [hcreated.run]
    intro run' hrun'
    rw [hrun] at hrun'
    cases hrun'
    rcases hlive with ⟨hle, -⟩ | ⟨hle, hnot, -⟩
    · exact hle.trans hbound
    · have hfirst := hsubmitted.resolve_right fun hsecond => hnot hsecond.2.2
      omega
  · rw [hcreated.run]
    intro run' hrun' hcompleted
    have hrunning := hlocked fill hholds (by rw [hphase]; simp)
    rw [SearchWorld.state, hrun', Option.map_some, hcompleted] at hrunning
    cases hrunning
  · intro fill' hfill'
    rcases hcreated.goesOn with hgoes | ⟨error, hretried⟩
    · rw [hgoes] at hfill'
      cases hfill'
      exact hstored
    · rw [hretried] at hfill'
      cases hfill'
      rw [Fill.retried_kept]
      exact Fill.counted_retried hstored rfl fill.attempts error

theorem inFlightInv_moved (hreached : ReachedInv searchRunId world)
    (h : InFlightInv searchRunId world) (hc : CountsInFlight searchRunId world step)
    (hmoved : Moved storage generators searchRunId world step later) :
    InFlightInv searchRunId later := by
  obtain ⟨hbudget, howned, hlocked⟩ := hreached
  cases hmoved with
  | operated hother henabled => exact inFlightInv_operation hbudget h hc hother henabled
  | @started config ownerUserId now run hfresh hanswer =>
    have hnone : world.backtesting.liveCount searchRunId = 0 := by
      have hempty : world.backtesting.ofRun searchRunId = [] := by
        rw [List.eq_nil_iff_forall_not_mem]
        intro candidate hmem
        obtain ⟨run, hrun, -⟩ := hbudget.admitted candidate hmem
        rw [hfresh] at hrun
        cases hrun
      rw [World.liveCount, hempty]
      rfl
    refine ⟨h.rows, fun _ _ => hnone.le.trans (Nat.zero_le _), fun _ _ _ => hnone, h.counted⟩
  | nothing => exact h
  | read => exact ⟨h.rows, h.bound, h.drained, h.counted⟩
  | @wrote step copy run hunlocked hwrites =>
    have hlive : run.state ≠ .completed := by
      intro hcompleted
      cases hwrites <;> cases hcompleted
    have hsaved := inFlightInv_save h fun hcompleted => absurd hcompleted hlive
    rwa [show ({ world.save run with fill := none } : SearchWorld) = world.save run by
      rw [← hunlocked]; rfl] at hsaved
  | locked => exact inFlightInv_withFill h (Fill.counted_ofRun _)
  | @filled fill step later hholds hmoved =>
    obtain ⟨⟨run, hrun, hfixed⟩, -⟩ := hbudget.fill fill hholds
    have hcounted := h.counted fill hholds
    cases hmoved with
    | summarized again hphase =>
      refine inFlightInv_withFill h (Fill.counted_summarized hcounted hphase ?_)
      intro summary hsummary
      obtain ⟨summary', hanswer, hcounts⟩ := summary_counts howned hrun
      have hid : fill.run.searchRunId = searchRunId :=
        (congrArg FixedColumns.searchRunId hfixed).trans (hbudget.row run hrun).1
      have howner : fill.run.ownerUserId = run.ownerUserId :=
        congrArg FixedColumns.ownerUserId hfixed
      rw [hid, howner, hanswer] at hsummary
      cases hsummary
      have hnone : pendingFailures (world.backtesting.ofRun searchRunId) = 0 := hc
      omega
    | ranked again summary hphase =>
      exact inFlightInv_withFill h (Fill.counted_ranked hcounted hphase)
    | generated hphase =>
      refine inFlightInv_withFill h ?_
      rw [Fill.generated_kept]
      exact Fill.counted_generated hcounted hphase
    | created generated hphase hrequested hfresh =>
      exact inFlightInv_created hbudget hlocked h hholds hphase hrequested hfresh
        (fillCreates_created storage world fill generated _ _)
    | accepted generated hphase =>
      exact inFlightInv_withFill h (Fill.counted_accepted hcounted hphase)
    | rejected generated hphase =>
      have hin : fill.phase.inLoop = true := by rcases hphase with hp | hp <;> rw [hp] <;> rfl
      refine inFlightInv_withFill h ?_
      rw [Fill.retried_kept]
      exact Fill.counted_retried hcounted hin fill.attempts _
    | saved hphase => exact inFlightInv_save h (hcounted.saving hphase)
    | returned | rolledBack => exact inFlightInv_unlocked h

theorem inFlightInv_empty : InFlightInv searchRunId SearchWorld.empty where
  rows := Storage.rowsInv_start
  bound := fun _ hrun => by cases hrun
  drained := fun _ hrun => by cases hrun
  counted := fun _ hfill => by cases hfill

/-- In every state reached, a summary counts exactly the candidates that are not completed, failed
or cancelled if and only if none of them has its failure pending. In every run whose fills count
only then, and whose terminal candidates stay terminal, no more than `maxInFlight` candidates are
ever alive, and a completed run has none. -/
theorem in_flight_counted_iff (storage : Storage) (generators : Generators) (searchRunId : String)
    (steps : List SearchStep)
    (h : (searchSystem storage generators searchRunId).Legal (fun _ _ => True) SearchWorld.empty
      steps) (run : SearchRun)
    (hrun : (searchAfter storage generators searchRunId steps).run = some run) :
    let backtesting := (searchAfter storage generators searchRunId steps).backtesting
    (∃ summary, summarizeSearchCandidates backtesting.repository searchRunId run.ownerUserId =
        .ok summary ∧
      (summary.queuedCount + summary.runningCount = backtesting.liveCount searchRunId ↔
        ∀ candidate ∈ backtesting.ofRun searchRunId,
          candidate.status ≠ .terminalFailurePending)) ∧
    ((searchSystem storage generators searchRunId).Legal (CountsInFlight searchRunId)
        SearchWorld.empty steps →
      backtesting.liveCount searchRunId ≤ run.maxInFlight ∧
        (run.state = .completed → backtesting.liveCount searchRunId = 0)) := by
  intro backtesting
  have hreached : ReachedInv searchRunId (searchAfter storage generators searchRunId steps) :=
    searchAfter_invariant _ reachedInv_empty (fun _ _ _ hinv _ hmoved => reachedInv_moved hinv hmoved)
      h
  constructor
  · obtain ⟨summary, hanswer, hcounts⟩ := summary_counts hreached.owned hrun
    refine ⟨summary, hanswer, ?_⟩
    rw [← hcounts]
    constructor
    · intro hequal candidate hmem hpending
      have hnone : pendingFailures (backtesting.ofRun searchRunId) = 0 := by
        change _ = _ + pendingFailures (backtesting.ofRun searchRunId) at hequal
        omega
      have hnot := List.countP_eq_zero.mp hnone candidate hmem
      rw [hpending] at hnot
      exact hnot rfl
    · intro hnone
      have hzero : pendingFailures (backtesting.ofRun searchRunId) = 0 := by
        refine List.countP_eq_zero.mpr fun candidate hmem => ?_
        simpa using hnone candidate hmem
      change _ = _ + pendingFailures (backtesting.ofRun searchRunId)
      omega
  · intro hlegal
    obtain ⟨-, hinv⟩ := searchAfter_invariant
      (fun world => ReachedInv searchRunId world ∧ InFlightInv searchRunId world)
      ⟨reachedInv_empty, inFlightInv_empty⟩
      (fun _ _ _ hinv hc hmoved =>
        ⟨reachedInv_moved hinv.1 hmoved, inFlightInv_moved hinv.1 hinv.2 hc hmoved⟩) hlegal
    exact ⟨hinv.bound run hrun, hinv.drained run hrun⟩

/-- The one slot is filled; a worker claims the candidate. -/
def claimedCandidate : List SearchStep :=
  .start (Sample.config 1) "u" 0 :: Sample.planning ++ Sample.submission "c" 1 ++ Sample.saving
    ++ [.operation (.claimWorkerAttempt (Backtesting.Sample.delivery 1 "f" 0))]

theorem in_flight_counted_iff_claimed :
    (searchAfter .postgres Sample.numbered "r"
        (claimedCandidate ++ Sample.planning)).backtesting.liveCount
      "r" ≤ 1 := by
  obtain ⟨run, hrun, hmax⟩ : ∃ run,
      (searchAfter .postgres Sample.numbered "r" (claimedCandidate ++ Sample.planning)).run =
        some run ∧ run.maxInFlight = 1 := by
    have hsome : (searchAfter .postgres Sample.numbered "r"
        (claimedCandidate ++ Sample.planning)).run.map (·.maxInFlight) = some 1 := by decide
    exact Option.map_eq_some_iff.mp hsome
  rw [← hmax]
  exact ((in_flight_counted_iff .postgres Sample.numbered "r" (claimedCandidate ++ Sample.planning)
    (by decide) run hrun).2 (by decide)).1

/-- The worker's last attempt fails, and before the failure is processed the next fill takes the
slot for free: two candidates are alive where one may be, and a summary counts one. -/
theorem pending_failure_uncounted :
    let steps := claimedCandidate
      ++ [.operation (.failWorkerAttempt (Backtesting.Sample.failure 1 "f" false 1000))]
      ++ Sample.planning ++ Sample.submission "d" 2
    let backtesting := (searchAfter .postgres Sample.numbered "r" steps).backtesting
    (searchSystem .postgres Sample.numbered "r").Legal (fun _ _ => True) SearchWorld.empty steps ∧
      (searchAfter .postgres Sample.numbered "r" steps).run.map (·.maxInFlight) = some 1 ∧
      backtesting.liveCount "r" = 2 ∧
      (summarizeSearchCandidates backtesting.repository "r" "u").toOption.map
        (fun summary => summary.queuedCount + summary.runningCount) = some 1 := by
  refine ⟨by decide, by decide, by decide, by decide⟩

end Cryptox.Search
