import Mathlib.Data.List.Perm.Subperm
import Cryptox.Search.Runs

/-!
# The candidate budget

A fill submits the iterations from its `nextIteration` on, no more of them than the budget leaves
above that number. So an iteration beyond `maxCandidates` is never submitted, whatever was lost of
the row's progress, and no iteration is stored twice.
-/
namespace Cryptox.Search

open Cryptox.Library
open Cryptox.Backtesting (Storage World Step StoredCandidate SearchCandidateSummary JsNumber)

/-- A submission is under way or stored. -/
def Phase.submits : Phase → Bool
  | .submitting _ | .stored _ => true
  | _ => false

def Phase.inLoop : Phase → Bool
  | .looping | .submitting _ | .stored _ => true
  | _ => false

/-- The iterations a fill may still submit lie within the budget. -/
structure Fill.Roomy (fill : Fill) : Prop where
  first : 1 ≤ fill.run.nextIteration
  within : fill.phase.inLoop = true → ∀ maxCandidates ∈ fill.run.stopCondition.maxCandidates,
    fill.run.nextIteration + fill.slots ≤ maxCandidates + fill.submitted + 1
  open' : fill.phase.submits = true → fill.submitted < fill.slots

/-- The iteration is one of the run's. -/
def SearchRun.Admits (run : SearchRun) (iteration : Option Nat) : Prop :=
  ∃ number, iteration = some number ∧ 1 ≤ number ∧
    ∀ maxCandidates ∈ run.stopCondition.maxCandidates, number ≤ maxCandidates

structure BudgetInv (searchRunId : String) (world : SearchWorld) : Prop where
  sourced : world.backtesting.Sourced
  row : ∀ run, world.run = some run → run.searchRunId = searchRunId ∧ 1 ≤ run.nextIteration
  copies : ∀ copy ∈ world.copies, 1 ≤ copy.nextIteration
  fill : ∀ fill, world.fill = some fill →
    (∃ run, world.run = some run ∧ fill.run.fixed = run.fixed) ∧ fill.Roomy
  distinct : ((world.backtesting.ofRun searchRunId).map (·.iterationNumber)).Nodup
  admitted : ∀ candidate ∈ world.backtesting.ofRun searchRunId,
    ∃ run, world.run = some run ∧ run.Admits candidate.iterationNumber

namespace Fill

variable {fill : Fill}

theorem roomy_of_progress {later : Fill} (h : fill.Roomy)
    (hrun : later.run.progress = fill.run.progress)
    (hloop : later.phase.inLoop = false) : later.Roomy where
  first := by
    have hnext : later.run.nextIteration = fill.run.nextIteration := congrArg Prod.fst hrun
    rw [hnext]
    exact h.first
  within := fun hin => by rw [hloop] at hin; cases hin
  open' := fun hsubmits => by
    have hin : later.phase.inLoop = true := by
      cases hphase : later.phase <;> simp_all [Phase.submits, Phase.inLoop]
    rw [hloop] at hin
    cases hin

theorem roomy_ofRun {run : SearchRun} (h : 1 ≤ run.nextIteration) : (Fill.ofRun run).Roomy := by
  refine ⟨h, fun hin => ?_, fun hsubmits => ?_⟩
  · unfold Fill.ofRun at hin
    split at hin <;> cases hin
  · unfold Fill.ofRun at hsubmits
    split at hsubmits <;> cases hsubmits

/-- The same run in the same loop, its phase back at the head. -/
theorem roomy_looping (h : fill.Roomy) (hin : fill.phase.inLoop = true) :
    ({ fill with phase := .looping } : Fill).Roomy :=
  ⟨h.first, fun _ => h.within hin, nofun⟩

theorem roomy_retried (h : fill.Roomy) (hin : fill.phase.inLoop = true) (error : String) :
    (fill.retried error).Roomy := by
  unfold retried
  split
  · exact roomy_of_progress h rfl rfl
  · exact roomy_looping h hin

theorem roomy_exited (h : fill.Roomy) : fill.exited.Roomy := by
  unfold exited
  split <;> exact roomy_of_progress h rfl rfl

theorem roomy_generated {generators : Generators} (h : fill.Roomy) (hphase : fill.phase = .looping) :
    (fill.generated generators).Roomy := by
  have hin : fill.phase.inLoop = true := by rw [hphase]; rfl
  unfold generated
  split
  next hopen =>
    dsimp only
    split
    · exact roomy_of_progress h rfl rfl
    · split
      next error _ =>
        have htrying : ({ fill with attempts := fill.attempts + 1 } : Fill).Roomy :=
          ⟨h.first, h.within, h.open'⟩
        exact roomy_retried htrying hin error
      next candidate _ =>
        split
        · exact ⟨h.first, h.within, h.open'⟩
        · exact ⟨h.first, fun _ => h.within hin, fun _ => hopen.1⟩
  next => exact roomy_exited h

theorem roomy_accepted (h : fill.Roomy) {candidate : GeneratedCandidate}
    (hphase : fill.phase = .stored candidate) : (fill.accepted candidate).Roomy := by
  have hin : fill.phase.inLoop = true := by rw [hphase]; rfl
  refine ⟨Nat.le_add_left 1 _, fun _ maxCandidates hmax => ?_, nofun⟩
  have hwithin := h.within hin maxCandidates hmax
  show fill.run.nextIteration + 1 + fill.slots ≤ maxCandidates + (fill.submitted + 1) + 1
  omega

theorem reserved_lt {run : SearchRun} {now : Int} (h : stopReason run now = none)
    {maxCandidates : Nat} (hmax : maxCandidates ∈ run.stopCondition.maxCandidates) :
    reserved run < maxCandidates := by
  rw [Option.mem_def] at hmax
  by_contra hnot
  have hmet : run.stopCondition.maxCandidates.any (· ≤ reserved run) = true := by
    rw [hmax, Option.any_some, decide_eq_true_eq]
    omega
  simp only [stopReason, hmet, if_true] at h
  split at h <;> cases h

theorem openSlots_le {run : SearchRun} {maxCandidates : Nat}
    (hmax : maxCandidates ∈ run.stopCondition.maxCandidates) :
    openSlots run ≤ maxCandidates - (run.nextIteration - 1) := by
  rw [Option.mem_def] at hmax
  have hreserved : run.nextIteration - 1 ≤ reserved run := Nat.le_max_right _ _
  have hslots : openSlots run ≤ maxCandidates - reserved run := by
    rw [openSlots, hmax]
    exact Nat.min_le_right _ _
  omega

theorem roomy_planned {generators : Generators} {run : SearchRun} {now : Int}
    (hfirst : 1 ≤ run.nextIteration) : (fill.planned generators run now).Roomy := by
  unfold planned
  split
  next met hmet =>
    have hnext : (completeIfDrained run (some met) now).nextIteration = run.nextIteration :=
      congrArg Prod.fst (completeIfDrained_kept run (some met) now).2
    exact ⟨hnext ▸ hfirst, nofun, nofun⟩
  next hnone =>
    split
    · exact ⟨hfirst, nofun, nofun⟩
    · refine ⟨hfirst, fun _ maxCandidates (hmax : _ ∈ run.stopCondition.maxCandidates) => ?_, nofun⟩
      have hlt := reserved_lt hnone hmax
      have hslots := openSlots_le hmax
      have hreserved : run.nextIteration - 1 ≤ reserved run := Nat.le_max_right _ _
      show run.nextIteration + openSlots run ≤ maxCandidates + 0 + 1
      omega

theorem roomy_ranked {generators : Generators} (h : fill.Roomy) {again : Bool}
    {summary : SearchCandidateSummary} {topScore : Option JsNumber} {now : Int}
    (hphase : fill.phase = .ranking again summary) :
    (fill.ranked generators again summary topScore now).Roomy := by
  cases again with
  | true =>
    refine roomy_of_progress h ?_ ?_
    · exact (ranked_kept fill true summary topScore now).2
    · rfl
  | false =>
    have hnext : (refresh fill.run summary topScore now).nextIteration = fill.run.nextIteration :=
      congrArg Prod.fst (refresh_kept fill.run summary topScore now).2.1
    refine roomy_planned ?_
    rw [hnext]
    exact h.first

theorem roomy_summarized (h : fill.Roomy) (again : Bool)
    (answer : Except String SearchCandidateSummary) : (fill.summarized again answer).Roomy := by
  cases answer <;> exact roomy_of_progress h rfl rfl

end Fill

/-! The steps keep the invariant. -/

variable {storage : Storage} {generators : Generators} {searchRunId : String}
  {world later : SearchWorld}

theorem SearchRun.admits_of_fixed {run run' : SearchRun} (h : run'.fixed = run.fixed)
    {iteration : Option Nat} (hadmits : run.Admits iteration) : run'.Admits iteration := by
  have hstop : run'.stopCondition = run.stopCondition := congrArg FixedColumns.stopCondition h
  unfold Admits
  rw [hstop]
  exact hadmits

/-- A write of the row outside the fills, or at the end of one. -/
theorem budgetInv_save (h : BudgetInv searchRunId world) {run : SearchRun}
    (hfirst : 1 ≤ run.nextIteration) :
    BudgetInv searchRunId { world.save run with fill := none } where
  sourced := h.sourced
  row := by
    intro run' hrun
    change world.run.map (SearchRun.overwritten · run) = some run' at hrun
    obtain ⟨stored, hstored, rfl⟩ := Option.map_eq_some_iff.mp hrun
    exact ⟨(h.row stored hstored).1, hfirst⟩
  copies := h.copies
  fill := fun fill hfill => by cases hfill
  distinct := h.distinct
  admitted := by
    intro candidate hmem
    obtain ⟨stored, hstored, hadmits⟩ := h.admitted candidate hmem
    refine ⟨stored.overwritten run, ?_, SearchRun.admits_of_fixed rfl hadmits⟩
    show world.run.map _ = _
    rw [hstored]
    rfl

theorem budgetInv_unlocked (h : BudgetInv searchRunId world) :
    BudgetInv searchRunId { world with fill := none } where
  sourced := h.sourced
  row := h.row
  copies := h.copies
  fill := fun fill hfill => by cases hfill
  distinct := h.distinct
  admitted := h.admitted

/-- A step inside a fill that leaves the candidates alone. -/
theorem budgetInv_withFill (h : BudgetInv searchRunId world) {run : SearchRun} {fill : Fill}
    (hrun : world.run = some run) (hfixed : fill.run.fixed = run.fixed) (hroomy : fill.Roomy) :
    BudgetInv searchRunId (world.withFill fill) where
  sourced := h.sourced
  row := h.row
  copies := h.copies
  fill := by
    intro fill' hfill
    cases hfill
    exact ⟨⟨run, hrun, hfixed⟩, hroomy⟩
  distinct := h.distinct
  admitted := h.admitted

theorem budgetInv_operation (h : BudgetInv searchRunId world) {step : Step}
    (hother : step.submitsFor searchRunId = false) (henabled : world.backtesting.enabled step) :
    BudgetInv searchRunId { world with backtesting := storage.next world.backtesting step } := by
  have hsubmissions := Storage.submissions_next storage h.sourced henabled hother
  have hiterations : ∀ backtesting : World, (backtesting.ofRun searchRunId).map (·.iterationNumber) =
      ((backtesting.ofRun searchRunId).map (·.submission)).map (·.2.1) := by
    intro backtesting
    rw [List.map_map]
    rfl
  have hsame := (hiterations _).trans ((congrArg _ hsubmissions).trans (hiterations _).symm)
  refine ⟨Storage.sourced_next storage h.sourced henabled, h.row, h.copies, h.fill, ?_, ?_⟩
  · show (((storage.next world.backtesting step).ofRun searchRunId).map _).Nodup
    rw [hsame]
    exact h.distinct
  · intro candidate hmem
    have hiteration : candidate.iterationNumber ∈
        ((storage.next world.backtesting step).ofRun searchRunId).map (·.iterationNumber) :=
      List.mem_map_of_mem hmem
    rw [hsame] at hiteration
    obtain ⟨before, hbefore, hequal⟩ := List.mem_map.mp hiteration
    rw [← hequal]
    exact h.admitted before hbefore

/-- The candidates of the run after a submission: as before, where the iteration has a candidate or
the submission is refused, or with the submitted one at the end. -/
theorem ofRun_created (storage : Storage) {run : SearchRun}
    {candidate : StoredCandidate} {dispatch : Backtesting.BacktestDispatch}
    (hrequested : Requested run candidate)
    (hfresh : world.backtesting.enabled (.submit candidate dispatch none)) :
    ((storage.next world.backtesting (.submit candidate dispatch none)).ofRun run.searchRunId =
        world.backtesting.ofRun run.searchRunId ∧
      ((∃ stored ∈ world.backtesting.ofRun run.searchRunId,
          stored.iterationNumber = some run.nextIteration) ∨
        ∃ error, (storage.createQueuedSubmission world.backtesting.repository candidate.submitted
          dispatch none).2 = .error error)) ∨
      ((∀ stored ∈ world.backtesting.ofRun run.searchRunId,
          stored.iterationNumber ≠ some run.nextIteration) ∧
        (storage.next world.backtesting (.submit candidate dispatch none)).ofRun run.searchRunId =
          world.backtesting.ofRun run.searchRunId ++ [candidate.submitted] ∧
        (storage.createQueuedSubmission world.backtesting.repository candidate.submitted dispatch
          none).2 = .ok candidate.submitted) := by
  obtain ⟨-, hrun, hiteration, -⟩ := hrequested
  rcases Storage.candidates_submit_iteration storage hfresh hrun hiteration with
    ⟨hsame, hwhy⟩ | ⟨hnew, hrows, hanswer⟩
  · refine Or.inl ⟨World.ofRun_congr hsame, hwhy.imp_left ?_⟩
    intro ⟨stored, hmem, hof, hstored⟩
    exact ⟨stored, World.mem_ofRun.mpr ⟨hmem, hof⟩, hstored⟩
  · refine Or.inr ⟨fun stored hmem => ?_, ?_, hanswer⟩
    · obtain ⟨hstored, hof⟩ := World.mem_ofRun.mp hmem
      exact hnew stored hstored hof
    · rw [World.ofRun_append hrows, if_pos (show candidate.submitted.searchRunId = _ from hrun)]

theorem budgetInv_created (h : BudgetInv searchRunId world) {fill : Fill}
    (hfill : world.fill = some fill) {generated : GeneratedCandidate} {candidate : StoredCandidate}
    {dispatch : Backtesting.BacktestDispatch} (hphase : fill.phase = .submitting generated)
    (hrequested : Requested fill.run candidate)
    (hfresh : world.backtesting.enabled (.submit candidate dispatch none))
    (hcreated : FillCreated storage world fill generated candidate dispatch later) :
    BudgetInv searchRunId later := by
  obtain ⟨⟨run, hrun, hfixed⟩, hroomy⟩ := h.fill fill hfill
  have hin : fill.phase.inLoop = true := by rw [hphase]; rfl
  have hopen : fill.submitted < fill.slots := hroomy.open' (by rw [hphase]; rfl)
  have hid : fill.run.searchRunId = searchRunId :=
    (congrArg FixedColumns.searchRunId hfixed).trans (h.row run hrun).1
  have hof := ofRun_created storage hrequested hfresh
  rw [hid] at hof
  refine ⟨?_, ?_, ?_, ?_, ?_, ?_⟩
  · rw [hcreated.backtesting]
    exact Storage.sourced_next storage h.sourced hfresh
  · rw [hcreated.run]
    exact h.row
  · rw [hcreated.copies]
    exact h.copies
  · intro fill' hfill'
    rw [hcreated.run]
    rcases hcreated.goesOn with hstored | ⟨error, hretried⟩
    · rw [hstored] at hfill'
      cases hfill'
      exact ⟨⟨run, hrun, hfixed⟩, hroomy.first, fun _ => hroomy.within hin, fun _ => hopen⟩
    · rw [hretried] at hfill'
      cases hfill'
      exact ⟨⟨run, hrun, by rw [Fill.retried_kept, hfixed]⟩, Fill.roomy_retried hroomy hin error⟩
  · rw [hcreated.backtesting]
    rcases hof with ⟨hsame, -⟩ | ⟨hnew, happend, -⟩
    · rw [hsame]
      exact h.distinct
    · rw [happend, List.map_append, List.nodup_append]
      refine ⟨h.distinct, List.nodup_singleton _, ?_⟩
      intro iteration hmem other hother
      obtain ⟨stored, hstored, rfl⟩ := List.mem_map.mp hmem
      have hmade : candidate.submitted.iterationNumber = some fill.run.nextIteration :=
        hrequested.2.2.1
      rw [List.mem_singleton.mp hother]
      exact fun hequal => hnew stored hstored (hequal.trans hmade)
  · rw [hcreated.backtesting, hcreated.run]
    intro stored hmem
    rcases hof with ⟨hsame, -⟩ | ⟨-, happend, -⟩
    · rw [hsame] at hmem
      exact h.admitted stored hmem
    · rw [happend] at hmem
      rcases List.mem_append.mp hmem with hold | hmade
      · exact h.admitted stored hold
      · rw [List.mem_singleton.mp hmade]
        refine ⟨run, hrun, SearchRun.admits_of_fixed hfixed.symm ?_⟩
        refine ⟨fill.run.nextIteration, hrequested.2.2.1, hroomy.first, fun maxCandidates hmax => ?_⟩
        have hwithin := hroomy.within hin maxCandidates hmax
        omega

theorem budgetInv_moved (h : BudgetInv searchRunId world) {step : SearchStep}
    (hmoved : Moved storage generators searchRunId world step later) :
    BudgetInv searchRunId later := by
  cases hmoved with
  | operated hother henabled => exact budgetInv_operation h hother henabled
  | @started config ownerUserId now run hfresh hanswer =>
    have hnone : world.backtesting.ofRun searchRunId = [] := by
      rw [List.eq_nil_iff_forall_not_mem]
      intro candidate hmem
      obtain ⟨run, hrun, -⟩ := h.admitted candidate hmem
      rw [hfresh] at hrun
      cases hrun
    obtain rfl := started_run hanswer
    refine ⟨h.sourced, ?_, h.copies, ?_, h.distinct, ?_⟩
    · intro run hrun
      cases hrun
      exact ⟨rfl, Nat.le_refl 1⟩
    · intro fill hfill
      obtain ⟨⟨run, hrun, -⟩, -⟩ := h.fill fill hfill
      rw [hfresh] at hrun
      cases hrun
    · intro candidate hmem
      rw [show _ = _ from hnone] at hmem
      cases hmem
  | nothing => exact h
  | read =>
    refine ⟨h.sourced, h.row, ?_, h.fill, h.distinct, h.admitted⟩
    intro copy hmem
    rcases List.mem_append.mp hmem with hrun | hold
    · exact (h.row copy (Option.mem_toList.mp hrun)).2
    · exact h.copies copy hold
  | @wrote step copy run hunlocked hwrites =>
    have hcopy : 1 ≤ copy.nextIteration := by
      cases hwrites with
      | paused hread | resumed hread | failed hread => exact h.copies _ hread
      | cancelled hstored => exact (h.row _ hstored).2
    have hnext : run.nextIteration = copy.nextIteration := congrArg Prod.fst hwrites.progress
    have hsaved := budgetInv_save h (hnext ▸ hcopy)
    rwa [show ({ world.save run with fill := none } : SearchWorld) = world.save run by
      rw [← hunlocked]; rfl] at hsaved
  | @locked run hunlocked hstored =>
    exact budgetInv_withFill h hstored rfl (Fill.roomy_ofRun (h.row run hstored).2)
  | @filled fill step later hholds hmoved =>
    obtain ⟨⟨run, hrun, hfixed⟩, hroomy⟩ := h.fill fill hholds
    cases hmoved with
    | summarized again hphase =>
      exact budgetInv_withFill h hrun (by rw [Fill.summarized_kept, hfixed])
        (Fill.roomy_summarized hroomy again _)
    | ranked again summary hphase =>
      exact budgetInv_withFill h hrun ((Fill.ranked_kept fill again summary _ _).1.trans hfixed)
        (Fill.roomy_ranked hroomy hphase)
    | generated hphase =>
      exact budgetInv_withFill h hrun (by rw [Fill.generated_kept, hfixed])
        (Fill.roomy_generated hroomy hphase)
    | created generated hphase hrequested hfresh =>
      exact budgetInv_created h hholds hphase hrequested hfresh
        (fillCreates_created storage world fill generated _ _)
    | accepted generated hphase =>
      exact budgetInv_withFill h hrun hfixed (Fill.roomy_accepted hroomy hphase)
    | rejected generated hphase =>
      have hin : fill.phase.inLoop = true := by rcases hphase with hp | hp <;> rw [hp] <;> rfl
      exact budgetInv_withFill h hrun (by rw [Fill.retried_kept, hfixed])
        (Fill.roomy_retried hroomy hin _)
    | saved hphase => exact budgetInv_save h hroomy.first
    | returned hphase => exact budgetInv_unlocked h
    | rolledBack => exact budgetInv_unlocked h

theorem budgetInv_empty : BudgetInv searchRunId SearchWorld.empty where
  sourced := Backtesting.sourced_start
  row := fun _ hrun => by cases hrun
  copies := fun _ hmem => by cases hmem
  fill := fun _ hfill => by cases hfill
  distinct := List.nodup_nil
  admitted := fun _ hmem => by cases hmem

/-- No more candidates are stored than the iterations they have. -/
theorem BudgetInv.length_le (h : BudgetInv searchRunId world) {last : Nat}
    (hlast : ∀ candidate ∈ world.backtesting.ofRun searchRunId, ∀ number,
      candidate.iterationNumber = some number → number ≤ last) :
    (world.backtesting.ofRun searchRunId).length ≤ last := by
  have hsubset : (world.backtesting.ofRun searchRunId).map (·.iterationNumber) ⊆
      (List.range' 1 last).map some := by
    intro iteration hmem
    obtain ⟨candidate, hcandidate, rfl⟩ := List.mem_map.mp hmem
    obtain ⟨run, -, number, hnumber, hfirst, -⟩ := h.admitted candidate hcandidate
    have hle := hlast candidate hcandidate number hnumber
    rw [hnumber]
    refine List.mem_map_of_mem (List.mem_range'_1.mpr ⟨hfirst, ?_⟩)
    omega
  have hlength := (List.Nodup.subperm h.distinct hsubset).length_le
  rw [List.length_map, List.length_map, List.length_range'] at hlength
  exact hlength

/-- In every run, the candidates ever stored for a search with a candidate limit have pairwise
distinct iterations between one and the limit, so that there are no more of them than that. -/
theorem candidates_within_budget (storage : Storage) (generators : Generators)
    (searchRunId : String) (steps : List SearchStep)
    (h : (searchSystem storage generators searchRunId).Legal (fun _ _ => True) SearchWorld.empty
      steps) (run : SearchRun)
    (hrun : (searchAfter storage generators searchRunId steps).run = some run) (maxCandidates : Nat)
    (hmax : run.stopCondition.maxCandidates = some maxCandidates) :
    let candidates := (searchAfter storage generators searchRunId steps).backtesting.ofRun searchRunId
    candidates.length ≤ maxCandidates ∧ (candidates.map (·.iterationNumber)).Nodup ∧
      ∀ candidate ∈ candidates, ∃ iteration, candidate.iterationNumber = some iteration ∧
        1 ≤ iteration ∧ iteration ≤ maxCandidates := by
  intro candidates
  have hinv : BudgetInv searchRunId (searchAfter storage generators searchRunId steps) :=
    searchAfter_invariant _ budgetInv_empty (fun _ _ _ hinv _ hmoved => budgetInv_moved hinv hmoved) h
  have hrange : ∀ candidate ∈ candidates, ∃ iteration, candidate.iterationNumber = some iteration ∧
      1 ≤ iteration ∧ iteration ≤ maxCandidates := by
    intro candidate hmem
    obtain ⟨run', hrun', iteration, hiteration, hfirst, hlast⟩ := hinv.admitted candidate hmem
    rw [hrun] at hrun'
    cases hrun'
    exact ⟨iteration, hiteration, hfirst, hlast maxCandidates hmax⟩
  refine ⟨hinv.length_le fun candidate hmem number hnumber => ?_, hinv.distinct, hrange⟩
  obtain ⟨iteration, hiteration, -, hle⟩ := hrange candidate hmem
  rw [hnumber] at hiteration
  cases hiteration
  exact hle

/-- A fill crashes after its first candidate is stored; the next one submits the same iteration
again, which stores nothing. -/
def refilled : List SearchStep :=
  .start (Sample.config 2) "u" 0 :: Sample.planning
    ++ [.fill .generate, .fill (.create (Sample.candidate "c" 1) (Sample.dispatch "c")),
      .fill .rollback]
    ++ Sample.planning ++ Sample.submission "d" 1 ++ Sample.saving

theorem candidates_within_budget_refilled :
    let candidates :=
      (searchAfter .postgres Sample.numbered "r" refilled).backtesting.ofRun "r"
    candidates.length ≤ 2 ∧ (candidates.map (·.iterationNumber)).Nodup ∧
      ∀ candidate ∈ candidates, ∃ iteration, candidate.iterationNumber = some iteration ∧
        1 ≤ iteration ∧ iteration ≤ 2 := by
  obtain ⟨run, hrun, hmax⟩ : ∃ run,
      (searchAfter .postgres Sample.numbered "r" refilled).run = some run ∧
        run.stopCondition.maxCandidates = some 2 := by
    have hsome : ((searchAfter .postgres Sample.numbered "r" refilled).run.map
        (·.stopCondition.maxCandidates)) = some (some 2) := by decide
    exact Option.map_eq_some_iff.mp hsome
  exact candidates_within_budget .postgres Sample.numbered "r" refilled (by decide) run
    hrun 2 hmax

end Cryptox.Search
