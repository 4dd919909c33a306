import Cryptox.Search.Budget

/-!
# The progress of a run

The candidates of a run have the iterations one, two, three and so on, in the order they were
stored, and the run has recorded the fingerprints below its next iteration. After a crash it starts
again from an earlier one: the iterations that are stored already are answered with the candidates
there. So no fingerprint comes twice as long as the generator gives such an iteration the fingerprint
again that is stored for it, and no row read earlier is written back over a newer one.
-/
namespace Cryptox.Search

open Cryptox.Library
open Cryptox.Backtesting (JsNumber Storage World Step StoredCandidate BacktestDispatch
  SearchCandidateSummary)

/-- A stored submission that is yet to be recorded. -/
def Phase.unrecorded : Phase → List String
  | .stored generated => [generated.fingerprint]
  | _ => []

/-- The phases in which a fill has nothing to remember but its run. -/
def Phase.plain : Phase → Bool
  | .ranking .. | .stored _ | .returning => false
  | _ => true

theorem Phase.unrecorded_of_plain {phase : Phase} (h : phase.plain = true) :
    phase.unrecorded = [] := by
  cases phase with
  | stored => cases h
  | _ => rfl

/-- The fingerprint of the submission under way. -/
def Phase.submitted : Phase → Option String
  | .submitting generated => some generated.fingerprint
  | _ => none

/-- The fill submits an iteration without a candidate, or the one there has the fingerprint that the
generator has now given. -/
def SearchWorld.GivenAgain (world : SearchWorld) (fill : Fill) : Prop :=
  ∀ candidate ∈ world.backtesting.ofRun fill.run.searchRunId,
    candidate.iterationNumber = some fill.run.nextIteration →
      world.fingerprintOf candidate = fill.phase.submitted

/-- The writes outside the fills are of the progress that is stored, and iterations that are
submitted again are given again. A fill may be rolled back, and a submission be answered with an
error, at any time. -/
def KeepsProgress (world : SearchWorld) : SearchStep → Prop
  | .pause copy _ | .resume copy _ | .fail copy .. =>
    ∀ run ∈ world.run, copy.progress = run.progress
  | .fill (.create ..) => ∀ fill ∈ world.fill, world.GivenAgain fill
  | _ => True

instance (world : SearchWorld) (fill : Fill) : Decidable (world.GivenAgain fill) :=
  inferInstanceAs (Decidable (∀ candidate ∈ world.backtesting.ofRun fill.run.searchRunId, _))

instance (world : SearchWorld) : ∀ step, Decidable (KeepsProgress world step)
  | .pause copy _ | .resume copy _ | .fail copy .. =>
    inferInstanceAs (Decidable (∀ run ∈ world.run, copy.progress = run.progress))
  | .fill (.create ..) => inferInstanceAs (Decidable (∀ fill ∈ world.fill, world.GivenAgain fill))
  | .operation _ | .start .. | .read | .cancel _ | .lock | .fill .summarize | .fill (.rank ..)
  | .fill .generate | .fill .accepted | .fill (.rejected _) | .fill .commit | .fill .rollback =>
    inferInstanceAs (Decidable True)

/-! The candidates of a run as a list of fingerprints. -/

/-- The iterations and the fingerprints of the candidates that are stored for the run. -/
def SearchWorld.reservations (world : SearchWorld) (searchRunId : String) :
    List (Option Nat × Option String) :=
  (world.backtesting.ofRun searchRunId).map fun candidate =>
    (candidate.iterationNumber, world.fingerprintOf candidate)

/-- The fingerprints in the order of their iterations, from the first one on. -/
def numbered (prints : List String) : List (Option Nat × Option String) :=
  (prints.zipIdx 1).map fun (print, iteration) => (some iteration, some print)

theorem numbered_append (prints : List String) (print : String) :
    numbered (prints ++ [print]) =
      numbered prints ++ [(some (prints.length + 1), some print)] := by
  rw [numbered, List.zipIdx_append, List.map_append, Nat.add_comm prints.length 1]
  rfl

theorem mem_numbered {prints : List String} {iteration : Nat} {print : Option String} :
    (some iteration, print) ∈ numbered prints ↔
      1 ≤ iteration ∧ print.isSome ∧ prints[iteration - 1]? = print := by
  rw [numbered, List.mem_map]
  constructor
  · rintro ⟨⟨found, number⟩, hmem, hequal⟩
    cases hequal
    obtain ⟨hfirst, hfound⟩ := List.mk_mem_zipIdx_iff_le_and_getElem?_sub.mp hmem
    exact ⟨hfirst, rfl, hfound⟩
  · intro ⟨hfirst, hsome, hfound⟩
    obtain ⟨found, rfl⟩ := Option.isSome_iff_exists.mp hsome
    exact ⟨(found, iteration), List.mk_mem_zipIdx_iff_le_and_getElem?_sub.mpr ⟨hfirst, hfound⟩, rfl⟩

theorem map_snd_numbered (prints : List String) :
    (numbered prints).map Prod.snd = prints.map some := by
  have hfirst : (prints.zipIdx 1).map Prod.fst = prints := List.zipIdx_map_fst 1 prints
  rw [numbered, List.map_map]
  conv_rhs => rw [← hfirst, List.map_map]
  rfl

/-- The run is no further than its candidates, and has recorded those below its next iteration. -/
structure SearchRun.Knows (run : SearchRun) (prints : List String) : Prop where
  within : run.nextIteration ≤ prints.length + 1
  recorded : prints.take (run.nextIteration - 1) ⊆ run.searchSpace.generatedFingerprints

/-- How a fill stands to the candidates. -/
structure Fill.Knows (fill : Fill) (prints : List String) : Prop where
  run : fill.run.Knows prints
  fresh : ∀ generated, fill.phase = .submitting generated →
    generated.fingerprint ∉ fill.run.searchSpace.generatedFingerprints
  stored : ∀ print ∈ fill.phase.unrecorded, prints[fill.run.nextIteration - 1]? = some print

/-- The invariant: `prints` are the fingerprints of the run's candidates. -/
structure ProgressInv (searchRunId : String) (prints : List String) (world : SearchWorld) :
    Prop where
  reservations : world.reservations searchRunId = numbered prints
  distinct : prints.Nodup
  row : ∀ run, world.run = some run → run.Knows prints
  fill : ∀ fill, world.fill = some fill → fill.Knows prints ∧
    ∀ run, world.run = some run → run.nextIteration ≤ fill.run.nextIteration

variable {storage : Storage} {generators : Generators} {searchRunId : String}
  {world later : SearchWorld} {step : SearchStep} {prints : List String}

theorem next_of_progress {run run' : SearchRun} (h : run'.progress = run.progress) :
    run'.nextIteration = run.nextIteration :=
  congrArg Prod.fst h

namespace SearchRun.Knows

variable {run run' : SearchRun}

theorem of_progress (h : run.Knows prints) (hprogress : run'.progress = run.progress) :
    run'.Knows prints := by
  have hrecorded : run'.searchSpace.generatedFingerprints =
      run.searchSpace.generatedFingerprints := congrArg Prod.snd hprogress
  refine ⟨?_, ?_⟩
  · rw [next_of_progress hprogress]
    exact h.within
  · rw [next_of_progress hprogress, hrecorded]
    exact h.recorded

/-- One more candidate at the end. -/
theorem append (h : run.Knows prints) (print : String) : run.Knows (prints ++ [print]) := by
  have hwithin := h.within
  refine ⟨?_, ?_⟩
  · rw [List.length_append, List.length_singleton]
    omega
  · rw [List.take_append_of_le_length (by omega)]
    exact h.recorded

/-- The candidate of the next iteration is recorded. -/
theorem record (h : run.Knows prints) (hfirst : 1 ≤ run.nextIteration)
    {generated : GeneratedCandidate}
    (hstored : prints[run.nextIteration - 1]? = some generated.fingerprint) :
    (recordSubmission run generated).Knows prints := by
  have hlt := (List.getElem?_eq_some_iff.mp hstored).1
  have htake : prints.take run.nextIteration =
      prints.take (run.nextIteration - 1) ++ [generated.fingerprint] := by
    have hsucc := @List.take_add_one _ prints (run.nextIteration - 1)
    rwa [hstored, Nat.sub_add_cancel hfirst] at hsucc
  refine ⟨?_, ?_⟩
  · show run.nextIteration + 1 ≤ prints.length + 1
    omega
  · show prints.take run.nextIteration ⊆
      (run.searchSpace.generatedFingerprints ++ [generated.fingerprint]).eraseDups
    rw [htake]
    intro print hmem
    rw [List.mem_eraseDups]
    rcases List.mem_append.mp hmem with hbefore | hlast
    · exact List.mem_append_left _ (h.recorded hbefore)
    · exact List.mem_append_right _ hlast

end SearchRun.Knows

namespace Fill

variable {fill fill' : Fill}

theorem retried_plain (fill : Fill) (error : String) : (fill.retried error).phase.plain = true := by
  unfold retried
  split <;> rfl

theorem generated_plain (hphase : fill.phase = .looping) :
    (fill.generated generators).phase.plain = true := by
  unfold generated
  split
  · dsimp only
    split
    · rfl
    · split
      · exact retried_plain _ _
      · split
        · rw [hphase]
          rfl
        · rfl
  · unfold exited
    split <;> rfl

theorem ranked_plain (again : Bool) (summary : SearchCandidateSummary) (topScore : Option JsNumber)
    (now : Int) : (fill.ranked generators again summary topScore now).phase.plain = true := by
  unfold ranked
  cases again with
  | true => rfl
  | false =>
    simp only [planned, Bool.false_eq_true, ↓reduceIte]
    split
    · rfl
    · split <;> rfl

theorem knows_ofRun {run : SearchRun} (h : run.Knows prints) : (ofRun run).Knows prints := by
  refine ⟨h, ?_, ?_⟩
  · intro generated hphase
    unfold ofRun at hphase
    split at hphase <;> cases hphase
  · unfold ofRun
    split <;> nofun

end Fill

/-! One lemma for each kind of step. -/

namespace ProgressInv

/-- A fill goes on and leaves the candidates alone. -/
theorem withFill (h : ProgressInv searchRunId prints world) {fill : Fill}
    (hknows : fill.Knows prints)
    (hahead : ∀ run, world.run = some run → run.nextIteration ≤ fill.run.nextIteration) :
    ProgressInv searchRunId prints (world.withFill fill) where
  reservations := h.reservations
  distinct := h.distinct
  row := h.row
  fill := by
    intro fill' hfill
    cases hfill
    exact ⟨hknows, hahead⟩

/-- It goes on with the progress it had, to a phase without a stored submission. -/
theorem goOn (h : ProgressInv searchRunId prints world) {fill fill' : Fill}
    (hholds : world.fill = some fill) (hprogress : fill'.run.progress = fill.run.progress)
    (hfresh : ∀ generated, fill'.phase = .submitting generated →
      generated.fingerprint ∉ fill'.run.searchSpace.generatedFingerprints)
    (hunrecorded : fill'.phase.unrecorded = []) :
    ProgressInv searchRunId prints (world.withFill fill') := by
  obtain ⟨hknows, hahead⟩ := h.fill fill hholds
  refine h.withFill ⟨hknows.run.of_progress hprogress, hfresh, ?_⟩ ?_
  · rw [hunrecorded]
    nofun
  · rw [next_of_progress hprogress]
    exact hahead

/-- The row is written by someone who knows the candidates, and nobody holds it now. -/
theorem save (h : ProgressInv searchRunId prints world) {run : SearchRun}
    (hknows : run.Knows prints) :
    ProgressInv searchRunId prints { world.save run with fill := none } where
  reservations := h.reservations
  distinct := h.distinct
  row := by
    intro run' hrun
    obtain ⟨stored, -, rfl⟩ := Option.map_eq_some_iff.mp hrun
    exact hknows.of_progress (overwritten_progress stored run)
  fill := fun _ hfill => by cases hfill

theorem unlocked (h : ProgressInv searchRunId prints world) :
    ProgressInv searchRunId prints { world with fill := none } :=
  ⟨h.reservations, h.distinct, h.row, fun _ hfill => by cases hfill⟩

theorem operation (h : ProgressInv searchRunId prints world) (hsourced : world.backtesting.Sourced)
    {step : Step} (hother : step.submitsFor searchRunId = false)
    (henabled : world.backtesting.enabled step) :
    ProgressInv searchRunId prints
      { world with backtesting := storage.next world.backtesting step } := by
  have hsubmissions := Storage.submissions_next storage hsourced henabled hother
  have hof : ∀ backtesting : World,
      ({ world with backtesting } : SearchWorld).reservations searchRunId =
        ((backtesting.ofRun searchRunId).map (·.submission)).map fun submission =>
          (submission.2.1, (world.fingerprints.get? submission.1).map (·.fingerprint)) := by
    intro backtesting
    rw [List.map_map]
    rfl
  refine ⟨?_, h.distinct, h.row, h.fill⟩
  rw [hof, hsubmissions, ← hof]
  exact h.reservations

end ProgressInv

theorem fingerprintOf_put {candidate : StoredCandidate} {fingerprint : String}
    (h : later.fingerprints = world.fingerprints.put ⟨candidate.candidateId, fingerprint⟩) :
    later.fingerprintOf candidate.submitted = some fingerprint := by
  have hid : candidate.submitted.candidateId = candidate.candidateId := rfl
  rw [SearchWorld.fingerprintOf, h, hid, Table.get?_put, if_pos rfl]
  rfl

theorem progressInv_created (hbudget : BudgetInv searchRunId world)
    (h : ProgressInv searchRunId prints world) {fill : Fill} (hholds : world.fill = some fill)
    {generated : GeneratedCandidate} {candidate : StoredCandidate} {dispatch : BacktestDispatch}
    (hphase : fill.phase = .submitting generated) (hrequested : Requested fill.run candidate)
    (hfresh : world.backtesting.enabled (.submit candidate dispatch none))
    (hagain : world.GivenAgain fill)
    (hcreated : FillCreated storage world fill generated candidate dispatch later) :
    ∃ prints', ProgressInv searchRunId prints' later := by
  obtain ⟨⟨run, hrun, hfixed⟩, hroomy⟩ := hbudget.fill fill hholds
  obtain ⟨hknows, hahead⟩ := h.fill fill hholds
  have hid : fill.run.searchRunId = searchRunId :=
    (congrArg FixedColumns.searchRunId hfixed).trans (hbudget.row run hrun).1
  have hof := ofRun_created storage hrequested hfresh
  rw [hid, ← hcreated.backtesting] at hof
  rw [SearchWorld.GivenAgain, hid, hphase] at hagain
  -- the submitted id is fresh, so the rows there keep their fingerprints
  have hkept : ∀ stored ∈ world.backtesting.ofRun searchRunId,
      later.fingerprintOf stored = world.fingerprintOf stored := by
    intro stored hmem
    rw [SearchWorld.fingerprintOf, SearchWorld.fingerprintOf]
    rcases hcreated.fingerprints with hsame | hput
    · rw [hsame]
    · rw [hput, Table.get?_put_of_ne]
      intro hequal
      have hstored := Table.get?_of_mem_rows (World.mem_ofRun.mp hmem).1
      have hnone := Option.isNone_iff_eq_none.mp hfresh.1
      rw [World.stored, show candidate.candidateId = stored.candidateId from hequal.symm,
        hstored] at hnone
      cases hnone
  have hreserved : (world.backtesting.ofRun searchRunId).map (fun stored =>
      (stored.iterationNumber, later.fingerprintOf stored)) = numbered prints := by
    rw [← h.reservations]
    exact List.map_congr_left fun stored hmem => by rw [hkept stored hmem]
  have hretry : ∀ error, (fill.retried error).Knows prints ∧
      ∀ run, world.run = some run → run.nextIteration ≤ (fill.retried error).run.nextIteration := by
    intro error
    rw [Fill.retried_kept]
    refine ⟨⟨?_, ?_, ?_⟩, hahead⟩
    · rw [Fill.retried_kept]
      exact hknows.run
    · unfold Fill.retried
      split <;> exact fun _ hsubmitting => (by cases hsubmitting)
    · rw [Phase.unrecorded_of_plain (Fill.retried_plain fill error)]
      exact fun _ hprint => absurd hprint List.not_mem_nil
  rcases hof with ⟨hsame, hwhy⟩ | ⟨hnew, happend, hanswer⟩
  · -- the candidate that is there answers, or none does
    refine ⟨prints, ?_, h.distinct, hcreated.run ▸ h.row, ?_⟩
    · rw [SearchWorld.reservations, hsame]
      exact hreserved
    intro fill' hfill'
    rw [hcreated.run]
    rcases hwhy with ⟨stored, hmem, hiteration⟩ | ⟨error, herror⟩
    · rcases hcreated.goesOn with hstored | ⟨error, hretried⟩
      · have hthere : (some fill.run.nextIteration, some generated.fingerprint) ∈
            numbered prints := by
          rw [← h.reservations]
          refine List.mem_map.mpr ⟨stored, hmem, ?_⟩
          rw [hiteration, hagain stored hmem hiteration]
          rfl
        rw [hstored] at hfill'
        cases hfill'
        refine ⟨⟨hknows.run, fun _ hsubmitting => (by cases hsubmitting), fun print hprint => ?_⟩,
          hahead⟩
        rw [List.mem_singleton.mp hprint]
        exact (mem_numbered.mp hthere).2.2
      · rw [hretried] at hfill'
        cases hfill'
        exact hretry error
    · rw [hcreated.refused error herror] at hfill'
      cases hfill'
      exact hretry error
  · -- the iteration is the first one without a candidate, so the run has recorded all of them
    have hlast : fill.run.nextIteration = prints.length + 1 := by
      by_contra hnot
      have hwithin := hknows.run.within
      have hfirst := hroomy.first
      have hlt : fill.run.nextIteration - 1 < prints.length := by omega
      have hthere : (some fill.run.nextIteration, prints[fill.run.nextIteration - 1]?) ∈
          numbered prints :=
        mem_numbered.mpr ⟨hfirst, by rw [List.getElem?_eq_getElem hlt]; rfl, rfl⟩
      rw [← h.reservations] at hthere
      obtain ⟨stored, hmem, hequal⟩ := List.mem_map.mp hthere
      exact hnew stored hmem (congrArg Prod.fst hequal)
    have hunknown : generated.fingerprint ∉ prints := by
      intro hmem
      refine hknows.fresh generated hphase (hknows.run.recorded ?_)
      rwa [hlast, Nat.add_sub_cancel, List.take_length]
    obtain ⟨hstored, hput⟩ := hcreated.answered hanswer
    refine ⟨prints ++ [generated.fingerprint], ?_, ?_, ?_, ?_⟩
    · rw [SearchWorld.reservations, happend, List.map_append, hreserved, numbered_append, ← hlast,
        List.map_singleton, fingerprintOf_put hput]
      rw [show candidate.submitted.iterationNumber = some fill.run.nextIteration from
        hrequested.2.2.1]
    · rw [List.nodup_append]
      refine ⟨h.distinct, List.nodup_singleton _, ?_⟩
      rintro print hmem other hother rfl
      rw [List.mem_singleton.mp hother] at hmem
      exact hunknown hmem
    · rw [hcreated.run]
      exact fun run hrun => (h.row run hrun).append _
    · intro fill' hfill'
      rw [hcreated.run]
      rw [hstored] at hfill'
      cases hfill'
      refine ⟨⟨hknows.run.append _, fun _ hsubmitting => (by cases hsubmitting),
        fun print hprint => ?_⟩, hahead⟩
      rw [List.mem_singleton.mp hprint, hlast, Nat.add_sub_cancel,
        List.getElem?_append_right (Nat.le_refl _), Nat.sub_self]
      rfl

theorem progressInv_moved (hbudget : BudgetInv searchRunId world)
    (h : ProgressInv searchRunId prints world) (hc : KeepsProgress world step)
    (hmoved : Moved storage generators searchRunId world step later) :
    ∃ prints', ProgressInv searchRunId prints' later := by
  cases hmoved with
  | operated hother henabled => exact ⟨prints, h.operation hbudget.sourced hother henabled⟩
  | @started config ownerUserId now run hfresh hanswer =>
    obtain rfl := started_run hanswer
    refine ⟨prints, h.reservations, h.distinct, ?_, ?_⟩
    · intro run hrun
      cases hrun
      exact ⟨Nat.le_add_left 1 _, List.nil_subset _⟩
    · intro fill hfill
      obtain ⟨⟨run, hrun, -⟩, -⟩ := hbudget.fill fill hfill
      rw [hfresh] at hrun
      cases hrun
  | nothing => exact ⟨prints, h⟩
  | read => exact ⟨prints, h.reservations, h.distinct, h.row, h.fill⟩
  | @wrote step copy run hunlocked hwrites =>
    cases hrun : world.run with
    | none =>
      refine ⟨prints, h.reservations, h.distinct, fun run' hrun' => ?_, fun fill hfill => ?_⟩
      · rw [SearchWorld.save, hrun] at hrun'
        cases hrun'
      · rw [show world.fill = some fill from hfill] at hunlocked
        cases hunlocked
    | some stored =>
      have hprogress : run.progress = stored.progress := by
        rw [hwrites.progress]
        cases hwrites with
        | paused | resumed | failed => exact hc stored hrun
        | cancelled hstored =>
          rw [hrun] at hstored
          cases hstored
          rfl
      have hsaved := h.save ((h.row stored hrun).of_progress hprogress)
      rw [show ({ world.save run with fill := none } : SearchWorld) = world.save run by
        rw [← hunlocked]; rfl] at hsaved
      exact ⟨prints, hsaved⟩
  | @locked run hunlocked hstored =>
    refine ⟨prints, h.withFill (Fill.knows_ofRun (h.row run hstored)) ?_⟩
    intro run' hrun'
    rw [hstored] at hrun'
    cases hrun'
    exact Nat.le_refl _
  | @filled fill step later hholds hmoved =>
    have hnew := fun (fill' : Fill) (hlater : later.fill = some fill') =>
      fillMoved_fresh hmoved hlater
    cases hmoved with
    | summarized again hphase =>
      refine ⟨prints, h.goOn hholds (by rw [Fill.summarized_kept]) (hnew _ rfl) ?_⟩
      unfold Fill.summarized
      split <;> rfl
    | ranked again summary hphase =>
      exact ⟨prints, h.goOn hholds (Fill.ranked_kept fill _ _ _ _).2 (hnew _ rfl)
        (Phase.unrecorded_of_plain (Fill.ranked_plain again summary _ _))⟩
    | generated hphase =>
      exact ⟨prints, h.goOn hholds (by rw [Fill.generated_kept]) (hnew _ rfl)
        (Phase.unrecorded_of_plain (Fill.generated_plain hphase))⟩
    | created generated hphase hrequested hfresh =>
      exact progressInv_created hbudget h hholds hphase hrequested hfresh (hc fill hholds)
        (fillCreates_created storage world fill generated _ _)
    | accepted generated hphase =>
      obtain ⟨hknows, hahead⟩ := h.fill fill hholds
      have hfirst := (hbudget.fill fill hholds).2.first
      have hstored := hknows.stored generated.fingerprint (by
        rw [hphase]
        exact List.mem_singleton_self _)
      refine ⟨prints, h.withFill ⟨hknows.run.record hfirst hstored,
        fun _ hsubmitting => (by cases hsubmitting),
        fun _ hprint => absurd hprint List.not_mem_nil⟩ ?_⟩
      exact fun run hrun => Nat.le_succ_of_le (hahead run hrun)
    | @rejected error generated hphase =>
      exact ⟨prints, h.goOn hholds (by rw [Fill.retried_kept]) (hnew _ rfl)
        (Phase.unrecorded_of_plain (Fill.retried_plain fill error))⟩
    | saved hphase => exact ⟨prints, h.save (h.fill fill hholds).1.run⟩
    | returned | rolledBack => exact ⟨prints, h.unlocked⟩

/-- The stored `nextIteration` has not gone back from one world to a later one. -/
def NextKept (world later : SearchWorld) : Prop :=
  ∀ run, world.run = some run →
    ∃ run', later.run = some run' ∧ run.nextIteration ≤ run'.nextIteration

theorem NextKept.refl (world : SearchWorld) : NextKept world world :=
  fun run hrun => ⟨run, hrun, Nat.le_refl _⟩

theorem NextKept.trans {first second third : SearchWorld} (h : NextKept first second)
    (h' : NextKept second third) : NextKept first third := by
  intro run hrun
  obtain ⟨run', hrun', hle⟩ := h run hrun
  obtain ⟨run'', hrun'', hle'⟩ := h' run' hrun'
  exact ⟨run'', hrun'', hle.trans hle'⟩

theorem nextKept_save {stored run : SearchRun} (hstored : world.run = some stored)
    (h : stored.nextIteration ≤ run.nextIteration) : NextKept world (world.save run) := by
  intro run' hrun'
  rw [hstored] at hrun'
  cases hrun'
  exact ⟨stored.overwritten run, run_save hstored run, h⟩

theorem nextKept_moved (h : ProgressInv searchRunId prints world) (hc : KeepsProgress world step)
    (hmoved : Moved storage generators searchRunId world step later) : NextKept world later := by
  cases hmoved with
  | operated | nothing | read | locked => exact .refl world
  | started hfresh =>
    intro run hrun
    rw [hfresh] at hrun
    cases hrun
  | @wrote step copy run hunlocked hwrites =>
    intro stored hstored
    refine nextKept_save hstored ?_ stored hstored
    rw [next_of_progress hwrites.progress]
    cases hwrites with
    | paused | resumed | failed => exact (next_of_progress (hc stored hstored)).ge
    | cancelled hthere =>
      rw [hstored] at hthere
      cases hthere
      exact Nat.le_refl _
  | @filled fill step later hholds hmoved =>
    cases hmoved with
    | created generated =>
      intro stored hstored
      rw [(fillCreates_created storage world fill generated _ _).run]
      exact ⟨stored, hstored, Nat.le_refl _⟩
    | saved =>
      intro stored hstored
      exact nextKept_save hstored ((h.fill fill hholds).2 stored hstored) stored hstored
    | _ => exact .refl world

theorem progressInv_empty : ProgressInv searchRunId [] SearchWorld.empty :=
  ⟨rfl, List.nodup_nil, (fun _ hrun => by cases hrun), (fun _ hfill => by cases hfill)⟩

/-- What every run that keeps the progress comes to. -/
def ProgressReached (searchRunId : String) (world : SearchWorld) : Prop :=
  BudgetInv searchRunId world ∧ ∃ prints, ProgressInv searchRunId prints world

theorem progressReached_moved (h : ProgressReached searchRunId world) (hc : KeepsProgress world step)
    (hmoved : Moved storage generators searchRunId world step later) :
    ProgressReached searchRunId later := by
  obtain ⟨hbudget, prints, hprogress⟩ := h
  exact ⟨budgetInv_moved hbudget hmoved, progressInv_moved hbudget hprogress hc hmoved⟩

theorem progressReached {steps : List SearchStep}
    (h : (searchSystem storage generators searchRunId).Legal KeepsProgress SearchWorld.empty
      steps) : ProgressReached searchRunId (searchAfter storage generators searchRunId steps) :=
  searchAfter_invariant _ ⟨budgetInv_empty, [], progressInv_empty⟩
    (fun _ _ _ hreached hc hmoved => progressReached_moved hreached hc hmoved) h

/-- In every run whose writes keep the progress, and whose iterations are given again when they are
submitted again, the stored `nextIteration` never decreases, and every candidate stored for the
search has a fingerprint that no other one has. -/
theorem progress_kept (storage : Storage) (generators : Generators) (searchRunId : String)
    (steps later : List SearchStep)
    (h : (searchSystem storage generators searchRunId).Legal KeepsProgress SearchWorld.empty
      (steps ++ later)) :
    let world := searchAfter storage generators searchRunId (steps ++ later)
    NextKept (searchAfter storage generators searchRunId steps) world ∧
      (∀ candidate ∈ world.backtesting.ofRun searchRunId, (world.fingerprintOf candidate).isSome) ∧
      ((world.backtesting.ofRun searchRunId).map world.fingerprintOf).Nodup := by
  intro world
  obtain ⟨hbefore, hafter⟩ := GuardedSystem.legal_append.mp h
  obtain ⟨-, prints, hinv⟩ := progressReached h
  have hprints : (world.backtesting.ofRun searchRunId).map world.fingerprintOf =
      prints.map some := by
    rw [← map_snd_numbered, ← hinv.reservations, SearchWorld.reservations, List.map_map]
    rfl
  refine ⟨?_, fun candidate hmem => ?_, ?_⟩
  · show NextKept _ (searchAfter storage generators searchRunId (steps ++ later))
    rw [searchAfter_append]
    refine hafter.stable (ProgressReached searchRunId)
      (NextKept (searchAfter storage generators searchRunId steps)) ?_ ?_ (progressReached hbefore)
      (.refl _)
    · exact fun _ _ hreached henabled hc =>
        progressReached_moved hreached hc (searchNext_moved henabled)
    · intro _ _ ⟨_, _, hprogress⟩ hkept henabled hc
      exact hkept.trans (nextKept_moved hprogress hc (searchNext_moved henabled))
  · have hof : world.fingerprintOf candidate ∈ prints.map some :=
      hprints ▸ List.mem_map_of_mem hmem
    obtain ⟨print, -, hequal⟩ := List.mem_map.mp hof
    rw [← hequal]
    rfl
  · rw [hprints]
    exact hinv.distinct.map (Option.some_injective _)

/-- Three slots are filled, but the process dies after the first candidate. The next fill is given
the same one, which is there, and then one more. -/
def givenAgain : List SearchStep :=
  .start { Sample.config 3 with stopCondition := ⟨some 3, none, none⟩ } "u" 0 :: Sample.planning
    ++ Sample.submission "c" 1 ++ [.fill .rollback]
    ++ (Sample.planning ++ Sample.submission "d" 1 ++ Sample.submission "e" 2 ++ Sample.saving)

/-- The owner's page reads the row and pauses the run. -/
def pausing : List SearchStep :=
  .read :: (searchAfter .postgres Sample.numbered "r" givenAgain).run.toList.map (.pause · 1000)

theorem progress_kept_givenAgain :
    let world := searchAfter .postgres Sample.numbered "r" (givenAgain ++ pausing)
    world.reservations "r" = [(some 1, some "A"), (some 2, some "C")] ∧
      world.run.map (fun run => (run.state, run.nextIteration)) = some (.paused, 3) ∧
      NextKept (searchAfter .postgres Sample.numbered "r" givenAgain) world ∧
      ((world.backtesting.ofRun "r").map world.fingerprintOf).Nodup := by
  obtain ⟨hnext, -, hdistinct⟩ :=
    progress_kept .postgres Sample.numbered "r" givenAgain pausing (by decide)
  exact ⟨by decide, by decide, hnext, hdistinct⟩

/-- Two slots are filled in one go; in between the owner's page reads the row. -/
def filled : List SearchStep :=
  .start (Sample.config 2) "u" 0 :: .read :: Sample.planning
    ++ (Sample.submission "c" 1 ++ Sample.submission "d" 2 ++ Sample.saving)

/-- Three slots are filled, but the process dies after two candidates, of the iterations one and
three of the generator. The next fills find no record of them: they are given the same candidates,
until the second iteration is answered with the candidate of the third, which then comes again. -/
def refilledAfterCrash : List SearchStep :=
  .start { Sample.config 3 with stopCondition := ⟨some 3, none, none⟩ } "u" 0 :: Sample.planning
    ++ (Sample.submission "c" 1 ++ Sample.submission "d" 2) ++ [.fill .rollback]
    ++ (Sample.planning ++ Sample.submission "e" 1 ++ Sample.saving)
    ++ (Sample.planning ++ Sample.submission "f" 2 ++ Sample.saving)
    ++ (Sample.planning ++ Sample.submission "g" 3)

/-- Two legal runs. A page that has read the run before a fill pauses it afterwards, and the
iterations go back to the first. A crash makes the run forget a candidate, and a second one with the
same fingerprint is stored. -/
theorem progress_lost :
    ((searchSystem .postgres Sample.numbered "r").Legal (fun _ _ => True) SearchWorld.empty
        (filled ++ [.pause (createRun "r" (Sample.config 2) "u" 0) 1000]) ∧
      ¬ NextKept (searchAfter .postgres Sample.numbered "r" filled)
        (searchAfter .postgres Sample.numbered "r"
          (filled ++ [.pause (createRun "r" (Sample.config 2) "u" 0) 1000]))) ∧
    ((searchSystem .postgres Sample.numbered "r").Legal (fun _ _ => True) SearchWorld.empty
        refilledAfterCrash ∧
      ¬ (((searchAfter .postgres Sample.numbered "r" refilledAfterCrash).backtesting.ofRun "r").map
        (searchAfter .postgres Sample.numbered "r" refilledAfterCrash).fingerprintOf).Nodup) := by
  refine ⟨⟨by decide, fun hkept => ?_⟩, by decide, by decide⟩
  have hbefore : (searchAfter .postgres Sample.numbered "r" filled).run.map (·.nextIteration) =
      some 3 := by decide
  have hlater : (searchAfter .postgres Sample.numbered "r" (filled ++
      [.pause (createRun "r" (Sample.config 2) "u" 0) 1000])).run.map (·.nextIteration) =
      some 1 := by decide
  obtain ⟨run, hrun, hnext⟩ := Option.map_eq_some_iff.mp hbefore
  obtain ⟨run', hrun', hle⟩ := hkept run hrun
  rw [hrun', Option.map_some] at hlater
  have hone := Option.some.inj hlater
  omega

end Cryptox.Search
