import Cryptox.Leaderboard.BatchTopK

/-!
# What a submission reports

The value `submit` returns is put together from the ranking before the write, from the one after it,
and from the entry an experiment already has. It describes the change of the entries only where the
board was empty or full, and where there was no entry to return early.
-/
namespace Cryptox.Leaderboard

open Cryptox.Backtesting
open Cryptox.Library
open EntryRepository

variable {repository : EntryRepository} {state next : Runtime} {call : Submission}
  {result : LeaderboardSubmissionResult}

/-- The states of a leaderboard that begins without entries. Between submissions other calls add
scopes and formulas, and draw ids from the same sequence. -/
inductive Reached : Runtime → Prop where
  | start (runtime : Runtime) (hempty : runtime.repository.entries = .empty) : Reached runtime
  | submit {state : Runtime} (h : Reached state) (call : Submission) :
      Reached (state.submit call.experiment call.now).1
  | other {state next : Runtime} (h : Reached state)
      (hentries : next.repository.entries = state.repository.entries)
      (hsequence : state.repository.sequence ≤ next.repository.sequence) : Reached next

/-- What holds of the entries in every one of them. -/
structure Kept (repository : EntryRepository) : Prop where
  sound : repository.Sound
  few : ∀ scopeId, (repository.active scopeId).length ≤ topK

/-- An admission leaves no board over-full. -/
theorem Kept.admitted (h : Kept repository) {experiment : StoredExperiment} {now : Int}
    {evicted : Option String} (hnew : repository.getByExperimentResultId experiment.id = none)
    (hscore : experiment.overallScore.isFinite = true)
    (hadmitted : admission (rankEntries (repository.getActiveTopK experiment.leaderboardScopeId topK))
      experiment = some evicted) : Kept (repository.admitted evicted experiment now) := by
  have hsound := h.sound
  refine ⟨hsound.admitted evicted hnew hscore, fun scopeId => ?_⟩
  obtain ⟨created, -, -, hactive⟩ := active_admitted scopeId evicted now hnew
  have hfew := h.few scopeId
  rw [hactive, List.length_append]
  by_cases hscope : experiment.leaderboardScopeId = scopeId
  · rw [if_pos hscope, List.length_singleton]
    rw [hscope, rankEntries_getActiveTopK hsound hfew] at hadmitted
    have hperm := rankEntries_perm (repository.active scopeId)
    have hfinite : Finite (rankEntries (repository.active scopeId)) :=
      fun entry hentry => hsound.finite_active scopeId entry (hperm.mem_iff.mp hentry)
    rcases admission_eq_some hfinite hscore hadmitted with
      ⟨rfl, hfree⟩ | ⟨lowest, rfl, hlast, hfull, -⟩
    · rw [hperm.length_eq] at hfree
      have hall := List.length_filter_le (fun entry : LeaderboardEntry => some entry.id ≠ none)
        (repository.active scopeId)
      omega
    · have hlowest := hperm.mem_iff.mp (List.mem_of_getLast? hlast)
      rw [hsound.length_filter_ne hlowest]
      exact hfew
  · rw [if_neg hscope, List.length_nil]
    exact (List.length_filter_le _ _).trans hfew

theorem Reached.kept (h : Reached state) : Kept state.repository := by
  induction h with
  | start runtime hempty =>
    have hrows : runtime.repository.entries.rows = [] := by rw [hempty]; rfl
    refine ⟨⟨?_, ?_, ?_⟩, fun scopeId => ?_⟩
    · simp [hrows]
    · simp [hrows]
    · simp [Finite, hrows]
    · simp [active, hrows]
  | @submit state _ call ih =>
    have hsubmits := submit_submits state call
    generalize (state.submit call.experiment call.now).1 = next at hsubmits ⊢
    cases hsubmits with
    | unranked => exact ih
    | known => exact ih
    | away => exact ih
    | admitted hcheck hnew evicted hadmitted => exact ih.admitted hnew (check_finite hcheck) hadmitted
  | @other state next _ hentries hsequence ih =>
    refine ⟨⟨fun entry hentry => ?_, ?_, ?_⟩, fun scopeId => ?_⟩
    · rw [hentries] at hentry
      obtain ⟨n, hn, hid⟩ := ih.sound.numbered entry hentry
      exact ⟨n, hn.trans hsequence, hid⟩
    · rw [hentries]
      exact ih.sound.distinct
    · rw [hentries]
      exact ih.sound.finite
    · rw [active, hentries]
      exact ih.few scopeId

/-! ## What is reported and what happened -/

/-- The entry was active before and is there, inactive, after. -/
structure Deactivated (before after : EntryRepository) (entry : LeaderboardEntry) : Prop where
  stored : entry ∈ before.entries.rows
  wasActive : entry.active = true
  isInactive : { entry with active := false } ∈ after.entries.rows

/-- `topK` of the caller shows the experiment at this rank. -/
def RankInTopK (runtime : Runtime) (call : Submission) (rank : Nat) : Prop :=
  ∃ ranking, runtime.topK call.experiment.ownerUserId call.experiment.leaderboardScopeId
      = .ok ranking ∧
    ∃ ranked ∈ ranking, ranked.entry.experimentResultId = call.experiment.id ∧ ranked.rank = rank

/-- The returned value describes what the call left. -/
structure Reports (state next : Runtime) (call : Submission) (result : LeaderboardSubmissionResult) :
    Prop where
  admitted : result.admitted = true ↔
    Holds next.repository call.experiment.leaderboardScopeId call
  evicted : ∀ id, result.evictedExperimentResultId = some id ↔
    ∃ entry, Deactivated state.repository next.repository entry ∧ entry.experimentResultId = id
  rank : ∀ returned, result.entry = some returned →
    Holds next.repository call.experiment.leaderboardScopeId call →
    RankInTopK next call returned.rank

/-- The call adds an entry to a board that has some and has free places. -/
structure JoinsOthers (state next : Runtime) (call : Submission) : Prop where
  new : state.repository.getByExperimentResultId call.experiment.id = none
  joined : Holds next.repository call.experiment.leaderboardScopeId call
  others : state.repository.active call.experiment.leaderboardScopeId ≠ []
  free : (state.repository.active call.experiment.leaderboardScopeId).length ≠ topK

/-- The same with repeated submissions as they are meant: a call that finds an entry of the scope
returns it as admitted, whatever has become of it. -/
structure ReportsChange (state next : Runtime) (call : Submission)
    (result : LeaderboardSubmissionResult) : Prop where
  admitted : result.admitted = true ↔ state.check call.experiment = .ok true ∧
    (Holds next.repository call.experiment.leaderboardScopeId call ∨
      ∃ existing, state.repository.getByExperimentResultId call.experiment.id = some existing ∧
        existing.leaderboardScopeId = call.experiment.leaderboardScopeId)
  evicted : ¬ JoinsOthers state next call → ∀ id, result.evictedExperimentResultId = some id ↔
    ∃ entry, Deactivated state.repository next.repository entry ∧ entry.experimentResultId = id
  rank : ∀ returned, result.entry = some returned →
    returned.entry ∉ state.repository.entries.rows → RankInTopK next call returned.rank

/-- What the state before says of a call whose report is right: an experiment that is not ranked has
no active entry, one that is has no entry in its scope; a new one finds the board empty or full. -/
structure Reportable (state : Runtime) (call : Submission) : Prop where
  unranked : state.check call.experiment = .ok false →
    ¬ Holds state.repository call.experiment.leaderboardScopeId call
  known : state.check call.experiment = .ok true → ∀ existing,
    state.repository.getByExperimentResultId call.experiment.id = some existing →
    existing.leaderboardScopeId ≠ call.experiment.leaderboardScopeId
  unknown : state.check call.experiment = .ok true →
    state.repository.getByExperimentResultId call.experiment.id = none →
    state.repository.active call.experiment.leaderboardScopeId = [] ∨
      (state.repository.active call.experiment.leaderboardScopeId).length = topK

theorem EntryRepository.Sound.eq_of_id (h : repository.Sound) {entry other : LeaderboardEntry}
    (hentry : entry ∈ repository.entries.rows) (hother : other ∈ repository.entries.rows)
    (hid : entry.id = other.id) : entry = other :=
  List.inj_on_of_nodup_map h.distinct hentry hother hid

theorem not_deactivated_self (h : repository.Sound) (entry : LeaderboardEntry) :
    ¬ Deactivated repository repository entry := by
  rintro ⟨hstored, hactive, hinactive⟩
  have hsame := h.eq_of_id hstored hinactive rfl
  rw [hsame] at hactive
  cases hactive

theorem rows_admitted_eq {experiment : StoredExperiment} (now : Int) (evicted : Option String)
    (hnew : repository.getByExperimentResultId experiment.id = none) :
    (repository.admitted evicted experiment now).entries.rows
      = (evicted.elim repository repository.deactivate).entries.rows
        ++ [insertedEntry experiment (entryId (repository.sequence + 1)) now] := by
  cases evicted with
  | none => exact rows_insert hnew
  | some lowest =>
    have hstill : (repository.deactivate lowest).getByExperimentResultId experiment.id = none := by
      rw [getBy_deactivate, hnew]
      rfl
    exact rows_insert hstill

/-- An admission deactivates the entry it evicts and no other. -/
theorem deactivated_admitted (h : repository.Sound) {experiment : StoredExperiment} {now : Int}
    {evicted : Option String} (hnew : repository.getByExperimentResultId experiment.id = none)
    (entry : LeaderboardEntry) :
    Deactivated repository (repository.admitted evicted experiment now) entry ↔
      entry ∈ repository.entries.rows ∧ entry.active = true ∧ some entry.id = evicted := by
  have hself := not_deactivated_self h entry
  cases evicted with
  | none =>
    refine iff_of_false ?_ (by simp)
    rintro ⟨hstored, hactive, hinactive⟩
    rw [rows_admitted_eq now none hnew] at hinactive
    rcases List.mem_append.mp hinactive with hold | hcreated
    · exact hself ⟨hstored, hactive, hold⟩
    · exact Bool.noConfusion (congrArg LeaderboardEntry.active (List.mem_singleton.mp hcreated))
  | some lowest =>
    have hrows := rows_admitted_eq now (some lowest) hnew
    constructor
    · rintro ⟨hstored, hactive, hinactive⟩
      rw [hrows] at hinactive
      rcases List.mem_append.mp hinactive with hold | hcreated
      · obtain ⟨old, hmem, heq⟩ := List.mem_map.mp hold
        by_cases hlowest : old.id = lowest
        · have hid := congrArg LeaderboardEntry.id heq
          rw [deactivated_id] at hid
          exact ⟨hstored, hactive, congrArg some (hid.symm.trans hlowest)⟩
        · rw [deactivated, if_neg hlowest] at heq
          exact absurd ⟨hstored, hactive, heq ▸ hmem⟩ hself
      · exact Bool.noConfusion (congrArg LeaderboardEntry.active (List.mem_singleton.mp hcreated))
    · rintro ⟨hstored, hactive, hid⟩
      refine ⟨hstored, hactive, ?_⟩
      rw [hrows]
      refine List.mem_append_left _ (List.mem_map.mpr ⟨entry, hstored, ?_⟩)
      rw [deactivated, if_pos (Option.some.inj hid)]

/-! ## The rank -/

theorem mem_withRanks {entries : List LeaderboardEntry} {entry : LeaderboardEntry}
    (h : entry ∈ entries) : ∃ ranked ∈ withRanks entries, ranked.entry = entry := by
  rw [← withRanks_entries entries] at h
  exact List.mem_map.mp h

theorem withRanks_pos {entries : List LeaderboardEntry} {ranked : RankedEntry}
    (h : ranked ∈ withRanks entries) : 0 < ranked.rank := by
  have hrank := List.mem_map_of_mem (f := RankedEntry.rank) h
  rw [withRanks_ranks] at hrank
  exact (List.mem_range'_1.mp hrank).1

/-- An active entry is shown with its place in the ranking. -/
theorem shown_mem (h : Kept repository) {entry : LeaderboardEntry}
    (hentry : entry ∈ repository.active entry.leaderboardScopeId) :
    Runtime.shown repository entry ∈ withRanks (rankEntries
        (repository.getActiveTopK entry.leaderboardScopeId topK)) ∧
      (Runtime.shown repository entry).entry = entry := by
  have hread := rankEntries_getActiveTopK h.sound (h.few entry.leaderboardScopeId)
  rw [Runtime.shown, hread]
  have hperm := rankEntries_perm (repository.active entry.leaderboardScopeId)
  obtain ⟨ranked, hranked, hsame⟩ := mem_withRanks (hperm.mem_iff.mpr hentry)
  cases hfound : (withRanks (rankEntries (repository.active entry.leaderboardScopeId))).find?
      (fun ranked => ranked.entry.id == entry.id) with
  | none =>
    have hnone := List.find?_eq_none.mp hfound ranked hranked
    simp [hsame] at hnone
  | some found =>
    have hmem := List.mem_of_find?_eq_some hfound
    have hid : found.entry.id = entry.id := by simpa using List.find?_some hfound
    have hlisted : found.entry ∈ repository.active entry.leaderboardScopeId := by
      refine hperm.mem_iff.mp ?_
      rw [← withRanks_entries (rankEntries (repository.active entry.leaderboardScopeId))]
      exact List.mem_map_of_mem hmem
    exact ⟨hmem, h.sound.eq_of_id (active_subset hlisted).1 (active_subset hentry).1 hid⟩

/-- Who may submit may read the ranking. -/
theorem check_readScope {experiment : StoredExperiment} (h : state.check experiment = .ok true) :
    state.readScope experiment.ownerUserId experiment.leaderboardScopeId = .ok () := by
  simp only [Runtime.check, bind_eq_ok] at h
  obtain ⟨ranked, hranked, h⟩ := h
  cases ranked with
  | false => cases h
  | true =>
    have hpassed : isBlank experiment.ownerUserId = false ∧
        (state.getById experiment.ownerUserId experiment.leaderboardScopeId).isSome = true := by
      unfold submitCheck at hranked
      grind
    obtain ⟨scope, hscope⟩ := Option.isSome_iff_exists.mp hpassed.2
    rw [if_pos rfl, hscope] at h
    obtain ⟨⟨⟩, hcached, -⟩ := bind_eq_ok.mp h
    rw [Runtime.readScope, hpassed.1, hscope]
    exact hcached

/-! ## The cases of a submission -/

/-- What a call that returns leaves and returns. -/
inductive Returned (state : Runtime) (call : Submission) :
    Runtime → LeaderboardSubmissionResult → Prop where
  | unranked (hcheck : state.check call.experiment = .ok false) :
      Returned state call state ⟨false, none, none⟩
  | known (hcheck : state.check call.experiment = .ok true) (existing : LeaderboardEntry)
      (hknown : state.repository.getByExperimentResultId call.experiment.id = some existing)
      (hscope : existing.leaderboardScopeId = call.experiment.leaderboardScopeId) :
      Returned state call state ⟨true, some ⟨0, existing⟩, none⟩
  | elsewhere (hcheck : state.check call.experiment = .ok true) (existing : LeaderboardEntry)
      (hknown : state.repository.getByExperimentResultId call.experiment.id = some existing)
      (hscope : existing.leaderboardScopeId ≠ call.experiment.leaderboardScopeId) :
      Returned state call state ⟨false, none, none⟩
  | away (hcheck : state.check call.experiment = .ok true)
      (hnew : state.repository.getByExperimentResultId call.experiment.id = none)
      (haway : admission (rankEntries (state.repository.getActiveTopK
        call.experiment.leaderboardScopeId topK)) call.experiment = none) :
      Returned state call state ⟨false, none, none⟩
  | admitted (hcheck : state.check call.experiment = .ok true)
      (hnew : state.repository.getByExperimentResultId call.experiment.id = none)
      (evicted : Option String)
      (hadmitted : admission (rankEntries (state.repository.getActiveTopK
        call.experiment.leaderboardScopeId topK)) call.experiment = some evicted) :
      Returned state call
        { state with repository := state.repository.admitted evicted call.experiment call.now }
        ⟨true, some (Runtime.shown (state.repository.admitted evicted call.experiment call.now)
          (insertedEntry call.experiment (entryId (state.repository.sequence + 1)) call.now)),
          (rankEntries (state.repository.getActiveTopK call.experiment.leaderboardScopeId
            topK)).getLast?.map (·.experimentResultId)⟩

theorem submit_returned (h : state.submit call.experiment call.now = (next, .ok result)) :
    Returned state call next result := by
  unfold Runtime.submit at h
  split at h
  · cases h
  · rename_i hcheck
    cases h
    exact .unranked hcheck
  · rename_i hcheck
    split at h
    · rename_i existing hknown
      split at h
      · rename_i hscope
        cases h
        exact .known hcheck existing hknown hscope
      · rename_i hscope
        cases h
        exact .elsewhere hcheck existing hknown hscope
    · rename_i hnew
      dsimp only at h
      split at h
      · rename_i haway
        cases h
        exact .away hcheck hnew haway
      · rename_i evicted hadmitted
        have hreturned := Returned.admitted hcheck hnew evicted hadmitted
        cases evicted <;> cases h <;> exact hreturned

/-- The one who holds an entry of the scope is the one whose entry is found. -/
theorem holds_known {existing : LeaderboardEntry}
    (hknown : repository.getByExperimentResultId call.experiment.id = some existing)
    (h : Holds repository call.experiment.leaderboardScopeId call) :
    existing.leaderboardScopeId = call.experiment.leaderboardScopeId := by
  obtain ⟨entry, hentry, hid⟩ := h
  obtain ⟨hmem, hscope⟩ := active_subset hentry
  have hfound := Table.get?_of_mem_rows hmem
  rw [hid] at hfound
  cases hknown.symm.trans hfound
  exact hscope

theorem not_holds_unknown (hnew : repository.getByExperimentResultId call.experiment.id = none)
    (scopeId : String) : ¬ Holds repository scopeId call := by
  rintro ⟨entry, hentry, hid⟩
  have hfound := Table.get?_of_mem_rows (active_subset hentry).1
  rw [hid] at hfound
  cases hnew.symm.trans hfound

theorem inserted_active (evicted : Option String)
    (hnew : repository.getByExperimentResultId call.experiment.id = none) :
    insertedEntry call.experiment (entryId (repository.sequence + 1)) call.now
      ∈ (repository.admitted evicted call.experiment call.now).active
        call.experiment.leaderboardScopeId := by
  refine List.mem_filter.mpr ⟨?_, by simp [insertedEntry]⟩
  rw [rows_admitted_eq call.now evicted hnew]
  exact List.mem_append_right _ List.mem_cons_self

/-- An admitted experiment is returned with its place in the ranking that `topK` then answers. -/
theorem admitted_rank (h : Reached state) (hcheck : state.check call.experiment = .ok true)
    (hnew : state.repository.getByExperimentResultId call.experiment.id = none)
    {evicted : Option String} (hadmitted : admission (rankEntries (state.repository.getActiveTopK
      call.experiment.leaderboardScopeId topK)) call.experiment = some evicted) :
    RankInTopK { state with
        repository := state.repository.admitted evicted call.experiment call.now } call
      (Runtime.shown (state.repository.admitted evicted call.experiment call.now)
        (insertedEntry call.experiment (entryId (state.repository.sequence + 1)) call.now)).rank := by
  have hkept : Kept (state.repository.admitted evicted call.experiment call.now) :=
    h.kept.admitted hnew (check_finite hcheck) hadmitted
  obtain ⟨hmem, hentry⟩ := shown_mem hkept (inserted_active evicted hnew)
  refine ⟨_, ?_, _, hmem, by rw [hentry]; rfl, rfl⟩
  simp only [Runtime.topK, bind_eq_ok, pure_eq_ok]
  exact ⟨(), (Runtime.readScope_congr rfl rfl _ _).trans (check_readScope hcheck), rfl⟩

theorem away_full (h : Reached state) (hcheck : state.check call.experiment = .ok true)
    (haway : admission (rankEntries (state.repository.getActiveTopK
      call.experiment.leaderboardScopeId topK)) call.experiment = none) :
    (state.repository.active call.experiment.leaderboardScopeId).length = topK := by
  have hsound := h.kept.sound
  have hperm := rankEntries_perm (state.repository.active call.experiment.leaderboardScopeId)
  have hfinite := hsound.finite_active call.experiment.leaderboardScopeId
  rw [rankEntries_getActiveTopK hsound (h.kept.few _)] at haway
  obtain ⟨hfull, -⟩ := admission_eq_none
    (fun entry hentry => hfinite entry (hperm.mem_iff.mp hentry)) (check_finite hcheck)
    (rankEntries_pairwise hfinite) haway
  rwa [hperm.length_eq] at hfull

/-- The lowest of the ranking before is the evicted one, unless the board has others and places. -/
theorem names_evicted_iff (h : Reached state) (hcheck : state.check call.experiment = .ok true)
    (hnew : state.repository.getByExperimentResultId call.experiment.id = none)
    {evicted : Option String} (hadmitted : admission (rankEntries (state.repository.getActiveTopK
      call.experiment.leaderboardScopeId topK)) call.experiment = some evicted) :
    (∀ id, (rankEntries (state.repository.getActiveTopK call.experiment.leaderboardScopeId
        topK)).getLast?.map (·.experimentResultId) = some id ↔
      ∃ entry, Deactivated state.repository
        (state.repository.admitted evicted call.experiment call.now) entry ∧
          entry.experimentResultId = id) ↔
    (state.repository.active call.experiment.leaderboardScopeId = [] ∨
      (state.repository.active call.experiment.leaderboardScopeId).length = topK) := by
  have hsound := h.kept.sound
  simp only [deactivated_admitted hsound hnew, and_assoc]
  have hperm := rankEntries_perm (state.repository.active call.experiment.leaderboardScopeId)
  rw [rankEntries_getActiveTopK hsound (h.kept.few _)] at hadmitted ⊢
  have hfinite : Finite (rankEntries (state.repository.active call.experiment.leaderboardScopeId)) :=
    fun entry hentry => hsound.finite_active _ entry (hperm.mem_iff.mp hentry)
  rcases admission_eq_some hfinite (check_finite hcheck) hadmitted with
    ⟨rfl, hfree⟩ | ⟨lowest, rfl, hlast, hfull, -⟩
  · rw [hperm.length_eq] at hfree
    simp only [reduceCtorEq, false_and, and_false, exists_false, iff_false, hfree, or_false]
    refine Option.eq_none_iff_forall_ne_some.symm.trans ?_
    rw [Option.map_eq_none_iff, List.getLast?_eq_none_iff, ← List.length_eq_zero_iff,
      hperm.length_eq, List.length_eq_zero_iff]
  · rw [hperm.length_eq] at hfull
    have hlowest := hperm.mem_iff.mp (List.mem_of_getLast? hlast)
    refine iff_of_true (fun id => ?_) (.inr hfull)
    rw [hlast, Option.map_some, Option.some_inj]
    constructor
    · rintro rfl
      have hactive := (List.mem_filter.mp hlowest).2
      rw [Bool.and_eq_true] at hactive
      exact ⟨lowest, (active_subset hlowest).1, hactive.1, rfl, rfl⟩
    · rintro ⟨entry, hentry, -, hid, rfl⟩
      rw [hsound.eq_of_id hentry (active_subset hlowest).1 (Option.some.inj hid)]

/-- The early return for an entry of the scope reports neither: the entry is evicted, or its rank is
nought. -/
theorem not_reports_existing (existing : LeaderboardEntry) :
    ¬ Reports state state call ⟨true, some ⟨0, existing⟩, none⟩ := by
  intro hreports
  obtain ⟨ranking, hranking, ranked, hranked, -, hrank⟩ :=
    hreports.rank _ rfl (hreports.admitted.mp rfl)
  simp only [Runtime.topK, bind_eq_ok, pure_eq_ok] at hranking
  obtain ⟨-, -, rfl⟩ := hranking
  exact (withRanks_pos hranked).ne' hrank

/-- An early return without an entry is right where the experiment has no active entry. -/
theorem reports_nothing (h : Reached state) :
    Reports state state call ⟨false, none, none⟩ ↔
      ¬ Holds state.repository call.experiment.leaderboardScopeId call := by
  constructor
  · intro hreports hholds
    exact Bool.noConfusion (hreports.admitted.mpr hholds)
  · intro hnone
    refine ⟨iff_of_false Bool.false_ne_true hnone, fun id => iff_of_false (by simp) ?_, by simp⟩
    rintro ⟨entry, hdeactivated, -⟩
    exact not_deactivated_self h.kept.sound entry hdeactivated

/-- Word for word the report is right exactly when the call found the board empty or full, or had
nothing to add to it. -/
theorem reports_iff (h : Reached state)
    (hok : state.submit call.experiment call.now = (next, .ok result)) :
    Reports state next call result ↔ Reportable state call := by
  cases submit_returned hok with
  | unranked hcheck =>
    rw [reports_nothing h]
    exact ⟨fun hnone => ⟨fun _ => hnone, by simp [hcheck], by simp [hcheck]⟩,
      fun hreportable => hreportable.unranked hcheck⟩
  | known hcheck existing hknown hscope =>
    exact iff_of_false (not_reports_existing existing) fun hreportable =>
      hreportable.known hcheck existing hknown hscope
  | elsewhere hcheck existing hknown hscope =>
    rw [reports_nothing h]
    refine iff_of_true (fun hholds => hscope (holds_known hknown hholds))
      ⟨by simp [hcheck], fun _ other hother => ?_, by simp [hknown]⟩
    cases hknown.symm.trans hother
    exact hscope
  | away hcheck hnew haway =>
    rw [reports_nothing h]
    exact iff_of_true (not_holds_unknown hnew _)
      ⟨by simp [hcheck], by simp [hnew], fun _ _ => .inr (away_full h hcheck haway)⟩
  | admitted hcheck hnew evicted hadmitted =>
    have hholds : Holds (state.repository.admitted evicted call.experiment call.now)
        call.experiment.leaderboardScopeId call := ⟨_, inserted_active evicted hnew, rfl⟩
    have hnames := names_evicted_iff h hcheck hnew hadmitted
    constructor
    · intro hreports
      exact ⟨by simp [hcheck], by simp [hnew], fun _ _ => hnames.mp hreports.evicted⟩
    · intro hreportable
      refine ⟨iff_of_true rfl hholds, hnames.mpr (hreportable.unknown hcheck hnew), ?_⟩
      rintro returned hreturned -
      cases hreturned
      exact admitted_rank h hcheck hnew hadmitted

/-- The first submission to an empty board reports its admission, evicts nothing and has rank one. -/
theorem reports_iff_first : Reportable Sample.runtime ⟨Sample.experiment "a" 5, 0⟩ ∧
    ∃ next result, Sample.runtime.submit (Sample.experiment "a" 5) 0 = (next, .ok result) ∧
      result.admitted = true ∧ result.evictedExperimentResultId = none ∧
      result.entry.map (·.rank) = some 1 ∧
      Reports Sample.runtime next ⟨Sample.experiment "a" 5, 0⟩ result := by
  have hreportable : Reportable Sample.runtime ⟨Sample.experiment "a" 5, 0⟩ :=
    ⟨fun _ ⟨entry, hentry, _⟩ => absurd hentry (by simp [Sample.runtime, active, Table.empty]),
      fun _ _ hknown => (Option.some_ne_none _ hknown.symm).elim, fun _ _ => .inl (by decide)⟩
  obtain ⟨result, hresult⟩ := exists_ok (x := (Sample.runtime.submit (Sample.experiment "a" 5) 0).2)
    (by decide)
  have hvalue : (Sample.runtime.submit (Sample.experiment "a" 5) 0).2.toOption.map (fun result =>
      (result.admitted, result.evictedExperimentResultId, result.entry.map (·.rank)))
      = some (true, none, some 1) := by decide
  rw [hresult] at hvalue
  have hfields := Option.some.inj hvalue
  rw [Prod.mk.injEq, Prod.mk.injEq] at hfields
  obtain ⟨hadmitted, hevicted, hrank⟩ := hfields
  refine ⟨hreportable, _, result, Prod.ext rfl hresult, hadmitted, hevicted, hrank, ?_⟩
  have hreports : Reports Sample.runtime _ ⟨Sample.experiment "a" 5, 0⟩ result ↔ _ :=
    reports_iff (.start _ rfl) (Prod.ext rfl hresult)
  exact hreports.mpr hreportable

/-- The second submission to a board names the first as evicted, and nothing was deactivated. -/
theorem submit_names_unevicted :
    ¬ ∀ (state next : Runtime) (call : Submission) (result : LeaderboardSubmissionResult),
      Reached state → state.submit call.experiment call.now = (next, .ok result) →
        Reports state next call result := by
  intro hreports
  have hreached := Reached.submit (.start Sample.runtime rfl) ⟨Sample.experiment "a" 5, 0⟩
  generalize hstate : (Sample.runtime.submit (Sample.experiment "a" 5) 0).1 = state at hreached
  obtain ⟨result, hresult⟩ := exists_ok (x := (state.submit (Sample.experiment "b" 7) 1).2)
    (by rw [← hstate]; decide)
  have hevicted : (state.submit (Sample.experiment "b" 7) 1).2.toOption.map
      (·.evictedExperimentResultId) = some (some "a") := by
    rw [← hstate]
    decide
  have hactive : (state.submit (Sample.experiment "b" 7) 1).1.repository.entries.rows.all
      (·.active) = true := by
    rw [← hstate]
    decide
  have hreport := hreports state _ ⟨Sample.experiment "b" 7, 1⟩ result hreached
    (Prod.ext rfl hresult)
  rw [hresult] at hevicted
  obtain ⟨entry, hdeactivated, -⟩ := (hreport.evicted "a").mp (Option.some.inj hevicted)
  exact Bool.noConfusion (List.all_eq_true.mp hactive _ hdeactivated.isInactive)

/-- From every state a leaderboard gets into: a ranked experiment is admitted exactly when it has an
active entry afterwards or had an entry in its scope before; an evicted experiment is named exactly
when its entry was deactivated, free places on a board with entries apart; and the rank of an entry
that the call inserts is its rank in `topK`. -/
theorem submit_reports (state next : Runtime) (call : Submission)
    (result : LeaderboardSubmissionResult) (h : Reached state)
    (hok : state.submit call.experiment call.now = (next, .ok result)) :
    ReportsChange state next call result := by
  have hself := not_deactivated_self h.kept.sound
  cases submit_returned hok with
  | unranked hcheck =>
    refine ⟨iff_of_false Bool.false_ne_true (by simp [hcheck]), fun _ id => ?_, by simp⟩
    exact iff_of_false (by simp) fun hdeactivated => hself _ hdeactivated.choose_spec.1
  | known hcheck existing hknown hscope =>
    refine ⟨iff_of_true rfl ⟨hcheck, .inr ⟨existing, hknown, hscope⟩⟩, fun _ id => ?_, ?_⟩
    · exact iff_of_false (by simp) fun hdeactivated => hself _ hdeactivated.choose_spec.1
    · rintro returned hreturned hinserted
      cases hreturned
      exact absurd (Table.mem_rows_of_get? hknown) hinserted
  | elsewhere hcheck existing hknown hscope =>
    refine ⟨iff_of_false Bool.false_ne_true ?_, fun _ id => ?_, by simp⟩
    · rintro ⟨-, hholds | ⟨other, hother, hsame⟩⟩
      · exact hscope (holds_known hknown hholds)
      · cases hknown.symm.trans hother
        exact hscope hsame
    · exact iff_of_false (by simp) fun hdeactivated => hself _ hdeactivated.choose_spec.1
  | away hcheck hnew haway =>
    refine ⟨iff_of_false Bool.false_ne_true ?_, fun _ id => ?_, by simp⟩
    · rintro ⟨-, hholds | ⟨other, hother, -⟩⟩
      · exact not_holds_unknown hnew _ hholds
      · cases hnew.symm.trans hother
    · exact iff_of_false (by simp) fun hdeactivated => hself _ hdeactivated.choose_spec.1
  | admitted hcheck hnew evicted hadmitted =>
    have hholds : Holds (state.repository.admitted evicted call.experiment call.now)
        call.experiment.leaderboardScopeId call := ⟨_, inserted_active evicted hnew, rfl⟩
    refine ⟨iff_of_true rfl ⟨hcheck, .inl hholds⟩, fun hfree id => ?_, ?_⟩
    · refine (names_evicted_iff h hcheck hnew hadmitted).mpr ?_ id
      by_contra hboard
      rw [not_or] at hboard
      exact hfree ⟨hnew, hholds, hboard.1, hboard.2⟩
    · rintro returned hreturned -
      cases hreturned
      exact admitted_rank h hcheck hnew hadmitted

theorem submitAll_reached (runtime : Runtime) (hempty : runtime.repository.entries = .empty)
    (calls : List Submission) : Reached (runtime.submitAll calls) := by
  induction calls using List.reverseRecOn with
  | nil => exact .start runtime hempty
  | append_singleton calls call ih =>
    rw [submitAll_concat]
    exact ih.submit call

/-- An experiment that has been evicted is submitted again, and returned as admitted. -/
theorem submit_readmits :
    ¬ ∀ (state next : Runtime) (call : Submission) (result : LeaderboardSubmissionResult),
      Reached state → state.submit call.experiment call.now = (next, .ok result) →
        Reports state next call result := by
  intro hreports
  have hreached := submitAll_reached Sample.runtime rfl Sample.tied
  generalize hstate : Sample.runtime.submitAll Sample.tied = state at hreached
  have hvalue : (state.submit (Sample.experiment "i" 1) 1).2.toOption.map (·.admitted)
      = some true := by
    rw [← hstate]
    decide +kernel
  have hactive : ((state.submit (Sample.experiment "i" 1) 1).1.repository.active "s").all
      (·.experimentResultId != "i") = true := by
    rw [← hstate]
    decide +kernel
  obtain ⟨result, hresult⟩ := exists_ok (x := (state.submit (Sample.experiment "i" 1) 1).2)
    (by rw [← hstate]; decide +kernel)
  have hreport := hreports state _ ⟨Sample.experiment "i" 1, 1⟩ result hreached
    (Prod.ext rfl hresult)
  rw [hresult] at hvalue
  obtain ⟨entry, hentry, hid⟩ := hreport.admitted.mp (Option.some.inj hvalue)
  have hother := List.all_eq_true.mp hactive entry hentry
  rw [bne_iff_ne] at hother
  exact hother hid

end Cryptox.Leaderboard
