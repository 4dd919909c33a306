import Mathlib.Data.List.Perm.Basic
import Mathlib.Data.List.Infix
import Std.Data.String.ToNat
import Cryptox.Leaderboard.InMemory

/-!
# One submission at a time keeps the batch Top-K

Entries are admitted and evicted one by one. After every sequence of submissions the active entries
of a scope are a Top-K of all distinct experiments submitted to it: whatever is left out scores no
higher than any active entry, and lost its ties to earlier ones.
-/
namespace Cryptox.Leaderboard

open Cryptox.Backtesting
open Cryptox.Library

structure Submission where
  experiment : StoredExperiment
  now : Int
deriving DecidableEq, Repr

def Submission.score (call : Submission) : ℚ := call.experiment.overallScore.toRat

/-- The calls once another is made: an experiment counts where it is submitted first. -/
def recorded (seen : List Submission) (call : Submission) : List Submission :=
  if seen.any fun earlier => earlier.experiment.id == call.experiment.id then seen
  else seen ++ [call]

namespace Runtime

variable (runtime : Runtime)

def submitAll (calls : List Submission) : Runtime :=
  calls.foldl (fun state call => (state.submit call.experiment call.now).1) runtime

/-- The call is one of a rank-eligible search experiment of the scope, and passes its checks. -/
def ranks (scopeId : String) (call : Submission) : Bool :=
  call.experiment.leaderboardScopeId == scopeId && (runtime.check call.experiment).toOption.getD false

/-- The distinct rank-eligible search experiments submitted to a scope, each at its first call. -/
def submitted (scopeId : String) (calls : List Submission) : List Submission :=
  (calls.filter (runtime.ranks scopeId)).foldl recorded []

end Runtime

section Recorded

variable {runtime : Runtime} {scopeId : String} {calls seen : List Submission} {call : Submission}

theorem submitAll_concat : runtime.submitAll (calls ++ [call])
    = ((runtime.submitAll calls).submit call.experiment call.now).1 := by
  simp [Runtime.submitAll]

theorem submitted_concat : runtime.submitted scopeId (calls ++ [call])
    = if runtime.ranks scopeId call then recorded (runtime.submitted scopeId calls) call
      else runtime.submitted scopeId calls := by
  rw [Runtime.submitted, List.filter_append, List.foldl_append]
  by_cases h : runtime.ranks scopeId call
  · simp [h, Runtime.submitted]
  · simp [h, Runtime.submitted]

theorem any_id_iff : (seen.any fun earlier => earlier.experiment.id == call.experiment.id) = true ↔
    call.experiment.id ∈ seen.map (·.experiment.id) := by
  simp

theorem recorded_of_mem (h : call.experiment.id ∈ seen.map (·.experiment.id)) :
    recorded seen call = seen := by
  rw [recorded, if_pos (any_id_iff.mpr h)]

theorem recorded_of_not_mem (h : call.experiment.id ∉ seen.map (·.experiment.id)) :
    recorded seen call = seen ++ [call] := by
  rw [recorded, if_neg (any_id_iff.not.mpr h)]

theorem recorded_nodup (h : (seen.map (·.experiment.id)).Nodup) :
    ((recorded seen call).map (·.experiment.id)).Nodup := by
  by_cases hmem : call.experiment.id ∈ seen.map (·.experiment.id)
  · rwa [recorded_of_mem hmem]
  · rw [recorded_of_not_mem hmem, List.map_append, List.nodup_append]
    refine ⟨h, by simp, fun id hid id' hid' heq => hmem ?_⟩
    rw [List.map_singleton, List.mem_singleton] at hid'
    exact hid' ▸ heq ▸ hid

theorem submitted_nodup (runtime : Runtime) (scopeId : String) (calls : List Submission) :
    ((runtime.submitted scopeId calls).map (·.experiment.id)).Nodup := by
  induction calls using List.reverseRecOn with
  | nil => exact List.nodup_nil
  | append_singleton calls call ih =>
    rw [submitted_concat]
    split
    · exact recorded_nodup ih
    · exact ih

theorem mem_recorded (h : call ∈ recorded seen other) : call ∈ seen ∨ call = other := by
  unfold recorded at h
  split at h
  · exact .inl h
  · simpa using h

theorem mem_submitted {calls : List Submission} (h : call ∈ runtime.submitted scopeId calls) :
    call ∈ calls ∧ runtime.ranks scopeId call = true := by
  induction calls using List.reverseRecOn with
  | nil => cases h
  | append_singleton calls other ih =>
    rw [submitted_concat] at h
    split at h
    · rename_i hranks
      rcases mem_recorded h with hold | rfl
      · exact ⟨List.mem_append_left _ (ih hold).1, (ih hold).2⟩
      · exact ⟨by simp, hranks⟩
    · exact ⟨List.mem_append_left _ (ih h).1, (ih h).2⟩

/-- Two calls that are one experiment's are the same one. -/
theorem eq_of_id (hnodup : (seen.map (·.experiment.id)).Nodup) {other : Submission} (hc : call ∈ seen)
    (ho : other ∈ seen) (h : call.experiment.id = other.experiment.id) : call = other :=
  List.inj_on_of_nodup_map hnodup hc ho h

end Recorded

namespace EntryRepository

variable {repository : EntryRepository} {scopeId : String}

theorem entryId_injective : Function.Injective entryId := by
  intro m n h
  exact Nat.repr_injective (String.append_right_inj _ |>.mp h)

/-- Ids are counted up, and scores are finite. -/
structure Sound (repository : EntryRepository) : Prop where
  numbered : ∀ entry ∈ repository.entries.rows, ∃ n ≤ repository.sequence, entry.id = entryId n
  distinct : (repository.entries.rows.map (·.id)).Nodup
  finite : Finite repository.entries.rows

theorem active_subset {entry : LeaderboardEntry} (h : entry ∈ repository.active scopeId) :
    entry ∈ repository.entries.rows ∧ entry.leaderboardScopeId = scopeId := by
  obtain ⟨hmem, hactive⟩ := List.mem_filter.mp h
  simp only [Bool.and_eq_true, beq_iff_eq] at hactive
  exact ⟨hmem, hactive.2⟩

theorem Sound.finite_active (h : repository.Sound) (scopeId : String) :
    Finite (repository.active scopeId) :=
  fun entry hentry => h.finite entry (active_subset hentry).1

theorem Sound.active_ids (h : repository.Sound) (scopeId : String) :
    ((repository.active scopeId).map (·.id)).Nodup :=
  h.distinct.sublist (List.filter_sublist.map _)

/-- A board that is not over-full is read whole. -/
theorem rankEntries_getActiveTopK (h : repository.Sound)
    (hfew : (repository.active scopeId).length ≤ topK) :
    rankEntries (repository.getActiveTopK scopeId topK) = rankEntries (repository.active scopeId) := by
  have htake : repository.getActiveTopK scopeId topK = rankEntries (repository.active scopeId) := by
    apply List.take_of_length_le
    rwa [(rankEntries_perm _).length_eq]
  rw [htake]
  refine rankEntries_of_pairwise ?_ (rankEntries_pairwise (h.finite_active scopeId))
  exact fun entry hentry => h.finite_active scopeId entry ((rankEntries_perm _).mem_iff.mp hentry)

theorem active_deactivate (entryId : String) : (repository.deactivate entryId).active scopeId
    = (repository.active scopeId).filter fun entry => entry.id ≠ entryId := by
  rw [active, active, List.filter_filter, deactivate, Table.modify, List.filter_map]
  have hfilter : ∀ rows : List LeaderboardEntry,
      (rows.filter fun entry => (deactivated entryId entry).active
        && (deactivated entryId entry).leaderboardScopeId == scopeId).map (deactivated entryId)
      = rows.filter fun entry => decide (entry.id ≠ entryId)
        && (entry.active && entry.leaderboardScopeId == scopeId) := by
    intro rows
    induction rows with
    | nil => rfl
    | cons entry rows ih =>
      by_cases hid : entry.id = entryId
      · simp only [List.filter_cons, deactivated, hid, ↓reduceIte, Bool.false_and, ne_eq,
          not_true_eq_false, decide_false, Bool.false_eq_true] at ih ⊢
        exact ih
      · by_cases hactive : entry.active && entry.leaderboardScopeId == scopeId
        · simp only [List.filter_cons, deactivated, hid, ↓reduceIte, hactive, ne_eq,
            not_false_eq_true, decide_true, Bool.true_and, List.map_cons] at ih ⊢
          rw [ih]
        · simp only [List.filter_cons, deactivated, hid, ↓reduceIte, hactive, ne_eq,
            not_false_eq_true, decide_true, Bool.true_and, Bool.false_eq_true] at ih ⊢
          exact ih
  exact hfilter repository.entries.rows

theorem rows_insert {experiment : StoredExperiment} {now : Int}
    (hnew : repository.getByExperimentResultId experiment.id = none) :
    (repository.insert experiment now).1.entries.rows = repository.entries.rows
      ++ [insertedEntry experiment (entryId (repository.sequence + 1)) now] := by
  have hkey : repository.entries.get? (LeaderboardEntry.experimentResultId
      (insertedEntry experiment (entryId (repository.sequence + 1)) now)) = none := hnew
  exact Table.rows_put_of_none hkey

theorem active_insert {experiment : StoredExperiment} {now : Int}
    (hnew : repository.getByExperimentResultId experiment.id = none) :
    (repository.insert experiment now).1.active scopeId = repository.active scopeId
      ++ if experiment.leaderboardScopeId = scopeId then
          [insertedEntry experiment (entryId (repository.sequence + 1)) now] else [] := by
  rw [active, rows_insert hnew, List.filter_append]
  congr 1
  by_cases hscope : experiment.leaderboardScopeId = scopeId <;> simp [insertedEntry, hscope]

@[simp] theorem deactivated_id (id : String) (entry : LeaderboardEntry) :
    (deactivated id entry).id = entry.id := by
  rw [deactivated]
  split <;> rfl

/-- What is left of an entry that is deactivated: all but the flag. -/
theorem deactivated_fields (id : String) (entry : LeaderboardEntry) :
    (deactivated id entry).experimentResultId = entry.experimentResultId ∧
      (deactivated id entry).leaderboardScopeId = entry.leaderboardScopeId ∧
      (deactivated id entry).score = entry.score ∧ (deactivated id entry).addedAt = entry.addedAt := by
  rw [deactivated]
  split <;> exact ⟨rfl, rfl, rfl, rfl⟩

theorem Sound.deactivate (h : repository.Sound) (id : String) : (repository.deactivate id).Sound where
  numbered entry hentry := by
    obtain ⟨old, hold, rfl⟩ := List.mem_map.mp hentry
    rw [deactivated_id]
    exact h.numbered old hold
  distinct := by
    have hids : ((repository.deactivate id).entries.rows.map (·.id))
        = repository.entries.rows.map (·.id) := by
      simp [EntryRepository.deactivate, Table.modify, Function.comp_def]
    rw [hids]
    exact h.distinct
  finite entry hentry := by
    obtain ⟨old, hold, rfl⟩ := List.mem_map.mp hentry
    rw [(deactivated_fields id old).2.2.1]
    exact h.finite old hold

theorem Sound.insert (h : repository.Sound) {experiment : StoredExperiment} {now : Int}
    (hnew : repository.getByExperimentResultId experiment.id = none)
    (hscore : experiment.overallScore.isFinite = true) :
    (repository.insert experiment now).1.Sound where
  numbered entry hentry := by
    rw [rows_insert hnew] at hentry
    rcases List.mem_append.mp hentry with hold | hcreated
    · obtain ⟨n, hn, hid⟩ := h.numbered entry hold
      exact ⟨n, Nat.le_succ_of_le hn, hid⟩
    · rw [List.mem_singleton.mp hcreated]
      exact ⟨_, le_rfl, rfl⟩
  distinct := by
    rw [rows_insert hnew, List.map_append, List.nodup_append]
    refine ⟨h.distinct, by simp, ?_⟩
    rintro id hid id' hid' rfl
    obtain ⟨entry, hentry, rfl⟩ := List.mem_map.mp hid
    obtain ⟨n, hn, hnumber⟩ := h.numbered entry hentry
    rw [List.map_singleton, List.mem_singleton, hnumber] at hid'
    have := entryId_injective hid'
    omega
  finite entry hentry := by
    rw [rows_insert hnew] at hentry
    rcases List.mem_append.mp hentry with hold | hcreated
    · exact h.finite entry hold
    · rw [List.mem_singleton.mp hcreated]
      exact hscore

theorem getBy_deactivate (id experimentResultId : String) :
    (repository.deactivate id).getByExperimentResultId experimentResultId
      = (repository.getByExperimentResultId experimentResultId).map (deactivated id) :=
  Table.get?_modify _ _ (fun entry => (deactivated_fields id entry).1) _

theorem getBy_insert {experiment : StoredExperiment} {now : Int} {experimentResultId : String}
    (hne : experimentResultId ≠ experiment.id) :
    (repository.insert experiment now).1.getByExperimentResultId experimentResultId
      = repository.getByExperimentResultId experimentResultId :=
  Table.get?_put_of_ne _ hne

/-- The repository once an experiment is admitted and what it evicts is deactivated. -/
def admitted (repository : EntryRepository) (evicted : Option String) (experiment : StoredExperiment)
    (now : Int) : EntryRepository :=
  ((evicted.elim repository repository.deactivate).insert experiment now).1

theorem getBy_admitted (evicted : Option String) {experiment : StoredExperiment} (now : Int)
    {experimentResultId : String} (hne : experimentResultId ≠ experiment.id) :
    ∃ f : LeaderboardEntry → LeaderboardEntry, (∀ entry, (f entry).id = entry.id) ∧
      (repository.admitted evicted experiment now).getByExperimentResultId experimentResultId
        = (repository.getByExperimentResultId experimentResultId).map f := by
  rw [admitted, getBy_insert hne]
  cases evicted with
  | none => exact ⟨id, fun _ => rfl, by simp⟩
  | some lowest => exact ⟨deactivated lowest, deactivated_id lowest, getBy_deactivate lowest _⟩

theorem rows_admitted {evicted : Option String} {experiment : StoredExperiment} {now : Int}
    (hnew : repository.getByExperimentResultId experiment.id = none) {entry : LeaderboardEntry}
    (h : entry ∈ (repository.admitted evicted experiment now).entries.rows) :
    (∃ old ∈ repository.entries.rows, entry.experimentResultId = old.experimentResultId ∧
      entry.leaderboardScopeId = old.leaderboardScopeId ∧ entry.score = old.score ∧
      entry.addedAt = old.addedAt) ∨
    ∃ id, entry = insertedEntry experiment id now := by
  cases evicted with
  | none =>
    rw [admitted, Option.elim_none, rows_insert hnew] at h
    rcases List.mem_append.mp h with hold | hcreated
    · exact .inl ⟨entry, hold, rfl, rfl, rfl, rfl⟩
    · exact .inr ⟨_, List.mem_singleton.mp hcreated⟩
  | some lowest =>
    have hstill : (repository.deactivate lowest).getByExperimentResultId experiment.id = none := by
      rw [getBy_deactivate, hnew]
      rfl
    rw [admitted, Option.elim_some, rows_insert hstill] at h
    rcases List.mem_append.mp h with hold | hcreated
    · obtain ⟨old, hmem, rfl⟩ := List.mem_map.mp hold
      exact .inl ⟨old, hmem, deactivated_fields lowest old⟩
    · exact .inr ⟨_, List.mem_singleton.mp hcreated⟩

theorem active_admitted (scopeId : String) (evicted : Option String)
    {experiment : StoredExperiment} (now : Int)
    (hnew : repository.getByExperimentResultId experiment.id = none) :
    ∃ created : LeaderboardEntry, created.experimentResultId = experiment.id ∧
      scoreOf created = experiment.overallScore.toRat ∧
      (repository.admitted evicted experiment now).active scopeId =
        ((repository.active scopeId).filter fun entry => some entry.id ≠ evicted)
          ++ if experiment.leaderboardScopeId = scopeId then [created] else [] := by
  cases evicted with
  | none =>
    refine ⟨insertedEntry experiment (entryId (repository.sequence + 1)) now, rfl, rfl, ?_⟩
    simpa [admitted] using active_insert hnew
  | some lowest =>
    have hstill : (repository.deactivate lowest).getByExperimentResultId experiment.id = none := by
      rw [getBy_deactivate, hnew]
      rfl
    refine ⟨insertedEntry experiment (entryId (repository.sequence + 1)) now, rfl, rfl,
      (active_insert hstill).trans ?_⟩
    rw [active_deactivate, show (repository.deactivate lowest).sequence = repository.sequence from rfl]
    simp

theorem Sound.admitted (h : repository.Sound) (evicted : Option String)
    {experiment : StoredExperiment} {now : Int}
    (hnew : repository.getByExperimentResultId experiment.id = none)
    (hscore : experiment.overallScore.isFinite = true) :
    (repository.admitted evicted experiment now).Sound := by
  cases evicted with
  | none => exact h.insert hnew hscore
  | some lowest =>
    refine (h.deactivate lowest).insert ?_ hscore
    rw [getBy_deactivate, hnew]
    rfl

/-- Exactly one entry goes when an active one is deactivated. -/
theorem Sound.length_filter_ne (h : repository.Sound) {lowest : LeaderboardEntry}
    (hmem : lowest ∈ repository.active scopeId) :
    ((repository.active scopeId).filter fun entry => some entry.id ≠ some lowest.id).length + 1
      = (repository.active scopeId).length := by
  have hone : (repository.active scopeId).countP (fun entry => entry.id = lowest.id) = 1 := by
    have hcount := List.count_eq_one_of_mem (h.active_ids scopeId) (List.mem_map_of_mem hmem)
    rw [List.count, List.countP_map] at hcount
    rw [← hcount]
    apply List.countP_congr
    intro entry _
    simp
  rw [← List.countP_eq_length_filter]
  have hsplit := List.length_eq_countP_add_countP (fun entry => decide (entry.id = lowest.id))
    (l := repository.active scopeId)
  have hrest : (repository.active scopeId).countP (fun entry => some entry.id ≠ some lowest.id)
      = (repository.active scopeId).countP fun entry => ¬ decide (entry.id = lowest.id) = true := by
    apply List.countP_congr
    intro entry _
    simp
  omega

end EntryRepository

open EntryRepository

variable {repository : EntryRepository} {scopeId : String} {seen : List Submission}

/-- The call has an active entry. -/
def Holds (repository : EntryRepository) (scopeId : String) (call : Submission) : Prop :=
  ∃ entry ∈ repository.active scopeId, entry.experimentResultId = call.experiment.id

/-- The entry beats a call of the same score: it was added at an earlier instant, or at the same one
with the smaller id, or before the call was turned away. -/
def Earlier (repository : EntryRepository) (seen : List Submission) (entry : LeaderboardEntry)
    (call : Submission) : Prop :=
  entry.addedAt < call.now ∨ entry.addedAt = call.now ∧
    (repository.getByExperimentResultId call.experiment.id).elim
      (∃ first, first.experiment.id = entry.experimentResultId ∧ [first, call].Sublist seen)
      fun own => entry.id ≤ own.id

/-- The call is left out of a full board that it cannot get on. -/
def LeftOut (repository : EntryRepository) (scopeId : String) (seen : List Submission)
    (call : Submission) : Prop :=
  (repository.active scopeId).length = topK ∧ ∀ entry ∈ repository.active scopeId,
    call.score ≤ scoreOf entry ∧ (scoreOf entry = call.score → Earlier repository seen entry call)

/-- The entry is the one that a call makes. -/
def MadeBy (entry : LeaderboardEntry) (call : Submission) : Prop :=
  call.experiment.id = entry.experimentResultId ∧ call.experiment.overallScore = entry.score ∧
    call.now = entry.addedAt

structure Standing (repository : EntryRepository) (scopeId : String) (seen : List Submission) :
    Prop where
  counted : ∀ entry ∈ repository.entries.rows, entry.leaderboardScopeId = scopeId →
    ∃ call ∈ seen, MadeBy entry call
  few : (repository.active scopeId).length ≤ topK
  placed : ∀ call ∈ seen, Holds repository scopeId call ∨ LeftOut repository scopeId seen call

theorem Earlier.append {entry : LeaderboardEntry} {call : Submission} (later : List Submission)
    (h : Earlier repository seen entry call) : Earlier repository (seen ++ later) entry call := by
  rcases h with hlt | ⟨heq, h⟩
  · exact .inl hlt
  · refine .inr ⟨heq, ?_⟩
    cases hown : repository.getByExperimentResultId call.experiment.id with
    | none =>
      rw [hown] at h
      obtain ⟨first, hfirst, hsub⟩ := h
      exact ⟨first, hfirst, hsub.trans (List.sublist_append_left seen later)⟩
    | some own =>
      rw [hown] at h
      exact h

theorem Earlier.admitted {entry : LeaderboardEntry} {call : Submission} {evicted : Option String}
    {experiment : StoredExperiment} {now : Int} (hne : call.experiment.id ≠ experiment.id)
    (h : Earlier repository seen entry call) :
    Earlier (repository.admitted evicted experiment now) seen entry call := by
  obtain ⟨f, hid, hget⟩ := getBy_admitted evicted now hne
  rcases h with hlt | ⟨heq, h⟩
  · exact .inl hlt
  · refine .inr ⟨heq, ?_⟩
    rw [hget]
    cases hown : repository.getByExperimentResultId call.experiment.id with
    | none =>
      rw [hown] at h
      exact h
    | some own =>
      rw [hown] at h
      simpa [hid] using h

theorem Standing.counted_admitted (h : Standing repository scopeId seen) {evicted : Option String}
    {experiment : StoredExperiment} {now : Int}
    (hnew : repository.getByExperimentResultId experiment.id = none) {entry : LeaderboardEntry}
    (hentry : entry ∈ (repository.admitted evicted experiment now).entries.rows)
    (hscope : entry.leaderboardScopeId = scopeId) :
    (∃ call ∈ seen, MadeBy entry call) ∨
      MadeBy entry ⟨experiment, now⟩ ∧ experiment.leaderboardScopeId = scopeId := by
  rcases rows_admitted hnew hentry with ⟨old, hold, hid, hplace, hscore, hadded⟩ | ⟨id, rfl⟩
  · obtain ⟨call, hcall, hmade⟩ := h.counted old hold (hplace ▸ hscope)
    exact .inl ⟨call, hcall, hid ▸ hmade.1, hscore ▸ hmade.2.1, hadded ▸ hmade.2.2⟩
  · exact .inr ⟨⟨rfl, rfl, rfl⟩, hscope⟩

/-- Another scope's board does not move. -/
theorem Standing.elsewhere (h : Standing repository scopeId seen) (hsound : repository.Sound)
    {experiment : StoredExperiment} {now : Int} {evicted : Option String}
    (hscope : experiment.leaderboardScopeId ≠ scopeId)
    (hnew : repository.getByExperimentResultId experiment.id = none)
    (hids : ∀ call ∈ seen, call.experiment.id ≠ experiment.id)
    (hevicted : ∀ id, evicted = some id →
      ∃ lowest ∈ repository.entries.rows, lowest.id = id ∧ lowest.leaderboardScopeId ≠ scopeId) :
    (repository.admitted evicted experiment now).active scopeId = repository.active scopeId ∧
      Standing (repository.admitted evicted experiment now) scopeId seen := by
  have hactive : (repository.admitted evicted experiment now).active scopeId
      = repository.active scopeId := by
    obtain ⟨created, -, -, heq⟩ := active_admitted scopeId evicted now hnew
    rw [heq, if_neg hscope, List.append_nil, List.filter_eq_self]
    intro entry hentry
    obtain ⟨hrow, hplace⟩ := active_subset hentry
    simp only [ne_eq, decide_not, Bool.not_eq_true', decide_eq_false_iff_not]
    intro hid
    obtain ⟨lowest, hlowest, hsame, hother⟩ := hevicted entry.id hid.symm
    have : lowest = entry := List.inj_on_of_nodup_map hsound.distinct hlowest hrow hsame
    exact hother (this ▸ hplace)
  refine ⟨hactive, ?_, ?_, ?_⟩
  · intro entry hentry hplace
    rcases h.counted_admitted hnew hentry hplace with hmade | ⟨-, hother⟩
    · exact hmade
    · exact absurd hother hscope
  · rw [hactive]
    exact h.few
  · intro call hcall
    rcases h.placed call hcall with hholds | ⟨hfull, hbehind⟩
    · left
      rw [Holds, hactive]
      exact hholds
    · right
      rw [LeftOut, hactive]
      exact ⟨hfull, fun entry hentry => ⟨(hbehind entry hentry).1,
        fun heq => ((hbehind entry hentry).2 heq).admitted (hids call hcall)⟩⟩

/-- A call that is turned away stands behind the whole board. -/
theorem Standing.turnedAway (h : Standing repository scopeId seen) (hsound : repository.Sound)
    {call : Submission} (hclock : ∀ earlier ∈ seen, earlier.now ≤ call.now)
    (hnew : repository.getByExperimentResultId call.experiment.id = none)
    (hscore : call.experiment.overallScore.isFinite = true)
    (haway : admission (rankEntries (repository.active scopeId)) call.experiment = none) :
    Standing repository scopeId (seen ++ [call]) where
  counted entry hentry hscope := by
    obtain ⟨earlier, hearlier, hmade⟩ := h.counted entry hentry hscope
    exact ⟨earlier, List.mem_append_left _ hearlier, hmade⟩
  few := h.few
  placed other hother := by
    have hperm := rankEntries_perm (repository.active scopeId)
    have hfinite : Finite (rankEntries (repository.active scopeId)) :=
      fun entry hentry => hsound.finite_active scopeId entry (hperm.mem_iff.mp hentry)
    obtain ⟨hfull, hle⟩ := admission_eq_none hfinite hscore
      (rankEntries_pairwise (hsound.finite_active scopeId)) haway
    rcases List.mem_append.mp hother with hold | hcall
    · rcases h.placed other hold with hholds | ⟨hlength, hbehind⟩
      · exact .inl hholds
      · exact .inr ⟨hlength, fun entry hentry =>
          ⟨(hbehind entry hentry).1, fun heq => ((hbehind entry hentry).2 heq).append [call]⟩⟩
    · cases List.mem_singleton.mp hcall
      refine .inr ⟨by rw [← hperm.length_eq, hfull], fun entry hentry =>
        ⟨hle entry (hperm.mem_iff.mpr hentry), fun _ => ?_⟩⟩
      obtain ⟨hrow, hscope⟩ := active_subset hentry
      obtain ⟨first, hfirst, hid, -, hnow⟩ := h.counted entry hrow hscope
      have hle := hclock first hfirst
      rw [hnow] at hle
      rcases hle.lt_or_eq with hlt | heq
      · exact .inl hlt
      · refine .inr ⟨heq, ?_⟩
        rw [hnew]
        exact ⟨first, hid, (List.singleton_sublist.mpr hfirst).append (List.Sublist.refl [call])⟩

/-- An admitted call gets on the board; the entry it evicts is left out behind the rest. -/
theorem Standing.after_admission (h : Standing repository scopeId seen) (hsound : repository.Sound)
    {call : Submission} {evicted : Option String}
    (hscope : call.experiment.leaderboardScopeId = scopeId)
    (hnodup : (seen.map (·.experiment.id)).Nodup)
    (hnew : repository.getByExperimentResultId call.experiment.id = none)
    (hunseen : call.experiment.id ∉ seen.map (·.experiment.id))
    (hscore : call.experiment.overallScore.isFinite = true)
    (hadmitted : admission (rankEntries (repository.active scopeId)) call.experiment = some evicted) :
    Standing (repository.admitted evicted call.experiment call.now) scopeId (seen ++ [call]) := by
  have hperm := rankEntries_perm (repository.active scopeId)
  have hpairwise := rankEntries_pairwise (hsound.finite_active scopeId)
  have hfinite : Finite (rankEntries (repository.active scopeId)) :=
    fun entry hentry => hsound.finite_active scopeId entry (hperm.mem_iff.mp hentry)
  have hids : ∀ other ∈ seen, other.experiment.id ≠ call.experiment.id :=
    fun other hother heq => hunseen (heq ▸ List.mem_map_of_mem hother)
  obtain ⟨created, hcreated, hvalue, hactive⟩ := active_admitted scopeId evicted call.now
    hnew
  rw [if_pos hscope] at hactive
  have hcall : Holds (repository.admitted evicted call.experiment call.now) scopeId call :=
    ⟨created, by rw [hactive]; simp, hcreated⟩
  have hcounted : ∀ entry ∈ (repository.admitted evicted call.experiment call.now).entries.rows,
      entry.leaderboardScopeId = scopeId → ∃ maker ∈ seen ++ [call], MadeBy entry maker := by
    intro entry hentry hplace
    rcases h.counted_admitted hnew hentry hplace with ⟨maker, hmaker, hmade⟩ | ⟨hmade, -⟩
    · exact ⟨maker, List.mem_append_left _ hmaker, hmade⟩
    · exact ⟨call, by simp, hmade⟩
  rcases admission_eq_some hfinite hscore hadmitted with
    ⟨rfl, hfree⟩ | ⟨lowest, rfl, hlast, hfull, hlow⟩
  · rw [hperm.length_eq] at hfree
    have hfew := h.few
    simp only [ne_eq, reduceCtorEq, not_false_eq_true, decide_true, List.filter_true] at hactive
    refine ⟨hcounted, ?_, ?_⟩
    · rw [hactive, List.length_append, List.length_singleton]
      omega
    · intro other hother
      rcases List.mem_append.mp hother with hold | hcaller
      · rcases h.placed other hold with ⟨entry, hentry, hid⟩ | ⟨hlength, -⟩
        · exact .inl ⟨entry, by rw [hactive]; exact List.mem_append_left _ hentry, hid⟩
        · exact absurd hlength hfree
      · exact .inl (List.mem_singleton.mp hcaller ▸ hcall)
  · rw [hperm.length_eq] at hfull
    have hlowest : lowest ∈ repository.active scopeId := hperm.mem_iff.mp (List.mem_of_getLast? hlast)
    have hlength : ((repository.admitted (some lowest.id) call.experiment call.now).active
        scopeId).length = topK := by
      have := hsound.length_filter_ne hlowest
      rw [hactive, List.length_append, List.length_singleton, this, hfull]
    have hahead : ∀ entry ∈ repository.active scopeId, RanksAhead entry lowest :=
      fun entry hentry => ranksAhead_getLast hpairwise hlast (hperm.mem_iff.mpr hentry)
    have hbehindAll : ∀ other ∈ seen, (∀ entry ∈ repository.active scopeId, entry.id ≠ lowest.id →
        other.score ≤ scoreOf entry ∧ (scoreOf entry = other.score →
          Earlier repository seen entry other)) → other.score ≤ scoreOf lowest →
        LeftOut (repository.admitted (some lowest.id) call.experiment call.now) scopeId
          (seen ++ [call]) other := by
      intro other hother hbehind hle
      refine ⟨hlength, fun entry hentry => ?_⟩
      rw [hactive] at hentry
      rcases List.mem_append.mp hentry with hkept | hnewest
      · obtain ⟨hmem, hid⟩ := List.mem_filter.mp hkept
        have hne : entry.id ≠ lowest.id := by simpa using hid
        refine ⟨(hbehind entry hmem hne).1, fun heq => ?_⟩
        exact (((hbehind entry hmem hne).2 heq).admitted (hids other hother)).append [call]
      · rw [List.mem_singleton.mp hnewest, hvalue]
        exact ⟨(hle.trans_lt hlow).le, fun heq => absurd heq (hle.trans_lt hlow).ne'⟩
    refine ⟨hcounted, hlength.le, ?_⟩
    intro other hother
    rcases List.mem_append.mp hother with hold | hcaller
    · rcases h.placed other hold with ⟨entry, hentry, hid⟩ | ⟨-, hbehind⟩
      · by_cases hlast : entry.id = lowest.id
        · right
          obtain rfl : entry = lowest :=
            List.inj_on_of_nodup_map (hsound.active_ids scopeId) hentry hlowest hlast
          obtain ⟨hrow, hplace⟩ := active_subset hentry
          obtain ⟨maker, hmaker, hmadeId, hmadeScore, hmadeNow⟩ := h.counted entry hrow hplace
          obtain rfl : maker = other := eq_of_id hnodup hmaker hold (hmadeId.trans hid)
          have hown : repository.getByExperimentResultId maker.experiment.id = some entry := by
            rw [hmadeId]
            exact Table.get?_of_mem_rows hrow
          have hscoreEq : maker.score = scoreOf entry := congrArg JsNumber.toRat hmadeScore
          refine hbehindAll maker hold (fun better hbetter _ => ?_) hscoreEq.le
          rw [hscoreEq]
          rcases rankKey_le_iff.mp (hahead better hbetter) with hlt | ⟨heq, hlt | ⟨hadded, hidle⟩⟩
          · exact ⟨hlt.le, fun heq => absurd heq hlt.ne'⟩
          · exact ⟨heq.le, fun _ => .inl (hmadeNow ▸ hlt)⟩
          · refine ⟨heq.le, fun _ => .inr ⟨hmadeNow ▸ hadded, ?_⟩⟩
            rw [hown]
            exact hidle
        · left
          refine ⟨entry, ?_, hid⟩
          rw [hactive]
          refine List.mem_append_left _ (List.mem_filter.mpr ⟨hentry, ?_⟩)
          simpa using hlast
      · right
        exact hbehindAll other hold (fun entry hentry _ => hbehind entry hentry)
          (hbehind lowest hlowest).1
    · exact .inl (List.mem_singleton.mp hcaller ▸ hcall)

section Runs

variable {runtime state : Runtime} {calls : List Submission} {call : Submission}

theorem check_finite {experiment : StoredExperiment} (h : runtime.check experiment = .ok true) :
    experiment.overallScore.isFinite = true := by
  simp only [Runtime.check, bind_eq_ok] at h
  obtain ⟨ranked, hranked, h⟩ := h
  cases ranked with
  | false => cases h
  | true =>
    unfold submitCheck at hranked
    split at hranked
    · cases hranked
    · split at hranked
      · cases hranked
      · rename_i hfinite
        simpa using hfinite

theorem ranks_iff : runtime.ranks scopeId call = true ↔
    call.experiment.leaderboardScopeId = scopeId ∧ runtime.check call.experiment = .ok true := by
  rw [Runtime.ranks, Bool.and_eq_true, beq_iff_eq]
  cases h : runtime.check call.experiment with
  | error error => simp [Except.toOption]
  | ok ranked => simp [Except.toOption]

/-- What one call does to the entries. -/
inductive Submits (state : Runtime) (call : Submission) : Runtime → Prop where
  | unranked (h : state.check call.experiment ≠ .ok true) : Submits state call state
  | known (h : state.check call.experiment = .ok true) (existing : LeaderboardEntry)
      (hknown : state.repository.getByExperimentResultId call.experiment.id = some existing) :
      Submits state call state
  | away (h : state.check call.experiment = .ok true)
      (hnew : state.repository.getByExperimentResultId call.experiment.id = none)
      (haway : admission (rankEntries (state.repository.getActiveTopK
        call.experiment.leaderboardScopeId topK)) call.experiment = none) : Submits state call state
  | admitted (h : state.check call.experiment = .ok true)
      (hnew : state.repository.getByExperimentResultId call.experiment.id = none)
      (evicted : Option String)
      (hadmitted : admission (rankEntries (state.repository.getActiveTopK
        call.experiment.leaderboardScopeId topK)) call.experiment = some evicted) :
      Submits state call { state with
        repository := state.repository.admitted evicted call.experiment call.now }

theorem submit_submits (state : Runtime) (call : Submission) :
    Submits state call (state.submit call.experiment call.now).1 := by
  unfold Runtime.submit
  split
  · rename_i hcheck
    exact .unranked (by rw [hcheck]; simp)
  · rename_i hcheck
    exact .unranked (by rw [hcheck]; simp)
  · rename_i hcheck
    split
    · rename_i existing hknown
      split <;> exact .known hcheck existing hknown
    · rename_i hnew
      dsimp only
      split
      · rename_i haway
        exact .away hcheck hnew haway
      · rename_i evicted hadmitted
        exact .admitted hcheck hnew evicted hadmitted

/-- Every scope's board after some calls. -/
structure Boards (runtime : Runtime) (calls : List Submission) (state : Runtime) : Prop where
  scopes : state.scopes = runtime.scopes
  formulas : state.formulas = runtime.formulas
  sound : state.repository.Sound
  standing : ∀ scopeId, Standing state.repository scopeId (runtime.submitted scopeId calls)

/-- The submissions carry a clock that does not go back, and one experiment under each id. -/
structure WellTimed (calls : List Submission) : Prop where
  clock : calls.Pairwise fun earlier later => earlier.now ≤ later.now
  same : ∀ call ∈ calls, ∀ other ∈ calls, call.experiment.id = other.experiment.id →
    call.experiment = other.experiment

/-- The hypotheses about one more call, scope by scope. -/
theorem WellTimed.same_experiment (htimed : WellTimed (calls ++ [call])) {other : Submission}
    (hother : other ∈ runtime.submitted scopeId calls)
    (hid : other.experiment.id = call.experiment.id) : other.experiment = call.experiment :=
  htimed.same other (List.mem_append_left _ (mem_submitted hother).1) call (by simp) hid

theorem submitted_scope {other : Submission} (hother : other ∈ runtime.submitted scopeId calls) :
    other.experiment.leaderboardScopeId = scopeId :=
  (ranks_iff.mp (mem_submitted hother).2).1

section Admitted

variable {evicted : Option String} (h : Boards runtime calls state)
  (htimed : WellTimed (calls ++ [call])) (hcheck : state.check call.experiment = .ok true)
  (hnew : state.repository.getByExperimentResultId call.experiment.id = none)
  (hadmitted : admission (rankEntries (state.repository.active
    call.experiment.leaderboardScopeId)) call.experiment = some evicted)

include h htimed hcheck hnew hadmitted

/-- What is admitted was not submitted before. -/
theorem Boards.admitted_unseen (scopeId : String) :
    call.experiment.id ∉ (runtime.submitted scopeId calls).map (·.experiment.id) := by
  intro hseen
  obtain ⟨other, hother, hid⟩ := List.mem_map.mp hseen
  have hexperiment := htimed.same_experiment hother hid
  obtain rfl : call.experiment.leaderboardScopeId = scopeId := by
    rw [← hexperiment, submitted_scope hother]
  have hperm := rankEntries_perm (state.repository.active call.experiment.leaderboardScopeId)
  rcases (h.standing _).placed other hother with ⟨entry, hentry, hkey⟩ | ⟨hfull, hbehind⟩
  · have hrow := Table.get?_of_mem_rows (active_subset hentry).1
    rw [hkey, hid, show state.repository.entries.get? call.experiment.id = none from hnew] at hrow
    cases hrow
  · have haway : admission (rankEntries (state.repository.active
        call.experiment.leaderboardScopeId)) call.experiment = none := by
      apply admission_of_le _ (check_finite hcheck)
      · rw [hperm.length_eq, hfull]
      · intro entry hentry
        have hle := (hbehind entry (hperm.mem_iff.mp hentry)).1
        rwa [Submission.score, hexperiment] at hle
      · exact fun entry hentry => h.sound.finite_active _ entry (hperm.mem_iff.mp hentry)
    rw [haway] at hadmitted
    cases hadmitted

/-- An admission elsewhere leaves a scope's board alone. -/
theorem Boards.admitted_elsewhere (hscope : call.experiment.leaderboardScopeId ≠ scopeId) :
    (state.repository.admitted evicted call.experiment call.now).active scopeId
        = state.repository.active scopeId ∧
      Standing (state.repository.admitted evicted call.experiment call.now) scopeId
        (runtime.submitted scopeId calls) := by
  have hperm := rankEntries_perm (state.repository.active call.experiment.leaderboardScopeId)
  refine (h.standing scopeId).elsewhere h.sound hscope hnew ?_ ?_
  · intro other hother hid
    refine hscope ?_
    rw [← htimed.same_experiment hother hid, submitted_scope hother]
  · rintro id rfl
    have hfinite : Finite (rankEntries (state.repository.active call.experiment.leaderboardScopeId)) :=
      fun entry hentry => h.sound.finite_active _ entry (hperm.mem_iff.mp hentry)
    rcases admission_eq_some hfinite (check_finite hcheck) hadmitted with ⟨hnone, -⟩ |
      ⟨lowest, hid, hlast, -, -⟩
    · cases hnone
    · obtain ⟨hrow, hplace⟩ := active_subset (hperm.mem_iff.mp (List.mem_of_getLast? hlast))
      exact ⟨lowest, hrow, (Option.some.inj hid).symm, fun hother => hscope (hplace ▸ hother)⟩

end Admitted

theorem Boards.submit (h : Boards runtime calls state) (htimed : WellTimed (calls ++ [call])) :
    Boards runtime (calls ++ [call]) (state.submit call.experiment call.now).1 := by
  have hranks : ∀ scopeId, runtime.ranks scopeId call = true ↔
      call.experiment.leaderboardScopeId = scopeId ∧ state.check call.experiment = .ok true := by
    intro scopeId
    rw [Runtime.check_congr h.scopes h.formulas, ranks_iff]
  have hclock : ∀ scopeId, ∀ earlier ∈ runtime.submitted scopeId calls, earlier.now ≤ call.now :=
    fun scopeId earlier hearlier => (List.pairwise_append.mp htimed.clock).2.2 earlier
      (mem_submitted hearlier).1 call (by simp)
  -- a call that the scope has seen, or that is not for it, changes neither board nor list
  have hstay : (∀ scopeId, runtime.ranks scopeId call = true →
      call.experiment.id ∈ (runtime.submitted scopeId calls).map (·.experiment.id)) →
      Boards runtime (calls ++ [call]) state := by
    intro hseen
    refine ⟨h.scopes, h.formulas, h.sound, fun scopeId => ?_⟩
    rw [submitted_concat]
    split
    · rename_i hranked
      rw [recorded_of_mem (hseen scopeId hranked)]
      exact h.standing scopeId
    · exact h.standing scopeId
  have hread := rankEntries_getActiveTopK h.sound
    (h.standing call.experiment.leaderboardScopeId).few
  have hsubmits := submit_submits state call
  generalize (state.submit call.experiment call.now).1 = next at hsubmits ⊢
  cases hsubmits with
  | unranked hcheck =>
    exact hstay fun scopeId hranked => absurd ((hranks scopeId).mp hranked).2 hcheck
  | known hcheck existing hknown =>
    refine hstay fun scopeId hranked => ?_
    have hscope := ((hranks scopeId).mp hranked).1
    obtain ⟨maker, hmaker, hid, -, -⟩ := (h.standing existing.leaderboardScopeId).counted existing
      (Table.mem_rows_of_get? hknown) rfl
    have hkey : existing.experimentResultId = call.experiment.id := Table.key_of_get? hknown
    have hexperiment := htimed.same_experiment hmaker (hid.trans hkey)
    have hown : existing.leaderboardScopeId = scopeId := by
      rw [← submitted_scope hmaker, hexperiment, hscope]
    rw [hown] at hmaker
    exact List.mem_map.mpr ⟨maker, hmaker, hid.trans hkey⟩
  | away hcheck hnew haway =>
    rw [hread] at haway
    refine ⟨h.scopes, h.formulas, h.sound, fun scopeId => ?_⟩
    rw [submitted_concat]
    split
    · rename_i hranked
      obtain rfl := ((hranks scopeId).mp hranked).1
      by_cases hseen : call.experiment.id ∈
          (runtime.submitted call.experiment.leaderboardScopeId calls).map (·.experiment.id)
      · rw [recorded_of_mem hseen]
        exact h.standing _
      · rw [recorded_of_not_mem hseen]
        exact (h.standing _).turnedAway h.sound (hclock _) hnew (check_finite hcheck) haway
    · exact h.standing scopeId
  | admitted hcheck hnew evicted hadmitted =>
    rw [hread] at hadmitted
    refine ⟨h.scopes, h.formulas, h.sound.admitted evicted hnew (check_finite hcheck),
      fun scopeId => ?_⟩
    rw [submitted_concat]
    by_cases hscope : call.experiment.leaderboardScopeId = scopeId
    · rw [if_pos ((hranks scopeId).mpr ⟨hscope, hcheck⟩)]
      subst hscope
      have hunseen := h.admitted_unseen htimed hcheck hnew hadmitted
        call.experiment.leaderboardScopeId
      rw [recorded_of_not_mem hunseen]
      exact (h.standing _).after_admission h.sound rfl (submitted_nodup runtime _ calls) hnew hunseen
        (check_finite hcheck) hadmitted
    · rw [if_neg fun hranked => hscope ((hranks scopeId).mp hranked).1]
      exact (h.admitted_elsewhere htimed hcheck hnew hadmitted hscope).2

theorem submitAll_boards (hempty : runtime.repository.entries = .empty) (htimed : WellTimed calls) :
    Boards runtime calls (runtime.submitAll calls) := by
  induction calls using List.reverseRecOn with
  | nil =>
    have hrows : runtime.repository.entries.rows = [] := by
      rw [hempty]
      rfl
    refine ⟨rfl, rfl, ⟨?_, ?_, ?_⟩, fun scopeId => ⟨?_, ?_, ?_⟩⟩
    · simp [Runtime.submitAll, hrows]
    · simp [Runtime.submitAll, hrows]
    · intro entry hentry
      simp [Runtime.submitAll, hrows] at hentry
    · simp [Runtime.submitAll, hrows]
    · simp [Runtime.submitAll, active, hrows]
    · simp [Runtime.submitted]
  | append_singleton calls call ih =>
    have hearlier : WellTimed calls :=
      ⟨(List.pairwise_append.mp htimed.clock).1, fun one hone other hother =>
        htimed.same one (List.mem_append_left _ hone) other (List.mem_append_left _ hother)⟩
    rw [submitAll_concat]
    exact (ih hearlier).submit htimed

end Runs

/-- A ranking is a Top-K of the submissions: the right scores in the right order, and whoever is
missing lost every tie to an earlier entry. -/
structure IsTopK (repository : EntryRepository) (submitted : List Submission)
    (entries : List RankedEntry) : Prop where
  ranks : entries.map (·.rank) = List.range' 1 entries.length
  descends : entries.Pairwise fun above below => scoreOf below.entry ≤ scoreOf above.entry
  scores : entries.map (fun ranked => scoreOf ranked.entry)
    = largest topK (submitted.map Submission.score)
  made : ∀ ranked ∈ entries, ∃ call ∈ submitted, MadeBy ranked.entry call
  ties : ∀ call ∈ submitted,
    (∀ ranked ∈ entries, ranked.entry.experimentResultId ≠ call.experiment.id) →
    ∀ ranked ∈ entries, scoreOf ranked.entry = call.score →
      Earlier repository submitted ranked.entry call

theorem withRanks_ranks (entries : List LeaderboardEntry) :
    (withRanks entries).map (·.rank) = List.range' 1 entries.length := by
  apply List.ext_getElem
  · simp [withRanks]
  · intro n hn hn'
    simp [withRanks, Nat.add_comm]

theorem withRanks_entries (entries : List LeaderboardEntry) :
    (withRanks entries).map (·.entry) = entries := by
  apply List.ext_getElem
  · simp [withRanks]
  · intro n hn hn'
    simp [withRanks]

theorem Standing.isTopK (h : Standing repository scopeId seen) (hsound : repository.Sound)
    (hnodup : (seen.map (·.experiment.id)).Nodup) :
    IsTopK repository seen (withRanks (rankEntries (repository.active scopeId))) := by
  have hperm := rankEntries_perm (repository.active scopeId)
  have hentries := withRanks_entries (rankEntries (repository.active scopeId))
  have hmem : ∀ ranked ∈ withRanks (rankEntries (repository.active scopeId)),
      ranked.entry ∈ repository.active scopeId := by
    intro ranked hranked
    refine hperm.mem_iff.mp ?_
    rw [← hentries]
    exact List.mem_map_of_mem hranked
  have hmade : ∀ entry ∈ repository.active scopeId, ∃ call ∈ seen, MadeBy entry call :=
    fun entry hentry => h.counted entry (active_subset hentry).1 (active_subset hentry).2
  constructor
  case ranks =>
    have hlength := congrArg List.length hentries
    rw [List.length_map] at hlength
    rw [withRanks_ranks, hlength]
  case descends =>
    have hpairwise := (rankEntries_pairwise (hsound.finite_active scopeId)).imp
      fun hahead => hahead.score_le
    rw [← hentries, List.pairwise_map] at hpairwise
    exact hpairwise
  case scores =>
    have hboard : (withRanks (rankEntries (repository.active scopeId))).map
        (fun ranked => scoreOf ranked.entry)
        = largest topK ((repository.active scopeId).map scoreOf) := by
      have hmap : (withRanks (rankEntries (repository.active scopeId))).map
          (fun ranked => scoreOf ranked.entry)
          = (rankEntries (repository.active scopeId)).map scoreOf := by
        conv_rhs => rw [← hentries, List.map_map]
        rfl
      rw [hmap, rankEntries_scores (hsound.finite_active scopeId), largest_of_length_le]
      rw [List.length_map]
      exact h.few
    have hscores : seen.map Submission.score
        = (seen.map (·.experiment)).map fun experiment => experiment.overallScore.toRat := by
      rw [List.map_map]
      rfl
    have hids : ((repository.active scopeId).map (·.experimentResultId)).Nodup :=
      repository.entries.nodup.sublist (List.filter_sublist.map _)
    have hkept := entries_scores_perm (seen.map (·.experiment))
      (by rwa [List.map_map]) hids fun entry hentry => by
        obtain ⟨call, hcall, hid, hscore, -⟩ := hmade entry hentry
        exact ⟨call.experiment, List.mem_map_of_mem hcall, hid, hscore⟩
    rw [hboard, hscores, ← largest_perm hkept]
    have hsplit := (List.filter_append_perm (fun experiment : StoredExperiment =>
      decide (experiment.id ∈ (repository.active scopeId).map (·.experimentResultId)))
      (seen.map (·.experiment))).symm.trans List.perm_append_comm
    rw [largest_perm (hsplit.map fun experiment => experiment.overallScore.toRat), List.map_append]
    refine (largest_append_of_reached ?_).symm
    intro value hvalue
    obtain ⟨experiment, hdropped, rfl⟩ := List.mem_map.mp hvalue
    obtain ⟨hexperiment, hout⟩ := List.mem_filter.mp hdropped
    obtain ⟨call, hcall, rfl⟩ := List.mem_map.mp hexperiment
    rcases h.placed call hcall with ⟨entry, hentry, hid⟩ | ⟨hfull, hbehind⟩
    · simp only [Bool.not_eq_true', decide_eq_false_iff_not] at hout
      exact absurd (hid ▸ List.mem_map_of_mem hentry) hout
    · rw [reaching, hkept.countP_eq, List.countP_map, ← hfull]
      refine le_of_eq (List.countP_eq_length.mpr fun entry hentry => ?_).symm
      exact decide_eq_true (hbehind entry hentry).1
  case made => exact fun ranked hranked => hmade ranked.entry (hmem ranked hranked)
  case ties =>
    intro call hcall hout ranked hranked heq
    rcases h.placed call hcall with ⟨entry, hentry, hid⟩ | ⟨-, hbehind⟩
    · have hlisted : entry ∈ (withRanks (rankEntries (repository.active scopeId))).map (·.entry) := by
        rw [hentries]
        exact hperm.mem_iff.mpr hentry
      obtain ⟨shown, hshown, rfl⟩ := List.mem_map.mp hlisted
      exact absurd hid (hout shown hshown)
    · exact (hbehind ranked.entry (hmem ranked hranked)).2 heq

/-- After every sequence of submissions, `topK` of a scope is a Top-K of the distinct rank-eligible
search experiments submitted to it; a repetition, and a submission to another scope, leaves the
scope's active entries as they are. -/
theorem topK_of_submissions (runtime : Runtime) (userId scopeId : String) (calls : List Submission)
    (hempty : runtime.repository.entries = .empty)
    (hreadable : runtime.topK userId scopeId = .ok []) (htimed : WellTimed calls) :
    (∃ entries, (runtime.submitAll calls).topK userId scopeId = .ok entries ∧
      IsTopK (runtime.submitAll calls).repository (runtime.submitted scopeId calls) entries) ∧
    ∀ call, WellTimed (calls ++ [call]) →
      (call.experiment.id ∈ (runtime.submitted scopeId calls).map (·.experiment.id) ∨
        call.experiment.leaderboardScopeId ≠ scopeId) →
      (runtime.submitAll (calls ++ [call])).repository.active scopeId
        = (runtime.submitAll calls).repository.active scopeId := by
  have hboards := submitAll_boards hempty htimed
  constructor
  · refine ⟨_, ?_, (hboards.standing scopeId).isTopK hboards.sound (submitted_nodup runtime _ _)⟩
    simp only [Runtime.topK, bind_eq_ok] at hreadable ⊢
    obtain ⟨allowed, hallowed, -⟩ := hreadable
    refine ⟨allowed, ?_, ?_⟩
    · rw [Runtime.readScope_congr hboards.scopes hboards.formulas]
      exact hallowed
    · rw [rankEntries_getActiveTopK hboards.sound (hboards.standing scopeId).few]
      rfl
  · intro call htimed' hsame
    rw [submitAll_concat]
    have hsubmits := submit_submits (runtime.submitAll calls) call
    generalize ((runtime.submitAll calls).submit call.experiment call.now).1 = next at hsubmits ⊢
    cases hsubmits with
    | unranked => rfl
    | known => rfl
    | away => rfl
    | admitted hcheck hnew evicted hadmitted =>
      rw [rankEntries_getActiveTopK hboards.sound (hboards.standing _).few] at hadmitted
      rcases hsame with hseen | hscope
      · exact absurd hseen (hboards.admitted_unseen htimed' hcheck hnew hadmitted scopeId)
      · exact (hboards.admitted_elsewhere htimed' hcheck hnew hadmitted hscope).1

namespace Sample

def experiment (id : String) (score : Int) : StoredExperiment where
  id
  ownerUserId := "u"
  candidateId := id
  searchRunId := some "r"
  leaderboardScopeId := "s"
  scoreFormulaId := "f"
  overallScore := .ofInt score
  rankEligible := true
  backtestAttemptId := .delivery id 1
  createdAt := 0

def runtime : Runtime where
  scopes := Table.empty.put ⟨"s", "u", "f"⟩
  formulas := ["f"]
  repository := ⟨.empty, 0⟩

/-- Ten submissions at one instant, the last two with the lowest score, and one that is better. -/
def tied : List Submission :=
  [("a", 5), ("b", 5), ("c", 5), ("d", 5), ("e", 5), ("f", 5), ("g", 5), ("h", 5), ("i", 1),
    ("j", 1), ("k", 3)].map fun submission => ⟨experiment submission.1 submission.2, 0⟩

end Sample

theorem topK_of_submissions_tied :
    WellTimed Sample.tied ∧ ∃ entries,
      (Sample.runtime.submitAll Sample.tied).topK "u" "s" = .ok entries ∧
      IsTopK (Sample.runtime.submitAll Sample.tied).repository
        (Sample.runtime.submitted "s" Sample.tied) entries := by
  have htimed : WellTimed Sample.tied := ⟨by decide, by decide⟩
  exact ⟨htimed, (topK_of_submissions Sample.runtime "u" "s" Sample.tied rfl (by decide) htimed).1⟩

/-- Ids are compared as text: of the two lowest the earlier, number nine, gives way to number
ten. -/
theorem topK_tie_to_later :
    WellTimed Sample.tied ∧ ∃ earlier later entries,
      [earlier, later].Sublist (Sample.runtime.submitted "s" Sample.tied) ∧
      earlier.score = later.score ∧ (Sample.runtime.submitAll Sample.tied).topK "u" "s" = .ok entries ∧
      later.experiment.id ∈ entries.map (·.entry.experimentResultId) ∧
      earlier.experiment.id ∉ entries.map (·.entry.experimentResultId) := by
  have hids : ((Sample.runtime.submitAll Sample.tied).topK "u" "s").toOption.map
      (fun entries => entries.map (·.entry.experimentResultId))
      = some ["a", "b", "c", "d", "e", "f", "g", "h", "k", "j"] := by decide +kernel
  obtain ⟨entries, hentries⟩ := exists_ok (x := (Sample.runtime.submitAll Sample.tied).topK "u" "s")
    (by decide +kernel)
  rw [hentries] at hids
  have hlist : entries.map (·.entry.experimentResultId)
      = ["a", "b", "c", "d", "e", "f", "g", "h", "k", "j"] := Option.some.inj hids
  refine ⟨⟨by decide, by decide⟩, ⟨Sample.experiment "i" 1, 0⟩, ⟨Sample.experiment "j" 1, 0⟩,
    entries, by decide, rfl, hentries, ?_, ?_⟩
  · rw [hlist]
    decide
  · rw [hlist]
    decide

end Cryptox.Leaderboard
