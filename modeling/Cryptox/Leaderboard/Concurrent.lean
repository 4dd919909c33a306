import Cryptox.Library.GuardedSystem
import Cryptox.Backtesting.Repository.Run
import Cryptox.Leaderboard.BatchTopK

/-!
# Submissions that overlap

Each call of `submit` goes from one await to the next: it looks its experiment up, reads the active
entries, deactivates the lowest, inserts its own entry and reads the ranking back. Any number of
calls take these steps in any order, over the in-memory map or over statements of the database. The
writes of a transaction show together when it commits, which is one of these orders.
-/
namespace Cryptox.Leaderboard

open Cryptox.Backtesting
open Cryptox.Library
open EntryRepository

inductive Phase where
  | lookup
  | read
  | evict (lowest : String) (evictedExperimentResultId : Option String)
  | insert (evictedExperimentResultId : Option String)
  | rank (inserted : LeaderboardEntry) (evictedExperimentResultId : Option String)
  | returned (result : Except String LeaderboardSubmissionResult)
deriving DecidableEq

structure Call where
  experiment : StoredExperiment
  phase : Phase
deriving DecidableEq

namespace Call

def experimentId (call : Call) : String := call.experiment.id

def score (call : Call) : ℚ := call.experiment.overallScore.toRat

def isReturned (call : Call) : Bool :=
  match call.phase with
  | .returned _ => true
  | _ => false

end Call

/-- What the calls share, and where each of them is. -/
structure Board where
  repository : EntryRepository
  calls : Table Call.experimentId

namespace Board

def start (sequence : Nat) : Board := ⟨⟨.empty, sequence⟩, .empty⟩

def move (board : Board) (call : Call) (phase : Phase) : Board :=
  { board with calls := board.calls.put { call with phase } }

end Board

section Repositories

variable (storage : Storage) (backtesting : RepositoryState)

/-- The database joins the candidates of the entries and keeps those of a search. -/
def readActive (repository : EntryRepository) (scopeId : String) (limit : Nat) :
    List LeaderboardEntry :=
  match storage with
  | .inMemory => repository.getActiveTopK scopeId limit
  | .postgres =>
    (rankEntries ((repository.active scopeId).filter (ofSearch backtesting))).take limit

/-- The database is handed a new id and refuses a second entry of an experiment. -/
def insertEntry (repository : EntryRepository) (experiment : StoredExperiment) (id : String)
    (addedAt : Int) : Except String (EntryRepository × LeaderboardEntry) :=
  match storage with
  | .inMemory => .ok (repository.insert experiment addedAt)
  | .postgres =>
    if (repository.getByExperimentResultId experiment.id).isSome
        || (repository.entries.rows.any fun entry => entry.id == id) then
      .error Postgres.uniqueViolation
    else
      let created := insertedEntry experiment id addedAt
      .ok ({ repository with entries := repository.entries.put created }, created)

/-- The ranking of a scope as `topK` answers it over either repository. -/
def topKOf (runtime : Runtime) (userId scopeId : String) : Except String (List RankedEntry) := do
  runtime.readScope userId scopeId
  return withRanks (rankEntries (readActive storage backtesting runtime.repository scopeId topK))

/-- A call takes its next step; `id` and `now` are what an insertion is given. -/
def advance (board : Board) (call : Call) (id : String) (now : Int) : Board :=
  match call.phase with
  | .lookup =>
    match board.repository.getByExperimentResultId call.experiment.id with
    | some existing =>
      board.move call (.returned (.ok
        (if existing.leaderboardScopeId = call.experiment.leaderboardScopeId then
          ⟨true, some ⟨0, existing⟩, none⟩ else ⟨false, none, none⟩)))
    | none => board.move call .read
  | .read =>
    let activeEntries := rankEntries
      (readActive storage backtesting board.repository call.experiment.leaderboardScopeId topK)
    let evicted := activeEntries.getLast?.map (·.experimentResultId)
    match admission activeEntries call.experiment with
    | none => board.move call (.returned (.ok ⟨false, none, none⟩))
    | some none => board.move call (.insert evicted)
    | some (some lowest) => board.move call (.evict lowest evicted)
  | .evict lowest evicted =>
    { board with repository := board.repository.deactivate lowest }.move call (.insert evicted)
  | .insert evicted =>
    match insertEntry storage board.repository call.experiment id now with
    | .error error => board.move call (.returned (.error error))
    | .ok (repository, inserted) =>
      { board with repository }.move call (.rank inserted evicted)
  | .rank inserted evicted =>
    let ranking := withRanks (rankEntries
      (readActive storage backtesting board.repository call.experiment.leaderboardScopeId topK))
    board.move call (.returned (.ok ⟨true,
      some ((ranking.find? fun ranked => ranked.entry.id == inserted.id).getD ⟨0, inserted⟩),
      evicted⟩))
  | .returned _ => board

end Repositories

inductive BoardStep where
  | submit (experiment : StoredExperiment)
  | advance (experimentId id : String) (now : Int)

/-- The leaderboard whose calls overlap: one scope, and the repository it is kept in. -/
structure Setting where
  storage : Storage
  backtesting : RepositoryState
  runtime : Runtime
  scopeId : String

namespace Setting

variable (setting : Setting)

def next (board : Board) : BoardStep → Board
  | .submit experiment => { board with calls := board.calls.put ⟨experiment, .lookup⟩ }
  | .advance experimentId id now =>
    match board.calls.get? experimentId with
    | none => board
    | some call => advance setting.storage setting.backtesting board call id now

/-- The calls are for distinct rank-eligible search experiments of the scope, and the database is
handed ids that it has not seen. -/
def enabled (board : Board) : BoardStep → Prop
  | .submit experiment =>
    (board.calls.get? experiment.id).isNone ∧ experiment.leaderboardScopeId = setting.scopeId ∧
      setting.runtime.check experiment = .ok true ∧
      (setting.storage = .inMemory ∨
        ofSearch setting.backtesting (insertedEntry experiment "" 0) = true)
  | .advance experimentId id _ =>
    (board.calls.get? experimentId).any (fun call => !call.isReturned) = true ∧
      (setting.storage = .inMemory ∨ ∀ entry ∈ board.repository.entries.rows, entry.id ≠ id)

instance (board : Board) : ∀ step, Decidable (setting.enabled board step)
  | .submit _ => inferInstanceAs (Decidable (_ ∧ _ ∧ _ ∧ _))
  | .advance _ _ _ => inferInstanceAs (Decidable (_ ∧ _))

def system : GuardedSystem Board BoardStep where
  enabled := setting.enabled
  next := setting.next

instance (board : Board) (step : BoardStep) : Decidable (setting.system.enabled board step) :=
  inferInstanceAs (Decidable (setting.enabled board step))

/-- The board once the calls have taken some steps from an empty one. -/
def after (steps : List BoardStep) : Board :=
  setting.system.run (Board.start setting.runtime.repository.sequence) steps

end Setting

section Order

variable {board board' : Board} {ahead behind : String}

/-- One call's experiment is ahead of another's: by its score, or on the same score by its entry. -/
def Before (board : Board) (ahead behind : String) : Prop :=
  ∃ a b, board.calls.get? ahead = some a ∧ board.calls.get? behind = some b ∧
    (b.score < a.score ∨ b.score = a.score ∧
      ∃ row, board.repository.getByExperimentResultId ahead = some row ∧
        ∀ other, board.repository.getByExperimentResultId behind = some other →
          rankKey row < rankKey other)

/-- As many calls as the board has places are ahead of this one. -/
def Covered (board : Board) (behind : String) : Prop :=
  ∃ front : List String, front.Nodup ∧ topK ≤ front.length ∧
    ∀ ahead ∈ front, Before board ahead behind

theorem before_irrefl (id : String) : ¬ Before board id id := by
  rintro ⟨a, b, ha, hb, h⟩
  obtain rfl : a = b := Option.some.inj (ha.symm.trans hb)
  rcases h with hlt | ⟨-, row, hrow, hkey⟩
  · exact lt_irrefl _ hlt
  · exact lt_irrefl _ (hkey row hrow)

theorem before_trans (first second third : String) (h : Before board first second)
    (h' : Before board second third) : Before board first third := by
  obtain ⟨a, b, ha, hb, hab⟩ := h
  obtain ⟨b', c, hb', hc, hbc⟩ := h'
  obtain rfl : b = b' := Option.some.inj (hb.symm.trans hb')
  refine ⟨a, c, ha, hc, ?_⟩
  rcases hab with hab | ⟨hab, row, hrow, hkey⟩
  · rcases hbc with hbc | ⟨hbc, -⟩
    · exact .inl (hbc.trans hab)
    · exact .inl (hbc.trans_lt hab)
  · rcases hbc with hbc | ⟨hbc, row', hrow', hkey'⟩
    · exact .inl (hbc.trans_eq hab)
    · exact .inr ⟨hbc.trans hab, row, hrow,
        fun other hother => (hkey row' hrow').trans (hkey' other hother)⟩

/-- The score of the call for an experiment. -/
def scoreFor (board : Board) (id : String) : ℚ := ((board.calls.get? id).map Call.score).getD 0

theorem Before.score_le (h : Before board ahead behind) :
    scoreFor board behind ≤ scoreFor board ahead := by
  obtain ⟨a, b, ha, hb, h⟩ := h
  simp only [scoreFor, ha, hb, Option.map_some, Option.getD_some]
  rcases h with hlt | ⟨heq, -⟩
  · exact hlt.le
  · exact heq.le

end Order

/-- Two entries that differ in the flag at most. -/
structure SameEntry (entry other : LeaderboardEntry) : Prop where
  id : entry.id = other.id
  experimentResultId : entry.experimentResultId = other.experimentResultId
  leaderboardScopeId : entry.leaderboardScopeId = other.leaderboardScopeId
  score : entry.score = other.score
  addedAt : entry.addedAt = other.addedAt

theorem SameEntry.rankKey {entry other : LeaderboardEntry} (h : SameEntry entry other) :
    rankKey entry = rankKey other := by
  rw [Leaderboard.rankKey, Leaderboard.rankKey, h.score, h.addedAt, h.id]

/-- What one step of a call does to the entries: flags change, and its own entry is added. -/
structure Writes (board : Board) (call : Call) (repository : EntryRepository) where
  flag : LeaderboardEntry → LeaderboardEntry
  added : List LeaderboardEntry
  same : ∀ entry, SameEntry (flag entry) entry
  rows : repository.entries.rows = board.repository.entries.rows.map flag ++ added
  new : added ≠ [] → board.repository.getByExperimentResultId call.experiment.id = none
  own : ∀ entry ∈ added, entry.experimentResultId = call.experiment.id ∧
    entry.score = call.experiment.overallScore ∧
    entry.leaderboardScopeId = call.experiment.leaderboardScopeId ∧ entry.active = true

namespace Writes

variable {board : Board} {call : Call} {repository : EntryRepository} {phase : Phase} {id : String}

theorem getBy (h : Writes board call repository) (id : String) :
    repository.getByExperimentResultId id
      = ((board.repository.getByExperimentResultId id).map h.flag).or
        (h.added.find? fun entry => entry.experimentResultId = id) := by
  simp only [EntryRepository.getByExperimentResultId, Table.get?, h.rows, List.find?_append,
    List.find?_map,
    Function.comp_def, (h.same _).experimentResultId]

theorem getBy_of_some (h : Writes board call repository) {entry : LeaderboardEntry}
    (hentry : board.repository.getByExperimentResultId id = some entry) :
    repository.getByExperimentResultId id = some (h.flag entry) := by
  rw [h.getBy, hentry]
  rfl

/-- Nothing is added for an experiment other than the call's. -/
theorem getBy_of_ne (h : Writes board call repository) (hne : id ≠ call.experiment.id) :
    repository.getByExperimentResultId id
      = (board.repository.getByExperimentResultId id).map h.flag := by
  have hnone : h.added.find? (fun entry => entry.experimentResultId = id) = none := by
    rw [List.find?_eq_none]
    intro entry hentry
    simp only [decide_eq_true_eq]
    rw [(h.own entry hentry).1]
    exact hne.symm
  rw [h.getBy, hnone, Option.or_none]

theorem getBy_of_none (h : Writes board call repository) (hadded : h.added = []) (id : String) :
    repository.getByExperimentResultId id
      = (board.repository.getByExperimentResultId id).map h.flag := by
  rw [h.getBy, hadded, List.find?_nil, Option.or_none]

/-- Those ahead stay ahead, as long as the one behind does not only now get its entry. -/
theorem covered (h : Writes board call repository)
    (hcall : board.calls.get? call.experimentId = some call) (hcovered : Covered board id)
    (hback : repository.getByExperimentResultId id
      = (board.repository.getByExperimentResultId id).map h.flag) :
    Covered ⟨repository, board.calls.put { call with phase }⟩ id := by
  have hcalls : ∀ key found, board.calls.get? key = some found →
      ∃ found', (board.calls.put { call with phase }).get? key = some found' ∧
        found'.score = found.score := by
    intro key found hfound
    by_cases hkey : key = call.experimentId
    · subst hkey
      obtain rfl : call = found := Option.some.inj (hcall.symm.trans hfound)
      exact ⟨_, Table.get?_put_of_eq _ rfl, rfl⟩
    · have hput := Table.get?_put_of_ne (v := { call with phase }) board.calls hkey
      exact ⟨found, hput.trans hfound, rfl⟩
  obtain ⟨front, hnodup, hlength, hfront⟩ := hcovered
  refine ⟨front, hnodup, hlength, fun ahead hahead => ?_⟩
  obtain ⟨a, b, ha, hb, hbefore⟩ := hfront ahead hahead
  obtain ⟨a', ha', hscoreA⟩ := hcalls ahead a ha
  obtain ⟨b', hb', hscoreB⟩ := hcalls id b hb
  refine ⟨a', b', ha', hb', ?_⟩
  rw [hscoreA, hscoreB]
  rcases hbefore with hlt | ⟨heq, row, hrow, hkey⟩
  · exact .inl hlt
  · refine .inr ⟨heq, h.flag row, h.getBy_of_some hrow, fun other hother => ?_⟩
    change repository.getByExperimentResultId id = some other at hother
    rw [hback] at hother
    obtain ⟨old, hold, rfl⟩ := Option.map_eq_some_iff.mp hother
    rw [(h.same row).rankKey, (h.same old).rankKey]
    exact hkey old hold

end Writes

/-- What is known of a call where it stands. -/
def InPhase (board : Board) (call : Call) : Prop :=
  match call.phase with
  | .lookup | .read | .insert _ =>
    board.repository.getByExperimentResultId call.experiment.id = none
  | .evict lowest _ => board.repository.getByExperimentResultId call.experiment.id = none ∧
    ∃ entry ∈ board.repository.entries.rows, entry.id = lowest ∧
      Covered board entry.experimentResultId
  | .rank _ _ => (board.repository.getByExperimentResultId call.experiment.id).isSome
  | .returned _ => (board.repository.getByExperimentResultId call.experiment.id).isSome ∨
    Covered board call.experiment.id

/-- Every entry is its call's, and whatever is turned away or evicted is covered. -/
structure Overlap (setting : Setting) (board : Board) : Prop where
  distinct : (board.repository.entries.rows.map (·.id)).Nodup
  numbered : setting.storage = .inMemory → ∀ entry ∈ board.repository.entries.rows,
    ∃ n ≤ board.repository.sequence, entry.id = entryId n
  made : ∀ entry ∈ board.repository.entries.rows, ∃ call ∈ board.calls.rows,
    call.experiment.id = entry.experimentResultId ∧ call.experiment.overallScore = entry.score ∧
      call.experiment.leaderboardScopeId = entry.leaderboardScopeId
  begun : ∀ call ∈ board.calls.rows, call.experiment.leaderboardScopeId = setting.scopeId ∧
    setting.runtime.check call.experiment = .ok true ∧ (setting.storage = .inMemory ∨
      ofSearch setting.backtesting (insertedEntry call.experiment "" 0) = true)
  phases : ∀ call ∈ board.calls.rows, InPhase board call
  evicted : ∀ entry ∈ board.repository.entries.rows, entry.active = false →
    Covered board entry.experimentResultId

section Step

variable {setting : Setting} {board : Board} {call : Call} {repository : EntryRepository}
  {phase : Phase}

theorem mem_calls_put {other : Call}
    (h : other ∈ (board.calls.put { call with phase }).rows) :
    other = { call with phase } ∨ other ∈ board.calls.rows ∧
      other.experiment.id ≠ call.experiment.id :=
  Table.mem_rows_put_cases h

theorem Writes.back (h : Writes board call repository) {entry : LeaderboardEntry}
    (hentry : entry ∈ board.repository.entries.rows) :
    repository.getByExperimentResultId entry.experimentResultId
      = (board.repository.getByExperimentResultId entry.experimentResultId).map h.flag := by
  by_cases hid : entry.experimentResultId = call.experiment.id
  · apply h.getBy_of_none
    by_contra hadded
    have hnone := h.new hadded
    rw [← hid] at hnone
    have hsome : board.repository.getByExperimentResultId entry.experimentResultId = some entry :=
      Table.get?_of_mem_rows hentry
    rw [hsome] at hnone
    cases hnone
  · exact h.getBy_of_ne hid

/-- A step of one call keeps what is known of all of them. -/
theorem Overlap.step (h : Overlap setting board)
    (hcall : board.calls.get? call.experimentId = some call) (hwrites : Writes board call repository)
    (hdistinct : (repository.entries.rows.map (·.id)).Nodup)
    (hnumbered : setting.storage = .inMemory → ∀ entry ∈ repository.entries.rows,
      ∃ n ≤ repository.sequence, entry.id = entryId n)
    (hevicted : ∀ entry ∈ board.repository.entries.rows, (hwrites.flag entry).active = false →
      Covered board entry.experimentResultId)
    (hphase : InPhase ⟨repository, board.calls.put { call with phase }⟩ { call with phase }) :
    Overlap setting ⟨repository, board.calls.put { call with phase }⟩ where
  distinct := hdistinct
  numbered := hnumbered
  made entry hentry := by
    change entry ∈ repository.entries.rows at hentry
    have hmoved : { call with phase } ∈ (board.calls.put { call with phase }).rows :=
      Table.mem_rows_of_get? (Table.get?_put_of_eq _ rfl)
    rw [hwrites.rows] at hentry
    rcases List.mem_append.mp hentry with hold | hadded
    · obtain ⟨old, hmem, rfl⟩ := List.mem_map.mp hold
      obtain ⟨maker, hmaker, hid, hscore, hscope⟩ := h.made old hmem
      rw [(hwrites.same old).experimentResultId, (hwrites.same old).score,
        (hwrites.same old).leaderboardScopeId]
      by_cases hkey : maker.experimentId = call.experimentId
      · have hget := Table.get?_of_mem_rows hmaker
        rw [hkey, hcall] at hget
        obtain rfl : call = maker := Option.some.inj hget
        exact ⟨_, hmoved, hid, hscore, hscope⟩
      · have hget := (Table.get?_put_of_ne (v := { call with phase }) board.calls hkey).trans
          (Table.get?_of_mem_rows hmaker)
        exact ⟨maker, Table.mem_rows_of_get? hget, hid, hscore, hscope⟩
    · obtain ⟨hid, hscore, hscope, -⟩ := hwrites.own entry hadded
      exact ⟨_, hmoved, hid.symm, hscore.symm, hscope.symm⟩
  begun other hother := by
    rcases mem_calls_put hother with rfl | ⟨hmem, -⟩
    · exact h.begun call (Table.mem_rows_of_get? hcall)
    · exact h.begun other hmem
  phases other hother := by
    rcases mem_calls_put hother with rfl | ⟨hmem, hne⟩
    · exact hphase
    · have hback := hwrites.getBy_of_ne hne
      have hknown := h.phases other hmem
      unfold InPhase at hknown ⊢
      split
      · rename_i hphase
        simp only [hphase] at hknown
        rw [hback, hknown, Option.map_none]
      · rename_i hphase
        simp only [hphase] at hknown
        rw [hback, hknown, Option.map_none]
      · rename_i hphase
        simp only [hphase] at hknown
        rw [hback, hknown, Option.map_none]
      · rename_i hphase
        simp only [hphase] at hknown
        obtain ⟨hnone, entry, hentry, hid, hcovered⟩ := hknown
        refine ⟨by rw [hback, hnone, Option.map_none], hwrites.flag entry, ?_, ?_, ?_⟩
        · rw [hwrites.rows]
          exact List.mem_append_left _ (List.mem_map_of_mem hentry)
        · rw [(hwrites.same entry).id, hid]
        · rw [(hwrites.same entry).experimentResultId]
          exact hwrites.covered hcall hcovered (hwrites.back hentry)
      · rename_i hphase
        simp only [hphase] at hknown
        rw [hback, Option.isSome_map]
        exact hknown
      · rename_i hphase
        simp only [hphase] at hknown
        rcases hknown with hsome | hcovered
        · left
          rw [hback, Option.isSome_map]
          exact hsome
        · exact .inr (hwrites.covered hcall hcovered hback)
  evicted entry hentry hinactive := by
    change entry ∈ repository.entries.rows at hentry
    rw [hwrites.rows] at hentry
    rcases List.mem_append.mp hentry with hold | hadded
    · obtain ⟨old, hmem, rfl⟩ := List.mem_map.mp hold
      rw [(hwrites.same old).experimentResultId]
      exact hwrites.covered hcall (hevicted old hmem hinactive) (hwrites.back hmem)
    · rw [(hwrites.own entry hadded).2.2.2] at hinactive
      cases hinactive

/-- The step that only moves its call. -/
def Writes.idle (board : Board) (call : Call) : Writes board call board.repository where
  flag := id
  added := []
  same _ := ⟨rfl, rfl, rfl, rfl, rfl⟩
  rows := by rw [List.map_id, List.append_nil]
  new h := absurd rfl h
  own _ h := absurd h List.not_mem_nil

theorem Overlap.idle (h : Overlap setting board)
    (hcall : board.calls.get? call.experimentId = some call)
    (hphase : InPhase (board.move call phase) { call with phase }) :
    Overlap setting (board.move call phase) :=
  h.step hcall (.idle board call) h.distinct h.numbered h.evicted hphase

theorem Covered.move {id : String} (h : Covered board id)
    (hcall : board.calls.get? call.experimentId = some call) :
    Covered (board.move call phase) id :=
  (Writes.idle board call).covered hcall h ((Writes.idle board call).getBy_of_none rfl _)

end Step

section Reading

variable {setting : Setting} {board : Board} {call : Call}

theorem Overlap.finite (h : Overlap setting board) : Finite board.repository.entries.rows := by
  intro entry hentry
  obtain ⟨maker, hmaker, -, hscore, -⟩ := h.made entry hentry
  rw [← hscore]
  exact check_finite (h.begun maker hmaker).2.1

theorem Overlap.finite_active (h : Overlap setting board) (scopeId : String) :
    Finite (board.repository.active scopeId) :=
  fun entry hentry => h.finite entry (active_subset hentry).1

/-- Over the database every entry is of a search, so the join drops none. -/
theorem Overlap.readActive_eq (h : Overlap setting board) (scopeId : String) :
    readActive setting.storage setting.backtesting board.repository scopeId topK
      = (rankEntries (board.repository.active scopeId)).take topK := by
  unfold readActive
  split
  · rfl
  · rename_i hstorage
    have hkeep : (board.repository.active scopeId).filter (ofSearch setting.backtesting)
        = board.repository.active scopeId := by
      rw [List.filter_eq_self]
      intro entry hentry
      obtain ⟨maker, hmaker, hid, -, -⟩ := h.made entry (active_subset hentry).1
      rcases (h.begun maker hmaker).2.2 with hmemory | hsearch
      · rw [hstorage] at hmemory
        cases hmemory
      · unfold ofSearch at hsearch ⊢
        rw [← hid]
        exact hsearch
    rw [hkeep]

/-- What a call reads: entries of the board in rank order. -/
theorem Overlap.read (h : Overlap setting board) (scopeId : String) :
    ∃ entries, rankEntries
        (readActive setting.storage setting.backtesting board.repository scopeId topK) = entries ∧
      entries = (rankEntries (board.repository.active scopeId)).take topK ∧
      Finite entries ∧ entries.Pairwise RanksAhead ∧
      (∀ entry ∈ entries, entry ∈ board.repository.active scopeId) ∧
      (entries.map (·.experimentResultId)).Nodup := by
  have hsub : ∀ entry ∈ (rankEntries (board.repository.active scopeId)).take topK,
      entry ∈ board.repository.active scopeId :=
    fun entry hentry => (rankEntries_perm _).mem_iff.mp (List.mem_of_mem_take hentry)
  have hfinite : Finite ((rankEntries (board.repository.active scopeId)).take topK) :=
    fun entry hentry => h.finite_active scopeId entry (hsub entry hentry)
  have hpairwise : ((rankEntries (board.repository.active scopeId)).take topK).Pairwise RanksAhead :=
    (rankEntries_pairwise (h.finite_active scopeId)).sublist (List.take_sublist _ _)
  have hnodup : (((rankEntries (board.repository.active scopeId)).take topK).map
      (·.experimentResultId)).Nodup := by
    refine List.Nodup.sublist ((List.take_sublist _ _).map _) ?_
    rw [((rankEntries_perm _).map _).nodup_iff]
    exact board.repository.entries.nodup.sublist (List.filter_sublist.map _)
  refine ⟨_, ?_, rfl, hfinite, hpairwise, hsub, hnodup⟩
  rw [h.readActive_eq, rankEntries_of_pairwise hfinite hpairwise]

/-- An entry is ahead of a call that scores no higher and has none. -/
theorem Overlap.before_of_le (h : Overlap setting board) {entry : LeaderboardEntry}
    (hentry : entry ∈ board.repository.entries.rows)
    (hcall : board.calls.get? call.experimentId = some call)
    (hnone : board.repository.getByExperimentResultId call.experiment.id = none)
    (hle : call.score ≤ scoreOf entry) :
    Before board entry.experimentResultId call.experiment.id := by
  obtain ⟨maker, hmaker, hid, hscore, -⟩ := h.made entry hentry
  have hget : board.calls.get? entry.experimentResultId = some maker := by
    rw [← hid]
    exact Table.get?_of_mem_rows hmaker
  have hmakerScore : maker.score = scoreOf entry := congrArg JsNumber.toRat hscore
  refine ⟨maker, call, hget, hcall, ?_⟩
  rw [hmakerScore]
  rcases hle.lt_or_eq with hlt | heq
  · exact .inl hlt
  · refine .inr ⟨heq, entry, Table.get?_of_mem_rows hentry, fun other hother => ?_⟩
    rw [hnone] at hother
    cases hother

/-- An entry is ahead of one that it ranks before. -/
theorem Overlap.before_of_ranks (h : Overlap setting board) {entry lowest : LeaderboardEntry}
    (hentry : entry ∈ board.repository.entries.rows)
    (hlowest : lowest ∈ board.repository.entries.rows) (hne : entry.id ≠ lowest.id)
    (hranks : RanksAhead entry lowest) :
    Before board entry.experimentResultId lowest.experimentResultId := by
  obtain ⟨maker, hmaker, hid, hscore, -⟩ := h.made entry hentry
  obtain ⟨loser, hloser, hloserId, hloserScore, -⟩ := h.made lowest hlowest
  refine ⟨maker, loser, hid ▸ Table.get?_of_mem_rows hmaker,
    hloserId ▸ Table.get?_of_mem_rows hloser, ?_⟩
  have hmakerScore : maker.score = scoreOf entry := congrArg JsNumber.toRat hscore
  have hloserEq : loser.score = scoreOf lowest := congrArg JsNumber.toRat hloserScore
  rw [hmakerScore, hloserEq]
  rcases hranks.score_le.lt_or_eq with hlt | heq
  · exact .inl hlt
  · refine .inr ⟨heq, entry, Table.get?_of_mem_rows hentry, fun other hother => ?_⟩
    have hsame : board.repository.getByExperimentResultId lowest.experimentResultId = some lowest :=
      Table.get?_of_mem_rows hlowest
    obtain rfl : lowest = other := Option.some.inj (hsame.symm.trans hother)
    refine lt_of_le_of_ne hranks fun hkey => hne ?_
    have hpair := congrArg (fun key : ℚᵒᵈ ×ₗ (ℤ ×ₗ String) => (ofLex (ofLex key).2).2) hkey
    exact hpair

/-- A higher score is ahead of an entry. -/
theorem Overlap.before_of_lt (h : Overlap setting board) {lowest : LeaderboardEntry}
    (hlowest : lowest ∈ board.repository.entries.rows)
    (hcall : board.calls.get? call.experimentId = some call) (hlt : scoreOf lowest < call.score) :
    Before board call.experiment.id lowest.experimentResultId := by
  obtain ⟨loser, hloser, hid, hscore, -⟩ := h.made lowest hlowest
  have hloserScore : loser.score = scoreOf lowest := congrArg JsNumber.toRat hscore
  refine ⟨call, loser, hcall, hid ▸ Table.get?_of_mem_rows hloser, .inl ?_⟩
  rw [hloserScore]
  exact hlt

/-- The entry that a call is to evict is covered by the rest of what it read and by the call. -/
theorem Overlap.covered_lowest (h : Overlap setting board)
    (hcall : board.calls.get? call.experimentId = some call)
    (hnone : board.repository.getByExperimentResultId call.experiment.id = none)
    {scopeId : String} {entries : List LeaderboardEntry} {lowest : LeaderboardEntry}
    (hpairwise : entries.Pairwise RanksAhead)
    (hsub : ∀ entry ∈ entries, entry ∈ board.repository.active scopeId)
    (hnodup : (entries.map (·.experimentResultId)).Nodup) (hlast : entries.getLast? = some lowest)
    (hfull : entries.length = topK) (hlt : scoreOf lowest < call.score) :
    Covered board lowest.experimentResultId := by
  obtain ⟨above, rfl⟩ := List.getLast?_eq_some_iff.mp hlast
  have hrow : ∀ entry ∈ above ++ [lowest], entry ∈ board.repository.entries.rows :=
    fun entry hentry => (active_subset (hsub entry hentry)).1
  have hlowest := hrow lowest (by simp)
  rw [List.map_append, List.nodup_append] at hnodup
  refine ⟨above.map (·.experimentResultId) ++ [call.experiment.id], ?_, ?_, ?_⟩
  · rw [List.nodup_append]
    refine ⟨hnodup.1, by simp, ?_⟩
    rintro id hid id' hid' rfl
    obtain ⟨entry, hentry, hkey⟩ := List.mem_map.mp hid
    rw [List.mem_singleton.mp hid'] at hkey
    have hget := Table.get?_of_mem_rows (hrow entry (List.mem_append_left _ hentry))
    rw [hkey] at hget
    exact absurd (hnone.symm.trans hget) (by simp)
  · rw [List.length_append, List.length_singleton] at hfull
    rw [List.length_append, List.length_map, List.length_singleton, hfull]
  · intro ahead hahead
    rcases List.mem_append.mp hahead with habove | hcaller
    · obtain ⟨entry, hentry, rfl⟩ := List.mem_map.mp habove
      refine h.before_of_ranks (hrow entry (List.mem_append_left _ hentry)) hlowest ?_
        ((List.pairwise_append.mp hpairwise).2.2 entry hentry lowest (by simp))
      intro hid
      have heq : entry = lowest := List.inj_on_of_nodup_map h.distinct
        (hrow entry (List.mem_append_left _ hentry)) hlowest hid
      exact hnodup.2.2 _ (List.mem_map_of_mem hentry) _ (by simp) (congrArg _ heq)
    · rw [List.mem_singleton.mp hcaller]
      exact h.before_of_lt hlowest hcall hlt

/-- A call that is turned away is covered by what it read. -/
theorem Overlap.covered_away (h : Overlap setting board)
    (hcall : board.calls.get? call.experimentId = some call)
    (hnone : board.repository.getByExperimentResultId call.experiment.id = none)
    {scopeId : String} {entries : List LeaderboardEntry}
    (hsub : ∀ entry ∈ entries, entry ∈ board.repository.active scopeId)
    (hnodup : (entries.map (·.experimentResultId)).Nodup) (hfull : entries.length = topK)
    (hle : ∀ entry ∈ entries, call.score ≤ scoreOf entry) : Covered board call.experiment.id := by
  refine ⟨entries.map (·.experimentResultId), hnodup, ?_, ?_⟩
  · rw [List.length_map, hfull]
  · intro ahead hahead
    obtain ⟨entry, hentry, rfl⟩ := List.mem_map.mp hahead
    exact h.before_of_le (active_subset (hsub entry hentry)).1 hcall hnone (hle entry hentry)

end Reading

section Steps

variable {setting : Setting} {board : Board} {call : Call}

theorem Overlap.advance_read (h : Overlap setting board)
    (hcall : board.calls.get? call.experimentId = some call)
    (hnone : board.repository.getByExperimentResultId call.experiment.id = none) (id : String)
    (now : Int) (hphase : call.phase = .read) :
    Overlap setting (advance setting.storage setting.backtesting board call id now) := by
  obtain ⟨entries, hread, -, hfinite, hpairwise, hsub, hnodup⟩ :=
    h.read call.experiment.leaderboardScopeId
  have hscore := check_finite (h.begun call (Table.mem_rows_of_get? hcall)).2.1
  simp only [advance, hphase, hread]
  split
  · rename_i haway
    obtain ⟨hfull, hle⟩ := admission_eq_none hfinite hscore hpairwise haway
    exact h.idle hcall (.inr ((h.covered_away hcall hnone hsub hnodup hfull hle).move hcall))
  · exact h.idle hcall hnone
  · rename_i lowestId hadmitted
    rcases admission_eq_some hfinite hscore hadmitted with ⟨hempty, -⟩ |
      ⟨lowest, hid, hlast, hfull, hlt⟩
    · cases hempty
    · have hcovered := h.covered_lowest hcall hnone hpairwise hsub hnodup hlast hfull hlt
      have hrow := (active_subset (hsub lowest (List.mem_of_getLast? hlast))).1
      exact h.idle hcall ⟨hnone, lowest, hrow, (Option.some.inj hid).symm, hcovered.move hcall⟩

def Writes.evict (board : Board) (call : Call) (lowest : String) :
    Writes board call (board.repository.deactivate lowest) where
  flag := deactivated lowest
  added := []
  same entry := ⟨deactivated_id lowest entry, (deactivated_fields lowest entry).1,
    (deactivated_fields lowest entry).2.1, (deactivated_fields lowest entry).2.2.1,
    (deactivated_fields lowest entry).2.2.2⟩
  rows := (List.append_nil _).symm
  new h := absurd rfl h
  own _ h := absurd h List.not_mem_nil

theorem Overlap.advance_evict (h : Overlap setting board)
    (hcall : board.calls.get? call.experimentId = some call) {lowest : String}
    (hnone : board.repository.getByExperimentResultId call.experiment.id = none)
    (hcovered : ∃ entry ∈ board.repository.entries.rows, entry.id = lowest ∧
      Covered board entry.experimentResultId) (evicted : Option String) :
    Overlap setting ({ board with repository := board.repository.deactivate lowest }.move call
      (.insert evicted)) := by
  have hids : ((board.repository.deactivate lowest).entries.rows.map (·.id))
      = board.repository.entries.rows.map (·.id) := by
    simp [EntryRepository.deactivate, Table.modify, Function.comp_def]
  apply h.step hcall (.evict board call lowest)
  · rw [hids]
    exact h.distinct
  · intro hstorage entry hentry
    obtain ⟨old, hold, rfl⟩ := List.mem_map.mp hentry
    rw [deactivated_id]
    exact h.numbered hstorage old hold
  · intro entry hentry hinactive
    by_cases hid : entry.id = lowest
    · obtain ⟨covered, hrow, hsame, hcovered⟩ := hcovered
      obtain rfl : covered = entry :=
        List.inj_on_of_nodup_map h.distinct hrow hentry (hsame.trans hid.symm)
      exact hcovered
    · change (deactivated lowest entry).active = false at hinactive
      rw [deactivated, if_neg hid] at hinactive
      exact h.evicted entry hentry hinactive
  · change (board.repository.deactivate lowest).getByExperimentResultId call.experiment.id = none
    rw [getBy_deactivate, hnone, Option.map_none]

/-- Both repositories add the call's entry under an id that no other entry has. -/
theorem Overlap.insertEntry_ok (h : Overlap setting board)
    (hnone : board.repository.getByExperimentResultId call.experiment.id = none) {id : String}
    (hid : setting.storage = .inMemory ∨ ∀ entry ∈ board.repository.entries.rows, entry.id ≠ id)
    (now : Int) : ∃ repository newId,
      insertEntry setting.storage board.repository call.experiment id now
        = .ok (repository, insertedEntry call.experiment newId now) ∧
      repository.entries = board.repository.entries.put (insertedEntry call.experiment newId now) ∧
      (∀ entry ∈ board.repository.entries.rows, entry.id ≠ newId) ∧
      (setting.storage = .inMemory → board.repository.sequence ≤ repository.sequence ∧
        ∃ n ≤ repository.sequence, newId = entryId n) := by
  cases hstorage : setting.storage with
  | inMemory =>
    refine ⟨_, entryId (board.repository.sequence + 1), rfl, rfl, ?_,
      fun _ => ⟨Nat.le_succ _, _, le_rfl, rfl⟩⟩
    intro entry hentry heq
    obtain ⟨n, hn, hnumber⟩ := h.numbered hstorage entry hentry
    have := entryId_injective (hnumber.symm.trans heq)
    omega
  | postgres =>
    have hfresh : ∀ entry ∈ board.repository.entries.rows, entry.id ≠ id := by
      rcases hid with hmemory | hfresh
      · rw [hstorage] at hmemory
        cases hmemory
      · exact hfresh
    refine ⟨{ board.repository with
      entries := board.repository.entries.put (insertedEntry call.experiment id now) }, id, ?_, rfl,
      hfresh, nofun⟩
    rw [insertEntry, hnone, if_neg]
    simpa using hfresh

def Writes.insert (board : Board) (call : Call) (repository : EntryRepository) (id : String)
    (now : Int) (hnone : board.repository.getByExperimentResultId call.experiment.id = none)
    (hrows : repository.entries.rows
      = board.repository.entries.rows ++ [insertedEntry call.experiment id now]) :
    Writes board call repository where
  flag entry := entry
  added := [insertedEntry call.experiment id now]
  same _ := ⟨rfl, rfl, rfl, rfl, rfl⟩
  rows := by rw [List.map_id', hrows]
  new _ := hnone
  own entry hentry := by
    rw [List.mem_singleton.mp hentry]
    exact ⟨rfl, rfl, rfl, rfl⟩

theorem Overlap.advance_insert (h : Overlap setting board)
    (hcall : board.calls.get? call.experimentId = some call)
    (hnone : board.repository.getByExperimentResultId call.experiment.id = none) {id : String}
    (hid : setting.storage = .inMemory ∨ ∀ entry ∈ board.repository.entries.rows, entry.id ≠ id)
    (now : Int) {evicted : Option String} (hphase : call.phase = .insert evicted) :
    Overlap setting (advance setting.storage setting.backtesting board call id now) := by
  obtain ⟨repository, newId, hinsert, hentries, hfresh, hnumber⟩ := h.insertEntry_ok hnone hid now
  have hkey : board.repository.entries.get? (LeaderboardEntry.experimentResultId
      (insertedEntry call.experiment newId now)) = none := hnone
  have hrows : repository.entries.rows
      = board.repository.entries.rows ++ [insertedEntry call.experiment newId now] := by
    rw [hentries, Table.rows_put_of_none hkey]
  simp only [advance, hphase, hinsert]
  apply h.step hcall (.insert board call repository newId now hnone hrows)
  · rw [hrows, List.map_append, List.nodup_append]
    refine ⟨h.distinct, by simp, ?_⟩
    rintro old hold new hnew rfl
    obtain ⟨entry, hentry, hidEq⟩ := List.mem_map.mp hold
    exact hfresh entry hentry (hidEq.trans (List.mem_singleton.mp hnew))
  · intro hstorage entry hentry
    obtain ⟨hle, n, hn, hnew⟩ := hnumber hstorage
    rw [hrows] at hentry
    rcases List.mem_append.mp hentry with hold | hadded
    · obtain ⟨m, hm, hidEq⟩ := h.numbered hstorage entry hold
      exact ⟨m, hm.trans hle, hidEq⟩
    · exact ⟨n, hn, List.mem_singleton.mp hadded ▸ hnew⟩
  · exact fun entry hentry hinactive => h.evicted entry hentry hinactive
  · change (repository.getByExperimentResultId call.experiment.id).isSome = true
    rw [EntryRepository.getByExperimentResultId, hentries]
    exact Option.isSome_of_eq_some (Table.get?_put_of_eq _ rfl)

/-- One step of any call. -/
theorem Overlap.advance (h : Overlap setting board)
    (hcall : board.calls.get? call.experimentId = some call) {id : String}
    (hid : setting.storage = .inMemory ∨ ∀ entry ∈ board.repository.entries.rows, entry.id ≠ id)
    (now : Int) : Overlap setting (advance setting.storage setting.backtesting board call id now) := by
  have hknown := h.phases call (Table.mem_rows_of_get? hcall)
  unfold InPhase at hknown
  cases hphase : call.phase with
  | lookup =>
    simp only [hphase] at hknown
    simp only [Leaderboard.advance, hphase, hknown]
    exact h.idle hcall hknown
  | read =>
    simp only [hphase] at hknown
    exact h.advance_read hcall hknown id now hphase
  | evict lowest evicted =>
    simp only [hphase] at hknown
    simp only [Leaderboard.advance, hphase]
    exact h.advance_evict hcall hknown.1 hknown.2 evicted
  | insert evicted =>
    simp only [hphase] at hknown
    exact h.advance_insert hcall hknown hid now hphase
  | rank inserted evicted =>
    simp only [hphase] at hknown
    simp only [Leaderboard.advance, hphase]
    exact h.idle hcall (.inl hknown)
  | returned result =>
    simp only [Leaderboard.advance, hphase]
    exact h

/-- Another call begins. -/
theorem Overlap.submit (h : Overlap setting board) {experiment : StoredExperiment}
    (henabled : setting.enabled board (.submit experiment)) :
    Overlap setting (setting.next board (.submit experiment)) := by
  obtain ⟨hnew, hscope, hcheck, hsearch⟩ := henabled
  rw [Option.isNone_iff_eq_none] at hnew
  have hput := Table.rows_put_of_none (v := (⟨experiment, .lookup⟩ : Call)) hnew
  have hkeep : ∀ id found, board.calls.get? id = some found →
      (board.calls.put ⟨experiment, .lookup⟩).get? id = some found := by
    intro id found hfound
    rw [Table.get?_put_of_ne _ ?_]
    · exact hfound
    · rintro rfl
      rw [show board.calls.get? (Call.experimentId ⟨experiment, .lookup⟩) = none from hnew] at hfound
      cases hfound
  have hcovered : ∀ id, Covered board id → Covered (setting.next board (.submit experiment)) id := by
    rintro id ⟨front, hnodup, hlength, hfront⟩
    refine ⟨front, hnodup, hlength, fun ahead hahead => ?_⟩
    obtain ⟨a, b, ha, hb, hbefore⟩ := hfront ahead hahead
    exact ⟨a, b, hkeep _ _ ha, hkeep _ _ hb, hbefore⟩
  have hmem : ∀ call ∈ (board.calls.put ⟨experiment, .lookup⟩).rows,
      call ∈ board.calls.rows ∨ call = ⟨experiment, .lookup⟩ := by
    intro call hcall
    rw [hput] at hcall
    simpa using hcall
  refine ⟨h.distinct, h.numbered, ?_, ?_, ?_, ?_⟩
  · intro entry hentry
    obtain ⟨maker, hmaker, hmade⟩ := h.made entry hentry
    exact ⟨maker, Table.mem_rows_of_get? (hkeep _ _ (Table.get?_of_mem_rows hmaker)), hmade⟩
  · intro call hcall
    rcases hmem call hcall with hold | rfl
    · exact h.begun call hold
    · exact ⟨hscope, hcheck, hsearch⟩
  · intro call hcall
    rcases hmem call hcall with hold | rfl
    · have hknown := h.phases call hold
      unfold InPhase at hknown ⊢
      split <;> rename_i hphase <;> simp only [hphase] at hknown
      · exact hknown
      · exact hknown
      · exact hknown
      · obtain ⟨hnone, entry, hentry, hid, hcover⟩ := hknown
        exact ⟨hnone, entry, hentry, hid, hcovered _ hcover⟩
      · exact hknown
      · exact hknown.imp_right (hcovered _)
    · change board.repository.getByExperimentResultId experiment.id = none
      cases hget : board.repository.getByExperimentResultId experiment.id with
      | none => rfl
      | some entry =>
        obtain ⟨maker, hmaker, hid, -⟩ := h.made entry (Table.mem_rows_of_get? hget)
        have hkey : entry.experimentResultId = experiment.id := Table.key_of_get? hget
        have hfound := Table.get?_of_mem_rows hmaker
        rw [show maker.experimentId = experiment.id from hid.trans hkey, hnew] at hfound
        cases hfound
  · exact fun entry hentry hinactive => hcovered _ (h.evicted entry hentry hinactive)

theorem Overlap.next (h : Overlap setting board) {step : BoardStep}
    (henabled : setting.enabled board step) : Overlap setting (setting.next board step) := by
  cases step with
  | submit experiment => exact h.submit henabled
  | advance experimentId id now =>
    simp only [Setting.next]
    split
    · exact h
    · rename_i call hcall
      have hkey : call.experimentId = experimentId := Table.key_of_get? hcall
      exact h.advance (hkey ▸ hcall) henabled.2 now

theorem overlap_start (setting : Setting) (sequence : Nat) :
    Overlap setting (Board.start sequence) := by
  constructor <;> simp [Board.start, Table.empty]

theorem after_overlap {steps : List BoardStep}
    (h : setting.system.Legal (fun _ _ => True)
      (Board.start setting.runtime.repository.sequence) steps) :
    Overlap setting (setting.after steps) :=
  h.invariant (Overlap setting) (fun _ _ hoverlap henabled _ => hoverlap.next henabled)
    (overlap_start setting _)

end Steps

section Returned

variable {setting : Setting} {board : Board}

/-- Once all calls have returned, those without an active entry are covered. -/
theorem Overlap.covered_of_returned (h : Overlap setting board)
    (hreturned : ∀ call ∈ board.calls.rows, call.isReturned = true) {call : Call}
    (hcall : call ∈ board.calls.rows)
    (hout : call.experiment.id ∉
      (board.repository.active setting.scopeId).map (·.experimentResultId)) :
    Covered board call.experiment.id := by
  have hknown : (board.repository.getByExperimentResultId call.experiment.id).isSome ∨
      Covered board call.experiment.id := by
    have hphase := h.phases call hcall
    have hdone := hreturned call hcall
    unfold InPhase at hphase
    unfold Call.isReturned at hdone
    split at hdone
    · rename_i hphaseEq
      simp only [hphaseEq] at hphase
      exact hphase
    · cases hdone
  rcases hknown with hsome | hcovered
  · obtain ⟨entry, hentry⟩ := Option.isSome_iff_exists.mp hsome
    have hrow := Table.mem_rows_of_get? hentry
    have hkey : entry.experimentResultId = call.experiment.id := Table.key_of_get? hentry
    rw [← hkey] at hout ⊢
    obtain ⟨maker, hmaker, -, -, hscope⟩ := h.made entry hrow
    refine h.evicted entry hrow ?_
    by_contra hactive
    refine hout (List.mem_map_of_mem (List.mem_filter.mpr ⟨hrow, ?_⟩))
    rw [← hscope, (h.begun maker hmaker).1]
    simpa using hactive
  · exact hcovered

/-- The active entries have the largest scores of all that were submitted. -/
theorem Overlap.largest_active (h : Overlap setting board)
    (hreturned : ∀ call ∈ board.calls.rows, call.isReturned = true) :
    largest topK ((board.repository.active setting.scopeId).map scoreOf)
      = largest topK (board.calls.rows.map Call.score) := by
  have hactive : ∀ entry ∈ board.repository.active setting.scopeId,
      entry ∈ board.repository.entries.rows := fun entry hentry => (active_subset hentry).1
  have hscores : ∀ calls : List Call, calls ⊆ board.calls.rows →
      (calls.map Call.experimentId).map (scoreFor board) = calls.map Call.score := by
    intro calls hsub
    rw [List.map_map]
    apply List.map_congr_left
    intro call hcall
    rw [Function.comp_apply, scoreFor, Table.get?_of_mem_rows (hsub hcall)]
    rfl
  have hselect := largest_filter_of_before (board.calls.rows.map Call.experimentId)
    (fun id => decide (id ∈ (board.repository.active setting.scopeId).map (·.experimentResultId)))
    (scoreFor board) topK before_irrefl before_trans (fun _ _ hbefore => hbefore.score_le) (by
      intro id hid hdropped
      obtain ⟨call, hcall, rfl⟩ := List.mem_map.mp hid
      obtain ⟨front, hnodup, hlength, hfront⟩ :=
        h.covered_of_returned hreturned hcall (of_decide_eq_false hdropped)
      refine ⟨front, hnodup, hlength, fun ahead hahead => ⟨?_, hfront ahead hahead⟩⟩
      obtain ⟨a, -, ha, -⟩ := hfront ahead hahead
      rw [← Table.key_of_get? ha]
      exact List.mem_map_of_mem (Table.mem_rows_of_get? ha))
  have hexperiments : ((board.calls.rows.map (·.experiment)).map (·.id)).Nodup := by
    rw [List.map_map]
    exact board.calls.nodup
  have hperm := entries_scores_perm (board.calls.rows.map (·.experiment)) hexperiments
    (board.repository.entries.nodup.sublist (List.filter_sublist.map _)) fun entry hentry => by
      obtain ⟨maker, hmaker, hid, hscore, -⟩ := h.made entry (hactive entry hentry)
      exact ⟨maker.experiment, List.mem_map_of_mem hmaker, hid, hscore⟩
  rw [List.filter_map, List.map_map] at hperm
  rw [hscores _ (List.Subset.refl _), List.filter_map, hscores _ List.filter_sublist.subset] at hselect
  rw [hselect]
  exact (largest_perm hperm).symm

end Returned

/-- Whatever the order of their steps, once all calls have returned `topK` shows the largest scores
that were submitted. -/
theorem topK_interleaved (setting : Setting) (userId : String) (steps : List BoardStep)
    (hreadable : ∃ entries, setting.runtime.topK userId setting.scopeId = .ok entries)
    (hlegal : setting.system.Legal (fun _ _ => True)
      (Board.start setting.runtime.repository.sequence) steps)
    (hreturned : ∀ call ∈ (setting.after steps).calls.rows, call.isReturned = true) :
    ∃ entries, topKOf setting.storage setting.backtesting
        { setting.runtime with repository := (setting.after steps).repository } userId
        setting.scopeId = .ok entries ∧
      entries.map (fun ranked => scoreOf ranked.entry)
        = largest topK ((setting.after steps).calls.rows.map Call.score) := by
  have hoverlap := after_overlap hlegal
  obtain ⟨entries, hread, htake, -, -, -, -⟩ := hoverlap.read setting.scopeId
  refine ⟨withRanks entries, ?_, ?_⟩
  · obtain ⟨before, hbefore⟩ := hreadable
    simp only [Runtime.topK, bind_eq_ok] at hbefore
    obtain ⟨allowed, hallowed, -⟩ := hbefore
    simp only [topKOf, bind_eq_ok]
    refine ⟨allowed, ?_, ?_⟩
    · exact hallowed
    · rw [hread]
      rfl
  · have hmap : (withRanks entries).map (fun ranked => scoreOf ranked.entry)
        = entries.map scoreOf := by
      conv_rhs => rw [← withRanks_entries entries, List.map_map]
      rfl
    rw [hmap, htake, take_rankEntries_scores (hoverlap.finite_active setting.scopeId),
      hoverlap.largest_active hreturned]

namespace Sample

def setting : Setting := ⟨.inMemory, .empty, runtime, "s"⟩

/-- Two calls that overlap: both read an empty board before either inserts. -/
def overlapping : List BoardStep :=
  [.submit (experiment "a" 5), .submit (experiment "b" 7), .advance "a" "" 0, .advance "b" "" 0,
    .advance "a" "" 0, .advance "b" "" 0, .advance "b" "" 0, .advance "a" "" 0, .advance "a" "" 0,
    .advance "b" "" 0]

end Sample

theorem topK_interleaved_overlapping :
    ∃ entries, topKOf Sample.setting.storage Sample.setting.backtesting
        { Sample.setting.runtime with
          repository := (Sample.setting.after Sample.overlapping).repository } "u"
        Sample.setting.scopeId = .ok entries ∧
      entries.map (fun ranked => scoreOf ranked.entry)
        = largest topK ((Sample.setting.after Sample.overlapping).calls.rows.map Call.score) :=
  topK_interleaved Sample.setting "u" Sample.overlapping ⟨[], by decide⟩ (by decide)
    (by decide)

end Cryptox.Leaderboard
