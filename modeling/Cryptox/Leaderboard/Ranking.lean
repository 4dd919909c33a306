import Mathlib.Data.Prod.Lex
import Mathlib.Data.String.Basic
import Cryptox.Library.Largest
import Cryptox.Leaderboard.Submission

/-!
# The order of a ranking

With finite scores `rankEntries` sorts by a key: the higher score first, then the earlier instant,
then the smaller id. The first entries carry the largest scores.
-/
namespace Cryptox.Leaderboard

open Cryptox.Backtesting
open Cryptox.Library

def rankKey (entry : LeaderboardEntry) : ℚᵒᵈ ×ₗ (ℤ ×ₗ String) :=
  toLex (OrderDual.toDual entry.score.toRat, toLex (entry.addedAt, entry.id))

/-- Finite scores, as `submit` demands of an experiment before it becomes an entry. -/
def Finite (entries : List LeaderboardEntry) : Prop :=
  ∀ entry ∈ entries, entry.score.isFinite = true

theorem rankKey_le_iff {left right : LeaderboardEntry} :
    rankKey left ≤ rankKey right ↔ right.score.toRat < left.score.toRat ∨
      right.score.toRat = left.score.toRat ∧ (left.addedAt < right.addedAt ∨
        left.addedAt = right.addedAt ∧ left.id ≤ right.id) := by
  rw [rankKey, rankKey, Prod.Lex.toLex_le_toLex, Prod.Lex.toLex_le_toLex, OrderDual.toDual_lt_toDual,
    OrderDual.toDual_inj]
  constructor
  · rintro (h | ⟨h, hrest⟩)
    · exact .inl h
    · exact .inr ⟨h.symm, hrest⟩
  · rintro (h | ⟨h, hrest⟩)
    · exact .inl h
    · exact .inr ⟨h.symm, hrest⟩

theorem ranksBefore_iff {left right : LeaderboardEntry} (hl : left.score.isFinite = true)
    (hr : right.score.isFinite = true) :
    ranksBefore left right = true ↔ rankKey left ≤ rankKey right := by
  have hlt := JsNumber.lt_iff hr hl
  have hgt := JsNumber.lt_iff hl hr
  rw [rankKey_le_iff]
  simp only [ranksBefore, Bool.or_eq_true, Bool.and_eq_true, Bool.not_eq_true', beq_iff_eq,
    decide_eq_true_eq, ← Bool.not_eq_true, hlt, hgt]
  constructor
  · rintro (h | ⟨hle, hrest⟩)
    · exact .inl h
    · rcases (not_lt.mp hle).lt_or_eq with h | h
      · exact .inl h
      · exact .inr ⟨h, hrest⟩
  · rintro (h | ⟨h, hrest⟩)
    · exact .inl h
    · exact .inr ⟨not_lt.mpr h.le, hrest⟩

/-- The order of the keys on entries. -/
def RanksAhead (left right : LeaderboardEntry) : Prop := rankKey left ≤ rankKey right

noncomputable instance : DecidableRel RanksAhead := fun _ _ => Classical.propDecidable _

instance : Std.Total RanksAhead := ⟨fun left right => le_total (rankKey left) (rankKey right)⟩

instance : IsTrans LeaderboardEntry RanksAhead :=
  ⟨fun _ _ _ h h' => le_trans (α := ℚᵒᵈ ×ₗ (ℤ ×ₗ String)) h h'⟩

variable {entries : List LeaderboardEntry}

theorem rankEntries_perm (entries : List LeaderboardEntry) : (rankEntries entries).Perm entries :=
  List.perm_insertionSort _ entries

theorem rankEntries_eq (h : Finite entries) :
    rankEntries entries = entries.insertionSort RanksAhead := by
  have hmap := List.map_insertionSort (fun left right => ranksBefore left right = true) RanksAhead id
    entries fun left hl right hr => ranksBefore_iff (h left hl) (h right hr)
  rw [List.map_id, List.map_id] at hmap
  exact hmap

theorem rankEntries_pairwise (h : Finite entries) : (rankEntries entries).Pairwise RanksAhead := by
  rw [rankEntries_eq h]
  exact List.pairwise_insertionSort _ entries

/-- What is ranked already stays as it is. -/
theorem rankEntries_of_pairwise (h : Finite entries) (hpairwise : entries.Pairwise RanksAhead) :
    rankEntries entries = entries := by
  rw [rankEntries_eq h]
  exact hpairwise.insertionSort_eq

def scoreOf (entry : LeaderboardEntry) : ℚ := entry.score.toRat

theorem RanksAhead.score_le {left right : LeaderboardEntry} (h : RanksAhead left right) :
    scoreOf right ≤ scoreOf left := by
  rcases rankKey_le_iff.mp h with hlt | ⟨heq, -⟩
  · exact hlt.le
  · exact heq.le

theorem rankEntries_scores (h : Finite entries) :
    (rankEntries entries).map scoreOf = descending (entries.map scoreOf) := by
  apply descending_eq ((rankEntries_perm entries).map scoreOf)
  rw [List.pairwise_map]
  exact (rankEntries_pairwise h).imp fun hahead => hahead.score_le

/-- The first entries of a ranking have the largest scores. -/
theorem take_rankEntries_scores (h : Finite entries) (k : Nat) :
    ((rankEntries entries).take k).map scoreOf = largest k (entries.map scoreOf) := by
  rw [List.map_take, rankEntries_scores h, largest]

/-- The last of a ranking ranks behind every other. -/
theorem ranksAhead_getLast (hpairwise : entries.Pairwise RanksAhead) {lowest : LeaderboardEntry}
    (hlast : entries.getLast? = some lowest) {entry : LeaderboardEntry} (hmem : entry ∈ entries) :
    RanksAhead entry lowest := by
  obtain ⟨front, rfl⟩ := List.getLast?_eq_some_iff.mp hlast
  rcases List.mem_append.mp hmem with hfront | hlowest
  · exact (List.pairwise_append.mp hpairwise).2.2 entry hfront lowest (by simp)
  · rw [List.mem_singleton.mp hlowest]
    exact le_refl (rankKey lowest)

section Admission

variable {experiment : StoredExperiment} (hfinite : Finite entries)
  (hscore : experiment.overallScore.isFinite = true)

include hfinite hscore

/-- Who is evicted: the last of a full board, for a higher score. -/
theorem admission_eq_some {evicted : Option String}
    (h : admission entries experiment = some evicted) :
    (evicted = none ∧ entries.length ≠ topK) ∨
      ∃ lowest, evicted = some lowest.id ∧ entries.getLast? = some lowest ∧ entries.length = topK ∧
        scoreOf lowest < experiment.overallScore.toRat := by
  unfold admission at h
  split at h
  · rename_i hfull
    split at h
    · rename_i lowest hlast
      split at h
      · cases h
      · rename_i hle
        cases h
        have hlow := (JsNumber.le_iff hscore (hfinite lowest (List.mem_of_getLast? hlast))).not.mp hle
        exact .inr ⟨lowest, rfl, hlast, hfull, not_le.mp hlow⟩
    · rename_i hlast
      rw [List.getLast?_eq_none_iff] at hlast
      rw [hlast] at hfull
      cases hfull
  · rename_i hfree
    cases h
    exact .inl ⟨rfl, hfree⟩

variable (hpairwise : entries.Pairwise RanksAhead)

include hpairwise in
/-- Who is turned away: a board that is full of scores as high. -/
theorem admission_eq_none (h : admission entries experiment = none) :
    entries.length = topK ∧ ∀ entry ∈ entries, experiment.overallScore.toRat ≤ scoreOf entry := by
  unfold admission at h
  split at h
  · rename_i hfull
    split at h
    · rename_i lowest hlast
      split at h
      · rename_i hle
        have hlow := (JsNumber.le_iff hscore (hfinite lowest (List.mem_of_getLast? hlast))).mp hle
        exact ⟨hfull, fun entry hmem => hlow.trans (ranksAhead_getLast hpairwise hlast hmem).score_le⟩
      · cases h
    · cases h
  · cases h

/-- A full board of higher or equal scores turns an experiment away. -/
theorem admission_of_le (hfull : entries.length = topK)
    (hle : ∀ entry ∈ entries, experiment.overallScore.toRat ≤ scoreOf entry) :
    admission entries experiment = none := by
  cases h : admission entries experiment with
  | none => rfl
  | some evicted =>
    rcases admission_eq_some hfinite hscore h with ⟨-, hfree⟩ | ⟨lowest, -, hlast, -, hlt⟩
    · exact absurd hfull hfree
    · exact absurd (hle lowest (List.mem_of_getLast? hlast)) (not_le.mpr hlt)

end Admission

/-- The scores of entries are those of the experiments that have one of them. -/
theorem entries_scores_perm (experiments : List StoredExperiment)
    (hnodup : (experiments.map (·.id)).Nodup)
    (hentries : (entries.map (·.experimentResultId)).Nodup)
    (hmade : ∀ entry ∈ entries, ∃ experiment ∈ experiments,
      experiment.id = entry.experimentResultId ∧ experiment.overallScore = entry.score) :
    ((experiments.filter fun experiment => decide (experiment.id ∈ entries.map
        (·.experimentResultId))).map fun experiment => experiment.overallScore.toRat).Perm
      (entries.map scoreOf) := by
  -- each list is read as pairs of an id and a score, and these are the same pairs
  have hpairs : ((experiments.filter fun experiment => decide (experiment.id ∈ entries.map
      (·.experimentResultId))).map fun experiment => (experiment.id, experiment.overallScore)).Perm
        (entries.map fun entry => (entry.experimentResultId, entry.score)) := by
    rw [List.perm_ext_iff_of_nodup]
    · rintro ⟨id, score⟩
      simp only [List.mem_map, List.mem_filter, decide_eq_true_eq, Prod.mk.injEq]
      constructor
      · rintro ⟨experiment, ⟨hmem, entry, hentry, hid⟩, rfl, rfl⟩
        obtain ⟨maker, hmaker, hmakerId, hscore⟩ := hmade entry hentry
        obtain rfl : maker = experiment :=
          List.inj_on_of_nodup_map hnodup hmaker hmem (hmakerId.trans hid)
        exact ⟨entry, hentry, hid, hscore.symm⟩
      · rintro ⟨entry, hentry, rfl, rfl⟩
        obtain ⟨maker, hmaker, hmakerId, hscore⟩ := hmade entry hentry
        exact ⟨maker, ⟨hmaker, entry, hentry, hmakerId.symm⟩, hmakerId, hscore⟩
    · refine List.Nodup.of_map Prod.fst ?_
      rw [List.map_map]
      exact hnodup.sublist (List.filter_sublist.map _)
    · refine List.Nodup.of_map Prod.fst ?_
      rw [List.map_map]
      exact hentries
  have hscores := hpairs.map fun pair => pair.2.toRat
  rw [List.map_map, List.map_map] at hscores
  exact hscores

end Cryptox.Leaderboard
