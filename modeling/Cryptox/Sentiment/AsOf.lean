import Cryptox.Backtesting.Simulator
import Cryptox.Sentiment.Windows

/-!
# What a snapshot tells at a close

The point at the end of a window averages the scores of the results published in it, in the order
of the rows. The sums are those of doubles: another order may round to another average.
-/
namespace Cryptox.Sentiment

open Cryptox.Backtesting (SimulationInput Calendar)
open Cryptox.Library

section Specification

variable (command : SnapshotCommand) (rows : List StoredResult)

/-- The results of a command that were published in the window ending at the timestamp. -/
def countsAt (timestamp : Int) (row : StoredResult) : Bool :=
  row.isFor command && row.isPublishedIn command
    && command.InWindow timestamp row.news.publishedAt.val

def scoresAt (timestamp : Int) : List ℚ :=
  (rows.filter (countsAt command timestamp)).map (·.score.toRat)

def pointAt (timestamp : Int) : SentimentSnapshotPoint :=
  let average := averageScore (scoresAt command rows timestamp)
  { timestamp, label := sentimentLabelFor average, averageScore := average }

/-- The exact mean. -/
def mean (scores : List ℚ) : ℚ := scores.sum / scores.length

/-- How far the rounded average of so many scores may be from the exact mean. -/
def roundingBound (count : Nat) : ℚ := 1 / (2 * 10 ^ 12) + (count + 1) / 2 ^ 52

/-- The points of the windows that results were published in. -/
structure Aggregates (points : List SentimentSnapshotPoint) : Prop where
  increasing : (points.map (·.timestamp)).Pairwise (· < ·)
  mem_iff : ∀ point, point ∈ points ↔ command.IsWindowEnd point.timestamp ∧
    scoresAt command rows point.timestamp ≠ [] ∧ point = pointAt command rows point.timestamp
  bounded : ∀ point ∈ points, |point.averageScore| ≤ 1

end Specification

section Gathering

variable {command : SnapshotCommand} {rows : List StoredResult}

/-- A row goes to the window whose end is computed for it. -/
def fallsInto (command : SnapshotCommand) (endsAt : ℚ) (row : StoredResult) : Bool :=
  row.isFor command && row.isPublishedIn command
    && decide (command.windowEnd row.news.publishedAt.val ≤ command.toTime.val)
    && decide (command.windowEnd row.news.publishedAt.val = endsAt)

theorem addRow_eq (windows : Windows) (row : StoredResult) :
    addRow command windows row =
      if fallsInto command (command.windowEnd row.news.publishedAt.val) row then
        windows.put ⟨command.windowEnd row.news.publishedAt.val,
          windows.scoresAt (command.windowEnd row.news.publishedAt.val) ++ [row.score.toRat]⟩
      else windows := by
  rw [addRow, fallsInto]
  cases hfor : row.isFor command
  · simp
  · cases hin : row.isPublishedIn command
    · simp
    · by_cases hend : command.windowEnd row.news.publishedAt.val ≤ command.toTime.val
      · simp [hend, hend.not_gt]
      · simp [hend, not_le.mp hend]

theorem scoresAt_addRow (windows : Windows) (row : StoredResult) (endsAt : ℚ) :
    (addRow command windows row).scoresAt endsAt =
      windows.scoresAt endsAt ++ if fallsInto command endsAt row then [row.score.toRat] else [] := by
  rw [addRow_eq]
  by_cases hend : command.windowEnd row.news.publishedAt.val = endsAt
  · subst hend
    split_ifs with hfalls
    · simp [Windows.scoresAt, Table.get?_put]
    · simp
  · have hother : fallsInto command endsAt row = false := by simp [fallsInto, hend]
    rw [hother, if_neg Bool.false_ne_true, List.append_nil]
    split_ifs with hfalls
    · have hput := Table.get?_put_of_ne windows (v := ⟨command.windowEnd row.news.publishedAt.val,
        windows.scoresAt (command.windowEnd row.news.publishedAt.val) ++ [row.score.toRat]⟩)
        (Ne.symm hend)
      rw [Windows.scoresAt, hput]
      rfl
    · rfl

/-- The windows hold what fell into them, in the order of the rows. -/
theorem scoresAt_foldl (rows : List StoredResult) (endsAt : ℚ) :
    (rows.foldl (addRow command) .empty).scoresAt endsAt =
      (rows.filter (fallsInto command endsAt)).map (·.score.toRat) := by
  induction rows using List.reverseRecOn with
  | nil => rfl
  | append_singleton rows row ih =>
    rw [List.foldl_append, List.foldl_cons, List.foldl_nil, scoresAt_addRow, ih,
      List.filter_append, List.map_append]
    congr 1
    by_cases hfalls : fallsInto command endsAt row <;> simp [hfalls]

/-- No window is empty. -/
theorem scores_ne_nil (rows : List StoredResult) :
    ∀ window ∈ (rows.foldl (addRow command) .empty).rows, window.scores ≠ [] := by
  induction rows using List.reverseRecOn with
  | nil => exact fun window hmem => absurd hmem List.not_mem_nil
  | append_singleton rows row ih =>
    intro window hmem
    rw [List.foldl_append, List.foldl_cons, List.foldl_nil, addRow_eq] at hmem
    split_ifs at hmem with hfalls
    · rcases Table.mem_rows_put hmem with rfl | hold
      · simp
      · exact ih window hold
    · exact ih window hmem

/-- In a window of the range lies what was published in it. -/
theorem fallsInto_eq_countsAt {timestamp : Int} (h : command.IsWindowEnd timestamp)
    (row : StoredResult) : fallsInto command timestamp row = countsAt command timestamp row := by
  rw [fallsInto, countsAt]
  cases hfor : row.isFor command
  · rfl
  · cases hin : row.isPublishedIn command
    · rfl
    · obtain ⟨hfrom, hto⟩ := by simpa [StoredResult.isPublishedIn] using hin
      have hiff := command.windowEnd_eq_iff timestamp hfrom hto.le
      simp only [Bool.true_and, ← Bool.decide_and, decide_eq_decide]
      exact hiff.trans (and_iff_right h)

/-- What fell into a window fell into one of the range. -/
theorem isWindowEnd_of_fallsInto {endsAt : ℚ} {row : StoredResult}
    (h : fallsInto command endsAt row = true) :
    ∃ timestamp : Int, endsAt = timestamp ∧ command.IsWindowEnd timestamp := by
  simp only [fallsInto, StoredResult.isPublishedIn, Bool.and_eq_true, decide_eq_true_eq] at h
  obtain ⟨⟨⟨-, hfrom, hto⟩, hle⟩, rfl⟩ := h
  rcases command.windowEnd_cases hfrom hto.le with ⟨hin, hexact⟩ | ⟨-, hout⟩
  · exact ⟨_, hexact, _, le_max_left _ _, rfl, hin⟩
  · exact absurd hle hout.not_ge

/-- Every window gathered ends at an instant of the range, with the scores published in it. -/
theorem window_spec {window : Window} (h : window ∈ (rows.foldl (addRow command) .empty).rows) :
    ∃ timestamp : Int, window.endsAt = timestamp ∧ command.IsWindowEnd timestamp ∧
      window.scores = scoresAt command rows timestamp ∧ window.scores ≠ [] := by
  have hget := Table.get?_of_mem_rows h
  have hscores : window.scores =
      (rows.filter (fallsInto command window.endsAt)).map (·.score.toRat) := by
    rw [← scoresAt_foldl, Windows.scoresAt, hget]
    rfl
  have hne := scores_ne_nil rows window h
  have hrows : rows.filter (fallsInto command window.endsAt) ≠ [] := by
    intro hnil
    rw [hnil] at hscores
    exact hne hscores
  obtain ⟨row, hrow⟩ := List.exists_mem_of_ne_nil _ hrows
  obtain ⟨timestamp, htime, hend⟩ := isWindowEnd_of_fallsInto (List.mem_filter.mp hrow).2
  refine ⟨timestamp, htime, hend, ?_, hne⟩
  rw [hscores, htime, scoresAt, List.filter_congr fun row _ => fallsInto_eq_countsAt hend row]

/-- Every window of the range that scores were published in is gathered. -/
theorem exists_window {timestamp : Int} (h : command.IsWindowEnd timestamp)
    (hscores : scoresAt command rows timestamp ≠ []) :
    ∃ window ∈ (rows.foldl (addRow command) .empty).rows, window.endsAt = timestamp := by
  have hgathered : (rows.foldl (addRow command) .empty).scoresAt timestamp ≠ [] := by
    rw [scoresAt_foldl, List.filter_congr fun row _ => fallsInto_eq_countsAt h row]
    exact hscores
  cases hget : (rows.foldl (addRow command) .empty).get? (timestamp : ℚ) with
  | none =>
    rw [Windows.scoresAt, hget] at hgathered
    exact absurd rfl hgathered
  | some window =>
    exact ⟨window, Table.mem_rows_of_get? hget, Table.key_of_get? hget⟩

end Gathering

section Points

variable {command : SnapshotCommand} {rows : List StoredResult}
  {points : List SentimentSnapshotPoint}

theorem pointOf_eq_ok {window : Window} {point : SentimentSnapshotPoint}
    (h : pointOf window = .ok point) :
    point = ⟨⌊window.endsAt⌋, sentimentLabelFor (averageScore window.scores),
      averageScore window.scores⟩ ∧ |point.averageScore| ≤ 1 := by
  obtain ⟨_, hrange, h⟩ := bind_eq_ok.mp h
  obtain rfl := pure_eq_ok.mp h
  have hrange := throwIf_eq_ok.mp hrange
  simp only [Bool.or_eq_false_iff, decide_eq_false_iff_not, not_lt] at hrange
  exact ⟨rfl, abs_le.mpr hrange⟩

/-- The points are those of the windows that results were published in. -/
theorem aggregates_of_ok (h : aggregateSnapshotPoints command rows = .ok points) :
    Aggregates command rows points := by
  let windows := rows.foldl (addRow command) .empty
  obtain ⟨rfl, hpoints⟩ := mapM_eq_ok_map (fun _ _ _ hok => (pointOf_eq_ok hok).1) h
  have hmem : ∀ window ∈ windows.rows.insertionSort Window.Earlier, window ∈ windows.rows :=
    fun window hwindow => (List.mem_insertionSort _).mp hwindow
  have hsorted : (windows.rows.insertionSort Window.Earlier).Pairwise
      fun left right => left.endsAt < right.endsAt := by
    have hle := List.pairwise_insertionSort Window.Earlier windows.rows
    have hnodup : ((windows.rows.insertionSort Window.Earlier).map Window.endsAt).Nodup :=
      ((List.perm_insertionSort _ _).map _).nodup_iff.mpr windows.nodup
    exact (hle.and (List.pairwise_map.mp hnodup)).imp fun hpair => lt_of_le_of_ne hpair.1 hpair.2
  refine ⟨?_, fun point => ⟨fun hpoint => ?_, fun hpoint => ?_⟩, fun point hpoint => ?_⟩
  · rw [List.map_map]
    refine List.pairwise_map.mpr (hsorted.imp_of_mem fun {left right} hleft hright hlt => ?_)
    obtain ⟨s, hs, -⟩ := window_spec (hmem left hleft)
    obtain ⟨t, ht, -⟩ := window_spec (hmem right hright)
    rw [hs, ht] at hlt
    simp only [Function.comp, hs, ht, Int.floor_intCast]
    exact_mod_cast hlt
  · obtain ⟨window, hwindow, rfl⟩ := List.mem_map.mp hpoint
    obtain ⟨timestamp, htime, hend, hscores, hne⟩ := window_spec (hmem window hwindow)
    simp only [htime, Int.floor_intCast]
    exact ⟨hend, hscores ▸ hne, by rw [hscores]; rfl⟩
  · obtain ⟨hend, hne, hpoint⟩ := hpoint
    obtain ⟨window, hwindow, htime⟩ := exists_window hend hne
    obtain ⟨timestamp, htime', -, hscores, -⟩ := window_spec hwindow
    obtain rfl : point.timestamp = timestamp := by exact_mod_cast htime.symm.trans htime'
    refine List.mem_map.mpr ⟨window, (List.mem_insertionSort _).mpr hwindow, ?_⟩
    rw [htime, Int.floor_intCast, hscores, hpoint]
    rfl
  · obtain ⟨window, hwindow, rfl⟩ := List.mem_map.mp hpoint
    exact (pointOf_eq_ok (hpoints window hwindow)).2

end Points

section Averages

variable {scores : List ℚ}

theorem abs_sum_le (h : ∀ score ∈ scores, |score| ≤ 1) : |scores.sum| ≤ scores.length := by
  induction scores with
  | nil => simp
  | cons score scores ih =>
    have hrest := ih fun s hs => h s (List.mem_cons_of_mem _ hs)
    have hfirst := h score List.mem_cons_self
    rw [List.sum_cons, List.length_cons]
    push_cast
    calc |score + scores.sum| ≤ |score| + |scores.sum| := abs_add_le _ _
      _ ≤ scores.length + 1 := by linarith

theorem abs_div_length_le {sum : ℚ} (hne : scores ≠ []) (h : |sum| ≤ scores.length) :
    |sum / scores.length| ≤ 1 := by
  have hpos : (0 : ℚ) < scores.length := by exact_mod_cast List.length_pos_iff.mpr hne
  rw [abs_div, abs_of_pos hpos, div_le_one hpos]
  exact h

/-- Up to `2 ^ 53` scores the sum, the quotient, the twelve decimals and their reading add up. -/
theorem averageScore_near_of_length_le (hne : scores ≠ []) (h : ∀ score ∈ scores, |score| ≤ 1)
    (hlength : scores.length ≤ 2 ^ 53) :
    |averageScore scores - mean scores| ≤ 1 / (2 * 10 ^ 12) + (scores.length + 2) / 2 ^ 53 := by
  obtain ⟨hsum, herror⟩ := roundedSum_bounds h hlength
  have hpos : (0 : ℚ) < scores.length := by exact_mod_cast List.length_pos_iff.mpr hne
  have hquotient := abs_div_length_le hne hsum
  have hdivided := abs_roundDouble_sub_le_max (roundedSum scores / scores.length)
  rw [max_eq_right hquotient] at hdivided
  have hone : IsDouble 1 := by exact_mod_cast isDouble_natCast (n := 1) (by norm_num)
  have hprinted := abs_fixedValue_sub_le 12 (abs_roundDouble_le hone hquotient)
  have hsummed : |roundedSum scores / scores.length - mean scores| ≤ scores.length / 2 ^ 53 := by
    rw [mean, ← sub_div, abs_div, abs_of_pos hpos, div_le_iff₀ hpos]
    calc |roundedSum scores - scores.sum| ≤ scores.length * scores.length / 2 ^ 53 := herror
      _ = scores.length / 2 ^ 53 * scores.length := by ring
  have hfirst := abs_sub_le (averageScore scores)
    (roundDouble (roundedSum scores / scores.length)) (mean scores)
  have hsecond := abs_sub_le (roundDouble (roundedSum scores / scores.length))
    (roundedSum scores / scores.length) (mean scores)
  rw [averageScore] at hfirst ⊢
  rw [add_div]
  linarith

theorem averageScore_near (hne : scores ≠ []) (h : ∀ score ∈ scores, |score| ≤ 1)
    (hbound : |averageScore scores| ≤ 1) :
    |averageScore scores - mean scores| ≤ roundingBound scores.length := by
  rw [roundingBound]
  by_cases hlength : scores.length ≤ 2 ^ 53
  · refine (averageScore_near_of_length_le hne h hlength).trans ?_
    have hnonneg : (0 : ℚ) ≤ scores.length := Nat.cast_nonneg _
    linarith
  · -- so many scores leave no bound but the range
    have hmean : |mean scores| ≤ 1 := abs_div_length_le hne (abs_sum_le h)
    have hlarge : (2 : ℚ) ^ 53 ≤ scores.length := by exact_mod_cast (not_le.mp hlength).le
    have htriangle := abs_sub (averageScore scores) (mean scores)
    linarith

theorem abs_scoresAt_le {command : SnapshotCommand} {rows : List StoredResult} {timestamp : Int} :
    ∀ score ∈ scoresAt command rows timestamp, |score| ≤ 1 := by
  intro score hscore
  obtain ⟨row, -, rfl⟩ := List.mem_map.mp hscore
  exact row.inRange

end Averages

section Reading

variable {snapshot : SealedSentimentSnapshot} {rows : List StoredResult}

theorem guard_eq_some {p : Prop} [Decidable p] {u : Unit} :
    (guard p : Option Unit) = some u ↔ p := by
  rw [guard]
  split_ifs with h <;> simp [h]

/-- A window of the range ends at the close that falls into it. -/
theorem windowEnd_of_isWindowEnd {command : SnapshotCommand} {close : Int}
    (h : command.IsWindowEnd close) :
    (command.fromTime.val < close ∧ close ≤ command.toTime.val) ∧
      command.windowEnd close = close := by
  have hpos := command.window_pos
  have hinside : command.InWindow close close := Or.inl ⟨by omega, le_rfl⟩
  have hrange : command.fromTime.val < close ∧ close ≤ command.toTime.val := by
    obtain ⟨k, hk, rfl, hle⟩ := h
    have hlength : command.window ≤ k * command.window := le_mul_of_one_le_left hpos.le hk
    exact ⟨by omega, hle⟩
  exact ⟨hrange, ((command.windowEnd_eq_iff _ hrange.1.le hrange.2).mpr ⟨h, hinside⟩).2⟩

/-- The lookup finds the point stamped with the close, and no other. -/
theorem pointForCandle_eq_some_iff (h : Aggregates snapshot.ref.command rows snapshot.points)
    {snapshotId : String} {candleCloseTime : Option Int} {point : SentimentSnapshotPoint} :
    pointForCandle snapshot snapshotId candleCloseTime = some point ↔
      snapshot.ref.id = snapshotId ∧ point ∈ snapshot.points ∧
        candleCloseTime = some point.timestamp := by
  simp only [pointForCandle, Option.bind_eq_bind, Option.bind_eq_some_iff, guard_eq_some,
    exists_const]
  constructor
  · rintro ⟨hid, close, rfl, -, ⟨-, hclose⟩, hfind⟩
    refine ⟨hid, List.mem_of_find?_eq_some hfind, congrArg some ?_⟩
    have htime : point.timestamp = ⌊snapshot.ref.command.windowEnd close⌋ := by
      simpa using List.find?_some hfind
    rw [htime, hclose, Int.floor_intCast]
  · rintro ⟨hid, hpoint, rfl⟩
    obtain ⟨hend, -, hexact⟩ := (h.mem_iff point).mp hpoint
    obtain ⟨hrange, hclose⟩ := windowEnd_of_isWindowEnd hend
    refine ⟨hid, _, rfl, hrange, ⟨by rw [hclose]; exact_mod_cast hrange.2, hclose⟩, ?_⟩
    rw [hclose, Int.floor_intCast]
    cases hfind : snapshot.points.find? fun candidate => candidate.timestamp = point.timestamp with
    | none =>
      have hnone := List.find?_eq_none.mp hfind point hpoint
      exact absurd (decide_eq_true rfl) hnone
    | some found =>
      have htime : found.timestamp = point.timestamp := by simpa using List.find?_some hfind
      have hfound := ((h.mem_iff found).mp (List.mem_of_find?_eq_some hfind)).2.2
      rw [hfound, hexact, htime]

end Reading

end Cryptox.Sentiment
