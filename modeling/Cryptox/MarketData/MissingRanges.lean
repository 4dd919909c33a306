import Cryptox.MarketData.Rules

/-!
# What is missing from a range

The scan of a range keeps the gaps it has closed and where the open one starts. They are in order,
apart from each other, and cover just the scanned points that no closed candle starts at.
-/
namespace Cryptox.MarketData

open Cryptox.Backtesting (Timeframe)

/-- What a scan from a start has found before a point. -/
structure Scanned (existing : List Int) (start interval point : Int)
    (scanned : List Range × Option Int) : Prop where
  ordered : scanned.1.Pairwise fun left right => left.toTime < right.fromTime
  inside : ∀ gap ∈ scanned.1,
    start ≤ gap.fromTime ∧ gap.fromTime < gap.toTime ∧ gap.toTime < point
  aligned : ∀ gap ∈ scanned.1, interval ∣ gap.fromTime - start ∧ interval ∣ gap.toTime - start
  opened : ∀ first ∈ scanned.2, start ≤ first ∧ first < point ∧ interval ∣ first - start ∧
    ∀ gap ∈ scanned.1, gap.toTime < first
  covers : ∀ timestamp, interval ∣ timestamp - start → start ≤ timestamp → timestamp < point →
    (timestamp ∉ existing ↔
      (∃ gap ∈ scanned.1, gap.fromTime ≤ timestamp ∧ timestamp < gap.toTime) ∨
        ∃ first ∈ scanned.2, first ≤ timestamp)

namespace Scanned

variable {existing : List Int} {start interval point : Int} {scanned : List Range × Option Int}

theorem init : Scanned existing start interval start ([], none) where
  ordered := List.Pairwise.nil
  inside _ h := absurd h List.not_mem_nil
  aligned _ h := absurd h List.not_mem_nil
  opened _ h := absurd h (Option.not_mem_none _)
  covers _ _ hstart hpoint := absurd hstart (not_le.mpr hpoint)

/-- Before the next point lie the points before this one, and it. -/
theorem lt_or_eq {timestamp : Int} (hpoint : interval ∣ point - start)
    (htimestamp : interval ∣ timestamp - start) (hlt : timestamp < point + interval) :
    timestamp < point ∨ timestamp = point := by
  by_contra hnot
  have hdvd : interval ∣ timestamp - point := by
    have hsub := dvd_sub htimestamp hpoint
    rwa [sub_sub_sub_cancel_right] at hsub
  have hle := Int.le_of_dvd (by omega) hdvd
  omega

theorem next (h : Scanned existing start interval point scanned) (hpos : 0 < interval)
    (hstart : start ≤ point) (hpoint : interval ∣ point - start) :
    Scanned existing start interval (point + interval) (scanGap existing scanned point) := by
  obtain ⟨gaps, opened⟩ := scanned
  rw [scanGap]
  by_cases hexists : point ∈ existing
  · rw [if_pos hexists]
    cases opened with
    | none =>
      refine ⟨h.ordered, fun gap hgap => ?_, h.aligned, fun _ hfirst => (by cases hfirst), ?_⟩
      · obtain ⟨hfrom, hne, hto⟩ := h.inside gap hgap
        exact ⟨hfrom, hne, by omega⟩
      · intro timestamp haligned hfrom hto
        rcases lt_or_eq hpoint haligned hto with hlt | rfl
        · exact h.covers timestamp haligned hfrom hlt
        · refine iff_of_false (fun hnot => hnot hexists) ?_
          rintro (⟨gap, hgap, -, hcovered⟩ | ⟨first, hfirst, -⟩)
          · have hbefore := (h.inside gap hgap).2.2
            omega
          · cases hfirst
    | some first =>
      obtain ⟨hfirst, hbefore, hgrid, hafter⟩ := h.opened first rfl
      refine ⟨?_, ?_, ?_, fun _ hfirst => (by cases hfirst), ?_⟩
      · refine List.pairwise_append.mpr ⟨h.ordered, List.pairwise_singleton _ _, ?_⟩
        intro gap hgap last hlast
        rw [List.mem_singleton.mp hlast]
        exact hafter gap hgap
      · intro gap hgap
        rcases List.mem_append.mp hgap with hgap | hgap
        · obtain ⟨hfrom, hne, hto⟩ := h.inside gap hgap
          exact ⟨hfrom, hne, by omega⟩
        · rw [List.mem_singleton.mp hgap]
          exact ⟨hfirst, hbefore, by dsimp only; omega⟩
      · intro gap hgap
        rcases List.mem_append.mp hgap with hgap | hgap
        · exact h.aligned gap hgap
        · rw [List.mem_singleton.mp hgap]
          exact ⟨hgrid, hpoint⟩
      · intro timestamp haligned hfrom hto
        rcases lt_or_eq hpoint haligned hto with hlt | rfl
        · rw [h.covers timestamp haligned hfrom hlt]
          constructor
          · rintro (⟨gap, hgap, hcovered⟩ | ⟨other, hother, hle⟩)
            · exact Or.inl ⟨gap, List.mem_append_left _ hgap, hcovered⟩
            · cases hother
              exact Or.inl ⟨_, List.mem_append_right _ List.mem_cons_self, hle, hlt⟩
          · rintro (⟨gap, hgap, hcovered⟩ | ⟨other, hother, -⟩)
            · rcases List.mem_append.mp hgap with hgap | hgap
              · exact Or.inl ⟨gap, hgap, hcovered⟩
              · rw [List.mem_singleton.mp hgap] at hcovered
                exact Or.inr ⟨first, rfl, hcovered.1⟩
            · cases hother
        · refine iff_of_false (fun hnot => hnot hexists) ?_
          rintro (⟨gap, hgap, -, hcovered⟩ | ⟨other, hother, -⟩)
          · rcases List.mem_append.mp hgap with hgap | hgap
            · have hlast := (h.inside gap hgap).2.2
              omega
            · rw [List.mem_singleton.mp hgap] at hcovered
              exact lt_irrefl _ hcovered
          · cases hother
  · rw [if_neg hexists]
    have hinside : ∀ gap ∈ gaps,
        start ≤ gap.fromTime ∧ gap.fromTime < gap.toTime ∧ gap.toTime < point + interval := by
      intro gap hgap
      obtain ⟨hfrom, hne, hto⟩ := h.inside gap hgap
      exact ⟨hfrom, hne, by omega⟩
    cases opened with
    | none =>
      change Scanned existing start interval (point + interval) (gaps, some point)
      refine ⟨h.ordered, hinside, h.aligned, fun first hfirst => ?_, ?_⟩
      · cases hfirst
        exact ⟨hstart, by omega, hpoint, fun gap hgap => (h.inside gap hgap).2.2⟩
      · intro timestamp haligned hfrom hto
        rcases lt_or_eq hpoint haligned hto with hlt | rfl
        · rw [h.covers timestamp haligned hfrom hlt]
          constructor
          · rintro (hcovered | ⟨first, hfirst, -⟩)
            · exact Or.inl hcovered
            · cases hfirst
          · rintro (hcovered | ⟨first, hfirst, hle⟩)
            · exact Or.inl hcovered
            · cases hfirst
              omega
        · exact iff_of_true hexists (Or.inr ⟨_, rfl, le_rfl⟩)
    | some first =>
      change Scanned existing start interval (point + interval) (gaps, some first)
      obtain ⟨hfirst, hbefore, hgrid, hafter⟩ := h.opened first rfl
      refine ⟨h.ordered, hinside, h.aligned, fun other hother => ?_, ?_⟩
      · cases hother
        exact ⟨hfirst, by omega, hgrid, hafter⟩
      · intro timestamp haligned hfrom hto
        rcases lt_or_eq hpoint haligned hto with hlt | rfl
        · exact h.covers timestamp haligned hfrom hlt
        · exact iff_of_true hexists (Or.inr ⟨first, rfl, hbefore.le⟩)

theorem foldl (existing : List Int) (start : Int) (hpos : 0 < interval) (count : Nat) :
    Scanned existing start interval (start + count * interval)
      (((List.range count).map fun i : Nat => start + i * interval).foldl (scanGap existing)
        ([], none)) := by
  induction count with
  | zero =>
    rw [List.range_zero, List.map_nil, List.foldl_nil, Nat.cast_zero, zero_mul, add_zero]
    exact init
  | succ count ih =>
    rw [List.range_succ, List.map_append, List.foldl_append, Nat.cast_succ, add_mul, one_mul,
      ← add_assoc]
    refine ih.next hpos ?_ ?_
    · have hnonneg : 0 ≤ (count : Int) * interval := by positivity
      omega
    · exact ⟨count, by ring⟩

end Scanned

/-- The gaps of a range tell which of its grid points no closed candle starts at. -/
structure AreGaps (candles : List Candle) (range : Range) (timeframe : Timeframe)
    (gaps : List Range) : Prop where
  apart : gaps.Pairwise fun left right => left.toTime < right.fromTime
  inside : ∀ gap ∈ gaps, range.fromTime ≤ gap.fromTime ∧ gap.fromTime < gap.toTime ∧
    gap.toTime ≤ range.toTime
  aligned : ∀ gap ∈ gaps, gap.fromTime % timeframe.ms = 0 ∧ gap.toTime % timeframe.ms = 0
  exact : ∀ timestamp, timestamp % timeframe.ms = 0 →
    ((∃ gap ∈ gaps, gap.fromTime ≤ timestamp ∧ timestamp < gap.toTime) ↔
      range.fromTime ≤ timestamp ∧ timestamp < range.toTime ∧
        ¬ ∃ candle ∈ candles, candle.isClosed = true ∧ candle.timestamp = timestamp)

section Ranges

variable {candles : List Candle} {range : Range} {timeframe : Timeframe}

/-- The loop of a range that ends on the grid of its start ends where the range does. -/
theorem gridSize_mul_of_dvd (hdvd : timeframe.ms ∣ range.toTime - range.fromTime)
    (hle : range.fromTime ≤ range.toTime) :
    range.fromTime + gridSize range timeframe * timeframe.ms = range.toTime := by
  have hms := ms_pos timeframe
  obtain ⟨k, hk⟩ := hdvd
  have hk0 : 0 ≤ k := by
    by_contra hneg
    have hlt : timeframe.ms * k < 0 := mul_neg_of_pos_of_neg hms (by omega)
    omega
  have hdiv : (range.toTime - range.fromTime + timeframe.ms - 1) / timeframe.ms = k := by
    rw [hk, show timeframe.ms * k + timeframe.ms - 1 = timeframe.ms - 1 + timeframe.ms * k by ring,
      Int.add_mul_ediv_left _ _ hms.ne', Int.ediv_eq_zero_of_lt (by omega) (by omega), zero_add]
  rw [gridSize, hdiv, Int.toNat_of_nonneg hk0, mul_comm]
  omega

theorem mem_existing {timestamp : Int} :
    timestamp ∈ (candles.filter (·.isClosed)).map (·.timestamp) ↔
      ∃ candle ∈ candles, candle.isClosed = true ∧ candle.timestamp = timestamp := by
  simp [and_assoc]

/-- Closing the gap that is open at the end of the range keeps what the scan has found. -/
theorem Scanned.closed {scanned : List Range × Option Int}
    (hfrom : range.fromTime % timeframe.ms = 0) (hto : range.toTime % timeframe.ms = 0)
    (h : Scanned ((candles.filter (·.isClosed)).map (·.timestamp)) range.fromTime timeframe.ms
      range.toTime scanned) :
    AreGaps candles range timeframe (closeGap range scanned) := by
  have hdvdFrom := Int.dvd_of_emod_eq_zero hfrom
  have hdvdTo := Int.dvd_of_emod_eq_zero hto
  have hgrid : ∀ {timestamp : Int}, timeframe.ms ∣ timestamp - range.fromTime →
      timestamp % timeframe.ms = 0 := by
    intro timestamp hdvd
    have hsum := dvd_add hdvd hdvdFrom
    rw [sub_add_cancel] at hsum
    exact Int.emod_eq_zero_of_dvd hsum
  have hbetween : ∀ timestamp, timestamp % timeframe.ms = 0 →
      ((range.fromTime ≤ timestamp ∧ timestamp < range.toTime ∧
        ¬ ∃ candle ∈ candles, candle.isClosed = true ∧ candle.timestamp = timestamp) ↔
      range.fromTime ≤ timestamp ∧ timestamp < range.toTime ∧
        ((∃ gap ∈ scanned.1, gap.fromTime ≤ timestamp ∧ timestamp < gap.toTime) ∨
          ∃ first ∈ scanned.2, first ≤ timestamp)) := by
    intro timestamp haligned
    have hdvd := dvd_sub (Int.dvd_of_emod_eq_zero haligned) hdvdFrom
    refine and_congr_right fun hge => and_congr_right fun hlt => ?_
    rw [← mem_existing]
    exact h.covers timestamp hdvd hge hlt
  obtain ⟨gaps, opened⟩ := scanned
  cases opened with
  | none =>
    refine ⟨h.ordered, fun gap hgap => ?_, fun gap hgap => ?_, fun timestamp haligned => ?_⟩
    · obtain ⟨hstart, hne, hend⟩ := h.inside gap hgap
      exact ⟨hstart, hne, hend.le⟩
    · obtain ⟨hstart, hend⟩ := h.aligned gap hgap
      exact ⟨hgrid hstart, hgrid hend⟩
    · rw [hbetween timestamp haligned]
      constructor
      · rintro ⟨gap, hgap, hge, hlt⟩
        obtain ⟨hstart, -, hend⟩ := h.inside gap hgap
        exact ⟨by omega, by omega, Or.inl ⟨gap, hgap, hge, hlt⟩⟩
      · rintro ⟨-, -, hcovered | ⟨first, hfirst, -⟩⟩
        · exact hcovered
        · cases hfirst
  | some first =>
    obtain ⟨hfirst, hbefore, hdvd, hafter⟩ := h.opened first rfl
    refine ⟨?_, fun gap hgap => ?_, fun gap hgap => ?_, fun timestamp haligned => ?_⟩
    · refine List.pairwise_append.mpr ⟨h.ordered, List.pairwise_singleton _ _, ?_⟩
      intro gap hgap last hlast
      rw [List.mem_singleton.mp hlast]
      exact hafter gap hgap
    · rcases List.mem_append.mp hgap with hgap | hgap
      · obtain ⟨hstart, hne, hend⟩ := h.inside gap hgap
        exact ⟨hstart, hne, hend.le⟩
      · rw [List.mem_singleton.mp hgap]
        exact ⟨hfirst, hbefore, le_rfl⟩
    · rcases List.mem_append.mp hgap with hgap | hgap
      · obtain ⟨hstart, hend⟩ := h.aligned gap hgap
        exact ⟨hgrid hstart, hgrid hend⟩
      · rw [List.mem_singleton.mp hgap]
        exact ⟨hgrid hdvd, hto⟩
    · rw [hbetween timestamp haligned]
      constructor
      · rintro ⟨gap, hgap, hge, hlt⟩
        rcases List.mem_append.mp hgap with hgap | hgap
        · obtain ⟨hstart, -, hend⟩ := h.inside gap hgap
          exact ⟨by omega, by omega, Or.inl ⟨gap, hgap, hge, hlt⟩⟩
        · rw [List.mem_singleton.mp hgap] at hge hlt
          exact ⟨hfirst.trans hge, hlt, Or.inr ⟨first, rfl, hge⟩⟩
      · rintro ⟨-, hlt, ⟨gap, hgap, hcovered⟩ | ⟨other, hother, hle⟩⟩
        · exact ⟨gap, List.mem_append_left _ hgap, hcovered⟩
        · cases hother
          exact ⟨_, List.mem_append_right _ List.mem_cons_self, hle, hlt⟩

/-- What `missingRanges` reports of a range of the grid is just what the range lacks. -/
theorem missing_ranges_exact (candles : List Candle) (range : Range) (timeframe : Timeframe)
    (hfrom : range.fromTime % timeframe.ms = 0) (hto : range.toTime % timeframe.ms = 0) :
    AreGaps candles range timeframe (missingRanges candles range timeframe) ∧
      (missingRanges candles range timeframe = [] ↔
        ∀ timestamp, timestamp % timeframe.ms = 0 → range.fromTime ≤ timestamp →
          timestamp < range.toTime →
            ∃ candle ∈ candles, candle.isClosed = true ∧ candle.timestamp = timestamp) := by
  have hdvdFrom := Int.dvd_of_emod_eq_zero hfrom
  have hdvd := dvd_sub (Int.dvd_of_emod_eq_zero hto) hdvdFrom
  have hgaps : AreGaps candles range timeframe (missingRanges candles range timeframe) := by
    rcases le_total range.fromTime range.toTime with hle | hle
    · have hscanned := Scanned.foldl ((candles.filter (·.isClosed)).map (·.timestamp))
        range.fromTime (ms_pos timeframe) (gridSize range timeframe)
      rw [gridSize_mul_of_dvd hdvd hle] at hscanned
      exact hscanned.closed hfrom hto
    · have hnone : gridPoints range timeframe = [] := by
        refine List.eq_nil_iff_forall_not_mem.mpr fun timestamp h => ?_
        obtain ⟨hge, hlt, -⟩ := mem_gridPoints.mp h
        omega
      have hnil : missingRanges candles range timeframe = [] := by
        rw [missingRanges, hnone]
        rfl
      rw [hnil]
      refine ⟨List.Pairwise.nil, fun _ h => absurd h List.not_mem_nil,
        fun _ h => absurd h List.not_mem_nil, fun timestamp _ => iff_of_false ?_ ?_⟩
      · rintro ⟨gap, hgap, -⟩
        exact List.not_mem_nil hgap
      · rintro ⟨hge, hlt, -⟩
        omega
  refine ⟨hgaps, ?_⟩
  rw [missingRanges_eq_nil]
  constructor
  · intro h timestamp haligned hge hlt
    exact h timestamp (mem_gridPoints.mpr
      ⟨hge, hlt, dvd_sub (Int.dvd_of_emod_eq_zero haligned) hdvdFrom⟩)
  · intro h timestamp hpoint
    obtain ⟨hge, hlt, hgrid⟩ := mem_gridPoints.mp hpoint
    have hsum := dvd_add hgrid hdvdFrom
    rw [sub_add_cancel] at hsum
    exact h timestamp (Int.emod_eq_zero_of_dvd hsum) hge hlt

/-- A closed candle of the second minute. -/
def secondMinute : Candle where
  pair := btcUsdt
  timeframe := .m1
  timestamp := 60000
  onGrid := ⟨by decide, by decide⟩
  values := unitValues
  isClosed := true
  source := none

theorem missing_ranges_exact_around :
    missingRanges [secondMinute] ⟨0, 240000⟩ .m1 = [⟨0, 60000⟩, ⟨120000, 240000⟩] ∧
      AreGaps [secondMinute] ⟨0, 240000⟩ .m1 (missingRanges [secondMinute] ⟨0, 240000⟩ .m1) :=
  ⟨by decide, (missing_ranges_exact [secondMinute] ⟨0, 240000⟩ .m1 (by decide) (by decide)).1⟩

end Ranges

end Cryptox.MarketData
