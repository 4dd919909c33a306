import Mathlib.Algebra.Order.BigOperators.GroupWithZero.List
import Mathlib.Data.Rat.Sqrt
import Mathlib.Tactic.Linarith
import Mathlib.Tactic.Positivity
import Cryptox.Library.Outcome
import Cryptox.Library.RunningPeak
import Cryptox.Evaluation.Evaluator

/-!
# The definition of the metrics

What each metric is in terms of the list of returns and its compounded factors. The evaluator's
single pass computes it, and never divides by zero.
-/
namespace Cryptox.Evaluation

open Cryptox.Backtesting
open Cryptox.Library

/-! ## The metrics of a list of returns -/

def growth (value : ℚ) : ℚ := 1 + value / 100

/-- The factor before the first trade, then after each. -/
def factors (returns : List ℚ) : List ℚ :=
  returns.scanl (fun factor value => factor * growth value) 1

def compounded (returns : List ℚ) : ℚ := (returns.map growth).prod

/-- The fall from one factor to another in percent of the first; nought from nought. -/
def drawdown (peak factor : ℚ) : ℚ := (peak - factor) / peak * 100

def gains (returns : List ℚ) : ℚ := (returns.filter fun value => 0 < value).sum

def losses (returns : List ℚ) : ℚ := ((returns.filter fun value => value < 0).map abs).sum

theorem factors_concat (returns : List ℚ) (value : ℚ) :
    factors (returns ++ [value]) = factors returns ++ [compounded returns * growth value] := by
  have hfold : returns.foldl (fun factor value => factor * growth value) 1 = compounded returns := by
    rw [compounded, List.prod_eq_foldl, List.foldl_map]
  rw [factors, List.scanl_append, hfold]
  rfl

theorem compounded_concat (returns : List ℚ) (value : ℚ) :
    compounded (returns ++ [value]) = compounded returns * growth value := by
  simp [compounded]

theorem growth_nonneg {value : ℚ} (h : -100 ≤ value) : 0 ≤ growth value := by
  rw [growth]
  linarith

theorem compounded_nonneg {returns : List ℚ} (h : ∀ value ∈ returns, -100 ≤ value) :
    0 ≤ compounded returns := by
  refine List.prod_nonneg fun factor hfactor => ?_
  obtain ⟨value, hvalue, rfl⟩ := List.mem_map.mp hfactor
  exact growth_nonneg (h value hvalue)

theorem factors_nonneg {returns : List ℚ} (h : ∀ value ∈ returns, -100 ≤ value) :
    ∀ factor ∈ factors returns, 0 ≤ factor := by
  induction returns using List.reverseRecOn with
  | nil => simp [factors]
  | append_singleton rest value ih =>
    intro factor hfactor
    rw [factors_concat] at hfactor
    have hrest : ∀ other ∈ rest, -100 ≤ other := fun other hother =>
      h other (List.mem_append_left _ hother)
    rcases List.mem_append.mp hfactor with hold | hnew
    · exact ih hrest factor hold
    · rw [List.mem_singleton.mp hnew]
      exact mul_nonneg (compounded_nonneg hrest) (growth_nonneg (h value (by simp)))

/-- A fall from a higher factor is deeper. -/
theorem drawdown_mono {factor low high : ℚ} (hfactor : 0 ≤ factor) (hlow : 0 ≤ low)
    (hle : low ≤ high) (hhigh : factor ≤ high) : drawdown low factor ≤ drawdown high factor := by
  rcases hlow.eq_or_lt with rfl | hpos
  · rw [drawdown, drawdown, div_zero, zero_mul]
    exact mul_nonneg (div_nonneg (sub_nonneg.mpr hhigh) hle) (by norm_num)
  · have hfall : factor / high ≤ factor / low := div_le_div_of_nonneg_left hfactor hpos hle
    rw [drawdown, drawdown, sub_div, sub_div, div_self hpos.ne', div_self (hpos.trans_le hle).ne']
    linarith

theorem drawdown_le {peak factor : ℚ} (hpeak : 0 ≤ peak) (hfactor : 0 ≤ factor) :
    drawdown peak factor ≤ 100 := by
  have hle : (peak - factor) / peak ≤ 1 := div_le_one_of_le₀ (by linarith) hpeak
  rw [drawdown]
  linarith

theorem drawdown_self (factor : ℚ) : drawdown factor factor = 0 := by
  simp [drawdown]

/-! ## What the loop keeps -/

attribute [ext] Totals

namespace Totals

theorem ofReturns_concat (returns : List ℚ) (value : ℚ) :
    ofReturns (returns ++ [value]) = (ofReturns returns).add value := by
  rw [ofReturns, List.foldl_concat]
  rfl

theorem add_peak (totals : Totals) (value : ℚ) :
    (totals.add value).peak = max totals.peak (totals.factor * growth value) :=
  (max_def_lt _ _).symm

theorem add_maxDrawdownPercent (totals : Totals) (value : ℚ) :
    (totals.add value).maxDrawdownPercent = max totals.maxDrawdownPercent
      (drawdown (max totals.peak (totals.factor * growth value)) (totals.factor * growth value)) := by
  rw [← add_peak]
  have hguard : (if (totals.add value).peak = 0 then 0
      else ((totals.add value).peak - (totals.add value).factor) / (totals.add value).peak * 100)
        = drawdown (totals.add value).peak (totals.add value).factor := by
    split
    · rename_i hzero
      rw [drawdown, hzero, div_zero, zero_mul]
    · rfl
  exact congrArg (max totals.maxDrawdownPercent) hguard

/-- The loop variables after the returns. -/
structure Tracks (returns : List ℚ) (totals : Totals) : Prop where
  factor : totals.factor = compounded returns
  peak : IsPeak (factors returns) totals.peak
  worst : IsWorst drawdown (factors returns) totals.maxDrawdownPercent
  grossProfit : totals.grossProfit = gains returns
  grossLoss : totals.grossLoss = losses returns

theorem Tracks.start : Tracks [] initial where
  factor := rfl
  peak := .singleton 1
  worst := by
    have hworst : IsWorst drawdown [1] (drawdown 1 1) := .singleton 1
    rwa [drawdown_self] at hworst
  grossProfit := rfl
  grossLoss := rfl

theorem Tracks.add {returns : List ℚ} {totals : Totals} (h : Tracks returns totals) {value : ℚ}
    (hreturns : ∀ other ∈ returns ++ [value], -100 ≤ other) :
    Tracks (returns ++ [value]) (totals.add value) := by
  have hfactor : totals.factor * growth value = compounded returns * growth value := by rw [h.factor]
  constructor
  case factor => rw [compounded_concat, ← hfactor]; rfl
  case peak =>
    rw [factors_concat, add_peak, hfactor]
    exact h.peak.concat
  case worst =>
    rw [factors_concat, add_maxDrawdownPercent, hfactor]
    refine h.worst.concat h.peak fun x hx => ?_
    rw [← factors_concat] at hx
    have hpeak : IsPeak (_ ++ [compounded returns * growth value]) _ := h.peak.concat
    rw [← factors_concat] at hpeak
    have hlast : 0 ≤ compounded returns * growth value := by
      rw [← compounded_concat]
      exact compounded_nonneg hreturns
    exact drawdown_mono hlast (factors_nonneg hreturns x hx) (hpeak.2 hx) (le_max_right _ _)
  case grossProfit =>
    by_cases hvalue : 0 < value <;> simp [Totals.add, gains, h.grossProfit, hvalue]
  case grossLoss =>
    by_cases hvalue : value < 0 <;> simp [Totals.add, losses, h.grossLoss, hvalue]

theorem ofReturns_tracks {returns : List ℚ} (h : ∀ value ∈ returns, -100 ≤ value) :
    Tracks returns (ofReturns returns) := by
  induction returns using List.reverseRecOn with
  | nil => exact .start
  | append_singleton rest value ih =>
    rw [ofReturns_concat]
    exact (ih fun other hother => h other (List.mem_append_left _ hother)).add h

theorem ofReturns_wins (returns : List ℚ) :
    (ofReturns returns).wins = returns.countP fun value => 0 < value := by
  induction returns using List.reverseRecOn with
  | nil => rfl
  | append_singleton rest value ih =>
    rw [ofReturns_concat, List.countP_append, ← ih]
    by_cases hvalue : 0 < value <;> simp [Totals.add, hvalue]

/-- A peak that the factor has not passed, with its fall counted already. -/
structure Settled (totals : Totals) : Prop where
  factor_le : totals.factor ≤ totals.peak
  counted : drawdown totals.peak totals.factor ≤ totals.maxDrawdownPercent

theorem Settled.add (totals : Totals) (value : ℚ) : Settled (totals.add value) where
  factor_le := by
    rw [add_peak]
    exact le_max_right _ _
  counted := by
    rw [add_maxDrawdownPercent, add_peak]
    exact le_max_right _ _

theorem ofReturns_settled (returns : List ℚ) : Settled (ofReturns returns) := by
  induction returns using List.reverseRecOn with
  | nil => exact ⟨le_rfl, by rw [ofReturns, List.foldl_nil, initial, drawdown_self]⟩
  | append_singleton rest value ih =>
    rw [ofReturns_concat]
    exact .add _ value

/-- A return of nought leaves the loop variables as they are. -/
theorem Settled.unmoved {totals : Totals} (h : Settled totals) : totals.add 0 = totals := by
  have hfactor : totals.factor * growth 0 = totals.factor := by
    rw [growth, zero_div, add_zero, mul_one]
  have hpeak := add_peak totals 0
  have hworst := add_maxDrawdownPercent totals 0
  rw [hfactor, max_eq_left h.factor_le] at hpeak hworst
  rw [max_eq_left h.counted] at hworst
  exact Totals.ext hfactor hpeak hworst (by simp [Totals.add]) (by simp [Totals.add])
    (by simp [Totals.add])

theorem ofReturns_insert_zero (left right : List ℚ) :
    ofReturns (left ++ 0 :: right) = ofReturns (left ++ right) := by
  rw [ofReturns, ofReturns, List.foldl_append, List.foldl_append, List.foldl_cons]
  congr 1
  exact (ofReturns_settled left).unmoved

end Totals

/-! ## Division -/

/-- Division as it is checked: nothing is divided by nought. -/
def divideChecked (dividend divisor : ℚ) : Except String ℚ :=
  if divisor = 0 then .error "DIVISION_BY_ZERO" else .ok (dividend / divisor)

theorem divideChecked_of_ne {dividend divisor : ℚ} (h : divisor ≠ 0) :
    divideChecked dividend divisor = .ok (dividend / divisor) :=
  if_neg h

/-- The body of the loop with its divisions checked. -/
def Totals.addChecked (totals : Totals) (value : ℚ) : Except String Totals := do
  let factor := totals.factor * (1 + (← divideChecked value 100))
  let peak := if factor > totals.peak then factor else totals.peak
  let drawdown ← if peak = 0 then .ok 0 else (divideChecked (peak - factor) peak).map (· * 100)
  return {
    factor, peak
    maxDrawdownPercent := max totals.maxDrawdownPercent drawdown
    grossProfit := if value > 0 then totals.grossProfit + value else totals.grossProfit
    grossLoss := if value < 0 then totals.grossLoss + |value| else totals.grossLoss
    wins := if value > 0 then totals.wins + 1 else totals.wins }

def averageChecked (values : List ℚ) : Except String ℚ :=
  if values.length = 0 then .ok 0 else divideChecked values.sum values.length

def sharpeRatioChecked (status : SharpeRatioStatus) (mean standardDeviation : ℚ) : Except String ℚ :=
  if status = .finite then divideChecked mean standardDeviation else .ok 0

def profitFactorChecked (status : ProfitFactorStatus) (grossProfit grossLoss : ℚ) :
    Except String (Option ℚ) :=
  if status = .finite then (divideChecked grossProfit grossLoss).map some else .ok none

def winRateChecked (wins numberOfTrades : Nat) : Except String ℚ :=
  if numberOfTrades = 0 then .ok 0 else (divideChecked wins numberOfTrades).map (· * 100)

/-- The evaluator with every division checked. -/
def evaluateChecked (sqrt : ℚ → ℚ) (result : CompletedBacktestResult) (provenance : Provenance) :
    Except String EvaluationMetrics := do
  let returns := result.trades.map fun trade => trade.resultPercent.toRat
  let numberOfTrades := returns.length
  let totals ← returns.foldlM Totals.addChecked .initial
  let mean ← averageChecked returns
  let variance ← averageChecked (returns.map fun value => (value - mean) ^ 2)
  let standardDeviation := sqrt variance
  let sharpe := sharpeRatioStatus numberOfTrades standardDeviation
  let sharpeRatio ← sharpeRatioChecked sharpe mean standardDeviation
  let profit := profitFactorStatus numberOfTrades totals.grossProfit totals.grossLoss
  let profitFactor ← profitFactorChecked profit totals.grossProfit totals.grossLoss
  let winRatePercent ← winRateChecked totals.wins numberOfTrades
  return {
    candidateId := result.candidateId
    totalReturnPercent := (totals.factor - 1) * 100
    winRatePercent, numberOfTrades
    maxDrawdownPercent := totals.maxDrawdownPercent
    profitFactor
    profitFactorStatus := profit
    sharpeRatio
    sharpeRatioStatus := sharpe
    evaluationPolicyId
    evaluationRuntimeVersion := provenance.version
    evaluationRuntimeSha256 := provenance.sha256 }

theorem Totals.addChecked_eq (totals : Totals) (value : ℚ) :
    totals.addChecked value = .ok (totals.add value) := by
  have hhundred : divideChecked value 100 = .ok (value / 100) := divideChecked_of_ne (by norm_num)
  simp only [addChecked, hhundred, ok_bind, Totals.add]
  by_cases hpeak : (if totals.factor * (1 + value / 100) > totals.peak
      then totals.factor * (1 + value / 100) else totals.peak) = 0
  · simp only [if_pos hpeak]
    rfl
  · simp only [if_neg hpeak, divideChecked_of_ne hpeak, ok_map, ok_bind]
    rfl

theorem foldlM_addChecked (returns : List ℚ) (totals : Totals) :
    returns.foldlM Totals.addChecked totals = .ok (returns.foldl Totals.add totals) := by
  induction returns generalizing totals with
  | nil => rfl
  | cons value rest ih => rw [List.foldlM_cons, Totals.addChecked_eq, ok_bind, ih, List.foldl_cons]

theorem averageChecked_eq (values : List ℚ) : averageChecked values = .ok (average values) := by
  unfold averageChecked average
  split
  · rfl
  · rename_i hlength
    exact divideChecked_of_ne (by exact_mod_cast hlength)

theorem sharpeRatioChecked_eq (numberOfTrades : Nat) (mean standardDeviation : ℚ) :
    sharpeRatioChecked (sharpeRatioStatus numberOfTrades standardDeviation) mean standardDeviation
      = .ok (if sharpeRatioStatus numberOfTrades standardDeviation = .finite
          then mean / standardDeviation else 0) := by
  unfold sharpeRatioChecked
  split
  · rename_i hfinite
    refine divideChecked_of_ne ?_
    rintro rfl
    simp [sharpeRatioStatus] at hfinite
    split at hfinite <;> cases hfinite
  · rfl

theorem grossLoss_pos {numberOfTrades : Nat} {grossProfit grossLoss : ℚ}
    (h : profitFactorStatus numberOfTrades grossProfit grossLoss = .finite) : 0 < grossLoss := by
  unfold profitFactorStatus at h
  split at h
  · cases h
  · split at h
    · rename_i hboth
      exact hboth.2
    · split at h
      · cases h
      · split at h
        · rename_i hloss
          exact hloss
        · cases h

theorem profitFactorChecked_eq (numberOfTrades : Nat) (grossProfit grossLoss : ℚ) :
    profitFactorChecked (profitFactorStatus numberOfTrades grossProfit grossLoss) grossProfit grossLoss
      = .ok (if profitFactorStatus numberOfTrades grossProfit grossLoss = .finite
          then some (grossProfit / grossLoss) else none) := by
  unfold profitFactorChecked
  split
  · rename_i hfinite
    rw [divideChecked_of_ne (grossLoss_pos hfinite).ne', ok_map]
  · rfl

theorem winRateChecked_eq (wins numberOfTrades : Nat) : winRateChecked wins numberOfTrades
    = .ok (if numberOfTrades = 0 then 0 else wins / numberOfTrades * 100) := by
  unfold winRateChecked
  split
  · rfl
  · rename_i htrades
    rw [divideChecked_of_ne (by exact_mod_cast htrades), ok_map]

/-- No division of the evaluator is by nought. -/
theorem evaluateChecked_eq (sqrt : ℚ → ℚ) (result : CompletedBacktestResult)
    (provenance : Provenance) :
    evaluateChecked sqrt result provenance = .ok (evaluateBacktest sqrt result provenance) := by
  simp only [evaluateChecked, foldlM_addChecked, averageChecked_eq, sharpeRatioChecked_eq,
    profitFactorChecked_eq, winRateChecked_eq, ok_bind]
  rfl

/-! ## The evaluator meets the definition -/

def returnsOf (result : CompletedBacktestResult) : List ℚ :=
  result.trades.map fun trade => trade.resultPercent.toRat

/-- What the metrics of a result are. -/
structure MeetsDefinition (returns : List ℚ) (metrics : EvaluationMetrics) : Prop where
  totalReturnPercent : metrics.totalReturnPercent = (compounded returns - 1) * 100
  totalReturnPercent_ge : -100 ≤ metrics.totalReturnPercent
  maxDrawdownPercent : IsWorst drawdown (factors returns) metrics.maxDrawdownPercent
  maxDrawdownPercent_mem : metrics.maxDrawdownPercent ∈ Set.Icc (0 : ℚ) 100
  winRatePercent_mem : metrics.winRatePercent ∈ Set.Icc (0 : ℚ) 100
  profitFactor_isSome : metrics.profitFactor.isSome ↔ ∃ value ∈ returns, value < 0
  profitFactor : ∀ factor ∈ metrics.profitFactor, factor = gains returns / losses returns

theorem losses_nonneg (returns : List ℚ) : 0 ≤ losses returns := by
  refine List.sum_nonneg fun loss hloss => ?_
  obtain ⟨value, -, rfl⟩ := List.mem_map.mp hloss
  exact abs_nonneg value

theorem losses_pos_iff (returns : List ℚ) : 0 < losses returns ↔ ∃ value ∈ returns, value < 0 := by
  induction returns with
  | nil => simp [losses]
  | cons value rest ih =>
    by_cases hvalue : value < 0
    · have hsum : losses (value :: rest) = |value| + losses rest := by simp [losses, hvalue]
      have hpos : 0 < |value| := abs_pos.mpr hvalue.ne
      have hrest := losses_nonneg rest
      exact iff_of_true (by linarith) ⟨value, List.mem_cons_self, hvalue⟩
    · have hsum : losses (value :: rest) = losses rest := by simp [losses, hvalue]
      rw [hsum, ih]
      simp [hvalue]

/-- The profit factor is there exactly when there is a gross loss. -/
theorem profitFactor_eq (sqrt : ℚ → ℚ) (result : CompletedBacktestResult) (provenance : Provenance) :
    (evaluateBacktest sqrt result provenance).profitFactor
      = if 0 < (Totals.ofReturns (returnsOf result)).grossLoss then
          some ((Totals.ofReturns (returnsOf result)).grossProfit
            / (Totals.ofReturns (returnsOf result)).grossLoss)
        else none := by
  have hstatus : profitFactorStatus (returnsOf result).length
      (Totals.ofReturns (returnsOf result)).grossProfit
      (Totals.ofReturns (returnsOf result)).grossLoss = .finite ↔
        0 < (Totals.ofReturns (returnsOf result)).grossLoss := by
    refine ⟨grossLoss_pos, fun hloss => ?_⟩
    have htrades : (returnsOf result).length ≠ 0 := by
      intro hzero
      rw [List.length_eq_zero_iff.mp hzero] at hloss
      exact absurd hloss (lt_irrefl 0)
    unfold profitFactorStatus
    rw [if_neg htrades]
    by_cases hprofit : (Totals.ofReturns (returnsOf result)).grossProfit > 0
    · rw [if_pos ⟨hprofit, hloss⟩]
    · rw [if_neg fun h => hprofit h.1, if_neg hprofit, if_pos hloss]
  simp only [← hstatus]
  rfl

theorem evaluateBacktest_meets (sqrt : ℚ → ℚ) (result : CompletedBacktestResult)
    (provenance : Provenance) (h : ∀ value ∈ returnsOf result, -100 ≤ value) :
    MeetsDefinition (returnsOf result) (evaluateBacktest sqrt result provenance) := by
  have htracks := Totals.ofReturns_tracks h
  constructor
  case totalReturnPercent => rw [← htracks.factor]; rfl
  case totalReturnPercent_ge =>
    have hfactor := compounded_nonneg h
    rw [← htracks.factor] at hfactor
    change -100 ≤ ((Totals.ofReturns (returnsOf result)).factor - 1) * 100
    linarith
  case maxDrawdownPercent => exact htracks.worst
  case maxDrawdownPercent_mem =>
    obtain ⟨⟨x, y, hfollows, hxy⟩, hgreatest⟩ := htracks.worst
    have hx := factors_nonneg h x hfollows.left_mem
    have hy := factors_nonneg h y hfollows.right_mem
    refine ⟨?_, ?_⟩
    · exact hgreatest ⟨x, x, .refl hfollows.left_mem, drawdown_self x⟩
    · change (Totals.ofReturns (returnsOf result)).maxDrawdownPercent ≤ 100
      rw [← hxy]
      exact drawdown_le hx hy
  case winRatePercent_mem =>
    change (if (returnsOf result).length = 0 then 0
      else ((Totals.ofReturns (returnsOf result)).wins : ℚ) / (returnsOf result).length * 100)
        ∈ Set.Icc (0 : ℚ) 100
    split
    · exact ⟨le_rfl, by norm_num⟩
    · have hwins : (Totals.ofReturns (returnsOf result)).wins ≤ (returnsOf result).length := by
        rw [Totals.ofReturns_wins]
        exact List.countP_le_length
      have hrate : ((Totals.ofReturns (returnsOf result)).wins : ℚ) / (returnsOf result).length ≤ 1 :=
        div_le_one_of_le₀ (by exact_mod_cast hwins) (by positivity)
      exact ⟨by positivity, by linarith⟩
  case profitFactor_isSome =>
    rw [profitFactor_eq, ← losses_pos_iff, ← htracks.grossLoss]
    split
    · rename_i hloss
      exact iff_of_true rfl hloss
    · rename_i hloss
      exact iff_of_false Bool.false_ne_true hloss
  case profitFactor =>
    intro factor hfactor
    rw [profitFactor_eq] at hfactor
    split at hfactor
    · cases hfactor
      rw [htracks.grossProfit, htracks.grossLoss]
    · cases hfactor

/-- The same trades with one more between them. -/
def insertTrade (result : CompletedBacktestResult) (left right : List Trade) (trade : Trade) :
    CompletedBacktestResult :=
  { result with trades := left ++ trade :: right }

/-- A trade that returned nought moves none of the three. -/
theorem insertTrade_unmoved (sqrt : ℚ → ℚ) (result : CompletedBacktestResult)
    (provenance : Provenance) (left right : List Trade) (trade : Trade)
    (hsplit : result.trades = left ++ right) (hzero : trade.resultPercent.toRat = 0) :
    let before := evaluateBacktest sqrt result provenance
    let after := evaluateBacktest sqrt (insertTrade result left right trade) provenance
    after.totalReturnPercent = before.totalReturnPercent ∧
      after.maxDrawdownPercent = before.maxDrawdownPercent ∧
      after.profitFactor = before.profitFactor := by
  have hreturns : Totals.ofReturns (returnsOf (insertTrade result left right trade))
      = Totals.ofReturns (returnsOf result) := by
    rw [returnsOf, returnsOf, insertTrade, hsplit, List.map_append, List.map_append, List.map_cons,
      hzero, Totals.ofReturns_insert_zero]
  refine ⟨?_, ?_, ?_⟩
  · exact congrArg (fun totals : Totals => (totals.factor - 1) * 100) hreturns
  · exact congrArg Totals.maxDrawdownPercent hreturns
  · rw [profitFactor_eq, profitFactor_eq, hreturns]

/-- For returns of at least -100 percent the evaluator never divides by nought, its metrics are
those of the definition, and a trade that returned nought moves none of them. -/
theorem evaluateBacktest_definition (sqrt : ℚ → ℚ) (result : CompletedBacktestResult)
    (provenance : Provenance) (h : ∀ trade ∈ result.trades, -100 ≤ trade.resultPercent.toRat) :
    evaluateChecked sqrt result provenance = .ok (evaluateBacktest sqrt result provenance) ∧
      MeetsDefinition (returnsOf result) (evaluateBacktest sqrt result provenance) ∧
      ∀ left right trade, result.trades = left ++ right → trade.resultPercent.toRat = 0 →
        let before := evaluateBacktest sqrt result provenance
        let after := evaluateBacktest sqrt (insertTrade result left right trade) provenance
        after.totalReturnPercent = before.totalReturnPercent ∧
          after.maxDrawdownPercent = before.maxDrawdownPercent ∧
          after.profitFactor = before.profitFactor := by
  refine ⟨evaluateChecked_eq sqrt result provenance, evaluateBacktest_meets sqrt result provenance ?_,
    insertTrade_unmoved sqrt result provenance⟩
  intro value hvalue
  obtain ⟨trade, htrade, rfl⟩ := List.mem_map.mp hvalue
  exact h trade htrade

/-- One unit bought at 100 without costs and sold at a percentage more. -/
def exampleTrade (percent : Int) : Trade where
  id := "attempt-trade-1"
  sequence := 1
  pair := "BTCUSDT"
  settlementAsset := "USDT"
  backtestAttemptId := "attempt"
  signal := .long
  entryTime := "2025-01-01T00:00:00.000Z"
  marketEntryPrice := .fromInteger 100
  entryPrice := .fromInteger 100
  stopLoss := none
  takeProfit := none
  exitTime := "2025-01-01T01:00:00.000Z"
  marketExitPrice := .fromInteger (100 + percent)
  exitPrice := .fromInteger (100 + percent)
  exitReason := .strategyClose
  quantity := .fromInteger 1
  notionalEntryValue := .fromInteger 100
  equityBeforeTrade := .fromInteger 100
  equityAfterTrade := .fromInteger (100 + percent)
  grossProfit := .fromInteger percent
  feeAmount := .fromInteger 0
  slippageBps := .ofInt 0
  slippageAmount := .fromInteger 0
  profit := .fromInteger percent
  resultPercent := .fromInteger percent
  result := if percent > 0 then .win else if percent < 0 then .loss else .breakeven

/-- A gain, and a loss of everything. -/
def ruinedResult : CompletedBacktestResult where
  candidateId := "candidate"
  attemptId := "attempt"
  workerRuntimeVersion := "1"
  workerRuntimeSha256 := "sha"
  startedAt := "2025-01-01T00:00:00.000Z"
  completedAt := "2025-01-01T03:00:00.000Z"
  initialCapital := .ofInt 100
  trades := [exampleTrade 10, exampleTrade (-100)]

theorem evaluateBacktest_definition_ruined :
    (∀ trade ∈ ruinedResult.trades, -100 ≤ trade.resultPercent.toRat) ∧
      evaluateChecked Rat.sqrt ruinedResult ⟨"1.0.0", "ab"⟩
        = .ok (evaluateBacktest Rat.sqrt ruinedResult ⟨"1.0.0", "ab"⟩) ∧
      MeetsDefinition (returnsOf ruinedResult)
        (evaluateBacktest Rat.sqrt ruinedResult ⟨"1.0.0", "ab"⟩) := by
  have hreturns : ∀ trade ∈ ruinedResult.trades, -100 ≤ trade.resultPercent.toRat := by
    decide +kernel
  obtain ⟨hchecked, hmeets, -⟩ := evaluateBacktest_definition Rat.sqrt ruinedResult ⟨"1.0.0", "ab"⟩
    hreturns
  exact ⟨hreturns, hchecked, hmeets⟩

end Cryptox.Evaluation
