import Cryptox.Backtesting.Contracts

/-!
# The evaluator

`evaluateBacktest` folds the trades' returns once and derives the metrics. Its numbers are exact
rationals here, so the checks that a number is finite all pass; the square root is the host's.
-/
namespace Cryptox.Evaluation

open Cryptox.Backtesting

def evaluationPolicyId : String := "MVP_EVALUATION_V1"

inductive SharpeRatioStatus where
  | finite | insufficientObservations | zeroVariance
deriving DecidableEq, Repr

inductive ProfitFactorStatus where
  | finite | noTrades | noLosses | noGrossMovement
deriving DecidableEq, Repr

structure Provenance where
  version : String
  sha256 : String
deriving DecidableEq, Repr

structure EvaluationMetrics where
  candidateId : String
  totalReturnPercent : ℚ
  winRatePercent : ℚ
  numberOfTrades : Nat
  maxDrawdownPercent : ℚ
  profitFactor : Option ℚ
  profitFactorStatus : ProfitFactorStatus
  sharpeRatio : ℚ
  sharpeRatioStatus : SharpeRatioStatus
  evaluationPolicyId : String
  evaluationRuntimeVersion : String
  evaluationRuntimeSha256 : String
deriving DecidableEq, Repr

/-- The variables of the loop over the returns. -/
structure Totals where
  factor : ℚ
  peak : ℚ
  maxDrawdownPercent : ℚ
  grossProfit : ℚ
  grossLoss : ℚ
  wins : Nat
deriving DecidableEq, Repr

namespace Totals

def initial : Totals := ⟨1, 1, 0, 0, 0, 0⟩

def add (totals : Totals) (value : ℚ) : Totals :=
  let factor := totals.factor * (1 + value / 100)
  let peak := if factor > totals.peak then factor else totals.peak
  let drawdown := if peak = 0 then 0 else (peak - factor) / peak * 100
  { factor, peak
    maxDrawdownPercent := max totals.maxDrawdownPercent drawdown
    grossProfit := if value > 0 then totals.grossProfit + value else totals.grossProfit
    grossLoss := if value < 0 then totals.grossLoss + |value| else totals.grossLoss
    wins := if value > 0 then totals.wins + 1 else totals.wins }

def ofReturns (returns : List ℚ) : Totals := returns.foldl add initial

end Totals

/-- The mean of the values, nought of none. -/
def average (values : List ℚ) : ℚ := if values.length = 0 then 0 else values.sum / values.length

def sharpeRatioStatus (numberOfTrades : Nat) (standardDeviation : ℚ) : SharpeRatioStatus :=
  if numberOfTrades < 2 then .insufficientObservations
  else if standardDeviation ≤ 1 / 10 ^ 12 then .zeroVariance
  else .finite

def profitFactorStatus (numberOfTrades : Nat) (grossProfit grossLoss : ℚ) : ProfitFactorStatus :=
  if numberOfTrades = 0 then .noTrades
  else if grossProfit > 0 ∧ grossLoss > 0 then .finite
  else if grossProfit > 0 then .noLosses
  else if grossLoss > 0 then .finite
  else .noGrossMovement

def evaluateBacktest (sqrt : ℚ → ℚ) (result : CompletedBacktestResult) (provenance : Provenance) :
    EvaluationMetrics :=
  let returns := result.trades.map fun trade => trade.resultPercent.toRat
  let numberOfTrades := returns.length
  let totals := Totals.ofReturns returns
  let mean := average returns
  let variance := average (returns.map fun value => (value - mean) ^ 2)
  let standardDeviation := sqrt variance
  let sharpe := sharpeRatioStatus numberOfTrades standardDeviation
  let profit := profitFactorStatus numberOfTrades totals.grossProfit totals.grossLoss
  { candidateId := result.candidateId
    totalReturnPercent := (totals.factor - 1) * 100
    winRatePercent := if numberOfTrades = 0 then 0 else totals.wins / numberOfTrades * 100
    numberOfTrades
    maxDrawdownPercent := totals.maxDrawdownPercent
    profitFactor := if profit = .finite then some (totals.grossProfit / totals.grossLoss) else none
    profitFactorStatus := profit
    sharpeRatio := if sharpe = .finite then mean / standardDeviation else 0
    sharpeRatioStatus := sharpe
    evaluationPolicyId
    evaluationRuntimeVersion := provenance.version
    evaluationRuntimeSha256 := provenance.sha256 }

/-- What the loop compounds. -/
theorem Totals.ofReturns_factor (returns : List ℚ) :
    (ofReturns returns).factor = (returns.map fun value => 1 + value / 100).prod := by
  have hfold : ∀ totals : Totals, (returns.foldl add totals).factor
      = totals.factor * (returns.map fun value => 1 + value / 100).prod := by
    induction returns with
    | nil => simp
    | cons value rest ih =>
      intro totals
      rw [List.foldl_cons, ih, List.map_cons, List.prod_cons, ← mul_assoc]
      rfl
  rw [ofReturns, hfold, initial, one_mul]

end Cryptox.Evaluation
