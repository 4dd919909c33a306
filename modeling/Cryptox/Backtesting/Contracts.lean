import Cryptox.Backtesting.Decimal

/-!
# Data the simulator reads and returns

Trade amounts are kept at their exact decimal values; the source turns each into a number as it
stores the trade, and nothing of the simulation reads the number back.
-/
namespace Cryptox.Backtesting

/-- A finite number is the decimal that `String` prints for it. -/
inductive JsNumber where
  | finite (shown : Decimal)
  | nan
  | infinity (negative : Bool)
deriving DecidableEq, Repr

namespace JsNumber

def isFinite : JsNumber → Bool
  | finite _ => true
  | _ => false

/-- The comparison of two numbers: anything compared with `NaN` is false. -/
def lt : JsNumber → JsNumber → Bool
  | finite left, finite right =>
    left.units * Decimal.powerOfTen right.scale < right.units * Decimal.powerOfTen left.scale
  | finite _, infinity negative => !negative
  | infinity negative, finite _ => negative
  | infinity left, infinity right => left && !right
  | _, _ => false

def le : JsNumber → JsNumber → Bool
  | finite left, finite right =>
    left.units * Decimal.powerOfTen right.scale ≤ right.units * Decimal.powerOfTen left.scale
  | finite _, infinity negative => !negative
  | infinity negative, finite _ => negative
  | infinity left, infinity right => left || !right
  | _, _ => false

def ofInt (value : Int) : JsNumber := finite (Decimal.fromInteger value)

def isInteger : JsNumber → Bool
  | finite shown => shown.normalize.scale == 0
  | _ => false

def max (left right : JsNumber) : JsNumber := if left.lt right then right else left
def min (left right : JsNumber) : JsNumber := if right.lt left then right else left

/-- The number that a finite one denotes. -/
def toRat : JsNumber → ℚ
  | finite shown => shown.toRat
  | _ => 0

theorem cross_lt (left right : Decimal) :
    left.units * Decimal.powerOfTen right.scale < right.units * Decimal.powerOfTen left.scale ↔
      left.toRat < right.toRat := by
  rw [Decimal.toRat, Decimal.toRat, div_lt_div_iff₀ (by positivity) (by positivity),
    ← Decimal.powerOfTen_cast, ← Decimal.powerOfTen_cast]
  exact_mod_cast Iff.rfl

theorem lt_iff {left right : JsNumber} (hl : left.isFinite = true) (hr : right.isFinite = true) :
    left.lt right = true ↔ left.toRat < right.toRat := by
  cases left <;> cases right <;> simp_all [isFinite, lt, toRat, cross_lt]

theorem le_iff {left right : JsNumber} (hl : left.isFinite = true) (hr : right.isFinite = true) :
    left.le right = true ↔ left.toRat ≤ right.toRat := by
  cases left <;> cases right <;> simp_all [isFinite, le, toRat, ← not_lt, cross_lt]

/-- The natural number a checked candle count denotes. -/
def toNat : JsNumber → Nat
  | finite shown => shown.normalize.units.toNat
  | _ => 0

end JsNumber

def decimal : JsNumber → Except String Decimal
  | .finite shown => .ok shown.normalize
  | _ => .error "INVALID_INPUT"

/-- What the simulator uses of the host's dates and collation. -/
structure Calendar where
  localeCompare : String → String → Ordering
  /-- `Date.parse`, where `none` is `NaN`. -/
  parse : String → Option Int
  /-- `new Date(ms).toISOString()`, which throws outside the range of dates. -/
  toISOString : Int → Except String String

inductive Timeframe where
  | m1 | m5 | m15 | h1 | h4 | d1
deriving DecidableEq, Repr

def Timeframe.ms : Timeframe → Int
  | m1 => 60000
  | m5 => 300000
  | m15 => 900000
  | h1 => 3600000
  | h4 => 14400000
  | d1 => 86400000

structure Candle where
  pair : String
  timeframe : Timeframe
  timestamp : String
  openPrice : JsNumber
  high : JsNumber
  low : JsNumber
  close : JsNumber
  volume : JsNumber
  isClosed : Bool
deriving DecidableEq, Repr

structure StrategyCandle where
  timestamp : String
  openPrice : JsNumber
  high : JsNumber
  low : JsNumber
  close : JsNumber
  volume : JsNumber
deriving DecidableEq, Repr

inductive SentimentLabel where
  | positive | neutral | negative
deriving DecidableEq, Repr

structure Sentiment where
  label : SentimentLabel
  averageScore : JsNumber
deriving DecidableEq, Repr

structure StrategyContext where
  pair : String
  timeframe : Timeframe
  candles : List StrategyCandle
  currentPrice : JsNumber
  sentiment : Option Sentiment
deriving DecidableEq, Repr

/-- A strategy answers a context with a signal text or throws. One run never asks twice about
the same context, so a strategy with a memory is such a function too, run by run. -/
structure Strategy where
  analyze : StrategyContext → Except String String

structure StrategyDefinition where
  id : String
  strategyName : String
  implementationVersion : String
  implementationSha256 : String
  parameters : List (String × (JsNumber ⊕ String))
deriving DecidableEq, Repr

inductive CombinationMethod where
  | majorityVote | weightedScore
deriving DecidableEq, Repr

structure CompositeComponent where
  strategyDefinitionId : String
  weight : JsNumber
deriving DecidableEq, Repr

structure CompositeStrategyDefinition where
  id : String
  method : CombinationMethod
  components : List CompositeComponent
  /-- The buy and the sell threshold. -/
  thresholds : Option (JsNumber × JsNumber)
deriving DecidableEq, Repr

structure SimulationInput where
  candidateId : String
  attemptId : String
  pair : String
  settlementAsset : String
  timeframe : Timeframe
  candles : List Candle
  warmupCandles : Option JsNumber
  strategy : Strategy
  sentimentAt : Option (String → Except String (Option Sentiment))
  initialCapital : JsNumber
  feeRatePercent : JsNumber
  slippageBps : Option JsNumber
  stopLossPercent : Option JsNumber
  takeProfitPercent : Option JsNumber
  workerRuntimeVersion : String
  workerRuntimeSha256 : String
  startedAt : String
  completedAt : String

inductive Action where
  | buy | sell
deriving DecidableEq, Repr

inductive Signal where
  | long | short
deriving DecidableEq, Repr

inductive ExitReason where
  | stopLoss | takeProfit | strategyClose | rangeEnd
deriving DecidableEq, Repr

inductive TradeResult where
  | win | loss | breakeven
deriving DecidableEq, Repr

structure Position where
  signal : Signal
  entryIndex : Nat
  marketEntryPrice : Decimal
  entryPrice : Decimal
  entryTime : String
  quantity : Decimal
  equityBeforeTrade : Decimal
  stopLoss : Option Decimal
  takeProfit : Option Decimal
deriving DecidableEq, Repr

structure Trade where
  id : String
  sequence : Nat
  pair : String
  settlementAsset : String
  backtestAttemptId : String
  signal : Signal
  entryTime : String
  marketEntryPrice : Decimal
  entryPrice : Decimal
  stopLoss : Option Decimal
  takeProfit : Option Decimal
  exitTime : String
  marketExitPrice : Decimal
  exitPrice : Decimal
  exitReason : ExitReason
  quantity : Decimal
  notionalEntryValue : Decimal
  equityBeforeTrade : Decimal
  equityAfterTrade : Decimal
  grossProfit : Decimal
  feeAmount : Decimal
  slippageBps : JsNumber
  slippageAmount : Decimal
  profit : Decimal
  resultPercent : Decimal
  result : TradeResult
deriving Repr

structure CompletedBacktestResult where
  candidateId : String
  attemptId : String
  workerRuntimeVersion : String
  workerRuntimeSha256 : String
  startedAt : String
  completedAt : String
  initialCapital : JsNumber
  trades : List Trade
deriving Repr

end Cryptox.Backtesting
