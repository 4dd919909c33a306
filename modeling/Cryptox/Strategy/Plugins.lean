import Cryptox.Library.Outcome
import Cryptox.Strategy.Indicators

/-!
# The built-in strategies

Each is a descriptor with the bounds of its parameters, the check across parameters where it has
one, and the analysis of a context. `consulted` names the indicators an analysis rests on.
-/
namespace Cryptox.Strategy

open Cryptox.Backtesting (JsNumber StrategyContext)
open Cryptox.Library (throwIf)

/-- `Number(parameters.key ?? default)`. -/
def numberParameter (numbers : Numbers) (parameters : Parameters) (key : String)
    (default : JsNumber) : JsNumber :=
  match parameters.lookup key with
  | some (.inl number) => number
  | some (.inr text) => numbers.ofText text
  | none => default

def parameter (key : String) (type : ParameterType) (default minimum maximum : JsNumber) :
    StrategyParameterDescriptor :=
  ⟨key, type, .inl default, some minimum, some maximum, none⟩

def hundredths (units : Int) : JsNumber := .finite ⟨units, 2⟩
def tenths (units : Int) : JsNumber := .finite ⟨units, 1⟩

/-- Refuses two parameters of which the first is not below the second. -/
def requireBelow (numbers : Numbers) (low high : String) (parameters : Parameters) :
    Except String Unit :=
  throwIf ((numberParameter numbers parameters high .nan).le
    (numberParameter numbers parameters low .nan)) "INVALID_STRATEGY_PARAMETERS"

def lastValues (context : StrategyContext) : List JsNumber := context.candles.map (·.close)

/-- The period after a whole number of at most four digits, exactly. -/
def oneMore : JsNumber → JsNumber
  | .finite shown => .finite (shown.add (.fromInteger 1))
  | other => other

section

variable (numbers : Numbers) (artifactSha256 : String → String)

def fastPeriod (parameters : Parameters) : JsNumber :=
  numberParameter numbers parameters "fastPeriod" (.ofInt 20)

def slowPeriod (parameters : Parameters) : JsNumber :=
  numberParameter numbers parameters "slowPeriod" (.ofInt 50)

structure Averages where
  fast : Option JsNumber
  slow : Option JsNumber
  previousFast : Option JsNumber
  previousSlow : Option JsNumber

def Averages.defined (averages : Averages) : Bool :=
  averages.fast.isSome && averages.slow.isSome && averages.previousFast.isSome
    && averages.previousSlow.isSome

def movingAverages (parameters : Parameters) (context : StrategyContext) : Averages :=
  let values := lastValues context
  let previous := values.dropLast
  { fast := simpleMovingAverage numbers values (fastPeriod numbers parameters)
    slow := simpleMovingAverage numbers values (slowPeriod numbers parameters)
    previousFast := simpleMovingAverage numbers previous (fastPeriod numbers parameters)
    previousSlow := simpleMovingAverage numbers previous (slowPeriod numbers parameters) }

def crossover : Averages → String
  | ⟨some fast, some slow, some previousFast, some previousSlow⟩ =>
    if previousFast.le previousSlow && slow.lt fast then "BUY"
    else if previousSlow.le previousFast && fast.lt slow then "SELL"
    else "HOLD"
  | _ => "HOLD"

def ma : StrategyFactory where
  descriptor :=
    { name := "MA"
      displayName := "Moving Average"
      category := .trend
      implementationVersion := "1.0.0"
      implementationSha256 := artifactSha256 "MA"
      minimumHistoryCandles := 51
      parameters :=
        [parameter "fastPeriod" .integer (.ofInt 20) (.ofInt 2) (.ofInt 500),
          parameter "slowPeriod" .integer (.ofInt 50) (.ofInt 3) (.ofInt 1000)]
      requiresSentiment := false }
  create parameters := ⟨fun context =>
    if (JsNumber.ofInt (lastValues context).length).lt (oneMore (slowPeriod numbers parameters)) then
      .ok "HOLD"
    else .ok (crossover (movingAverages numbers parameters context))⟩
  validateParameters := requireBelow numbers "fastPeriod" "slowPeriod"

def relativeStrength (parameters : Parameters) (context : StrategyContext) : Option JsNumber :=
  relativeStrengthIndex numbers (lastValues context)
    (numberParameter numbers parameters "period" (.ofInt 14))

def rsi : StrategyFactory where
  descriptor :=
    { name := "RSI"
      displayName := "RSI"
      category := .momentum
      implementationVersion := "1.0.0"
      implementationSha256 := artifactSha256 "RSI"
      minimumHistoryCandles := 15
      parameters :=
        [parameter "period" .integer (.ofInt 14) (.ofInt 2) (.ofInt 200),
          parameter "buyThreshold" .number (.ofInt 30) (.ofInt 0) (.ofInt 50),
          parameter "sellThreshold" .number (.ofInt 70) (.ofInt 50) (.ofInt 100)]
      requiresSentiment := false }
  create parameters := ⟨fun context =>
    match relativeStrength numbers parameters context with
    | none => .ok "HOLD"
    | some value =>
      if value.lt (numberParameter numbers parameters "buyThreshold" (.ofInt 30)) then .ok "BUY"
      else if (numberParameter numbers parameters "sellThreshold" (.ofInt 70)).lt value then
        .ok "SELL"
      else .ok "HOLD"⟩
  validateParameters := requireBelow numbers "buyThreshold" "sellThreshold"

def outerBands (parameters : Parameters) (context : StrategyContext) : Option Bands :=
  bollingerBands numbers (lastValues context)
    (numberParameter numbers parameters "period" (.ofInt 20))
    (numberParameter numbers parameters "deviations" (.ofInt 2))

def bollinger : StrategyFactory where
  descriptor :=
    { name := "BOLLINGER"
      displayName := "Bollinger Bands"
      category := .volatility
      implementationVersion := "1.0.0"
      implementationSha256 := artifactSha256 "BOLLINGER"
      minimumHistoryCandles := 20
      parameters :=
        [parameter "period" .integer (.ofInt 20) (.ofInt 2) (.ofInt 500),
          parameter "deviations" .number (.ofInt 2) (tenths 1) (.ofInt 5)]
      requiresSentiment := false }
  create parameters := ⟨fun context =>
    match outerBands numbers parameters context with
    | none => .ok "HOLD"
    | some bands =>
      if context.currentPrice.lt bands.lower then .ok "BUY"
      else if bands.upper.lt context.currentPrice then .ok "SELL"
      else .ok "HOLD"⟩
  validateParameters _ := .ok ()

def recentLevels (parameters : Parameters) (context : StrategyContext) : Option Levels :=
  supportResistance context.candles (numberParameter numbers parameters "lookback" (.ofInt 20))

def supportResistanceFactory : StrategyFactory where
  descriptor :=
    { name := "SUPPORT_RESISTANCE"
      displayName := "Support / Resistance"
      category := .structural
      implementationVersion := "1.0.0"
      implementationSha256 := artifactSha256 "SUPPORT_RESISTANCE"
      minimumHistoryCandles := 20
      parameters :=
        [parameter "lookback" .integer (.ofInt 20) (.ofInt 2) (.ofInt 500),
          parameter "proximityPercent" .number (.ofInt 1) (hundredths 1) (.ofInt 20)]
      requiresSentiment := false }
  create parameters :=
    let proximityPercent := numbers.divide
      (numberParameter numbers parameters "proximityPercent" (.ofInt 1)) (.ofInt 100)
    ⟨fun context =>
      match recentLevels numbers parameters context with
      | none => .ok "HOLD"
      | some levels =>
        if context.currentPrice.le
            (numbers.multiply levels.support (numbers.add (.ofInt 1) proximityPercent)) then
          .ok "BUY"
        else if (numbers.multiply levels.resistance
            (numbers.subtract (.ofInt 1) proximityPercent)).le context.currentPrice then
          .ok "SELL"
        else .ok "HOLD"⟩
  validateParameters _ := .ok ()

def sentimentFactory : StrategyFactory where
  descriptor :=
    { name := "SENTIMENT"
      displayName := "News sentiment"
      category := .information
      implementationVersion := "1.0.0"
      implementationSha256 := artifactSha256 "SENTIMENT"
      minimumHistoryCandles := 0
      parameters :=
        [parameter "buyThreshold" .number (tenths 2) (hundredths 1) (.ofInt 1),
          parameter "sellThreshold" .number (tenths (-2)) (.ofInt (-1)) (hundredths (-1))]
      requiresSentiment := true }
  create parameters := ⟨fun context =>
    match context.sentiment with
    | none => .ok "HOLD"
    | some sentiment =>
      if (numberParameter numbers parameters "buyThreshold" (tenths 2)).le
          sentiment.averageScore then .ok "BUY"
      else if sentiment.averageScore.le
          (numberParameter numbers parameters "sellThreshold" (tenths (-2))) then .ok "SELL"
      else .ok "HOLD"⟩
  validateParameters := requireBelow numbers "sellThreshold" "buyThreshold"

/-- The registry lists them by name. -/
def builtInFactories : List StrategyFactory :=
  [bollinger numbers artifactSha256, ma numbers artifactSha256, rsi numbers artifactSha256,
    sentimentFactory numbers artifactSha256, supportResistanceFactory numbers artifactSha256]

/-- Whether each indicator that the named strategy rests on has a value in a context. -/
def consulted (strategyName : String) (parameters : Parameters) (context : StrategyContext) :
    Bool :=
  match strategyName with
  | "MA" => (movingAverages numbers parameters context).defined
  | "RSI" => (relativeStrength numbers parameters context).isSome
  | "BOLLINGER" => (outerBands numbers parameters context).isSome
  | "SUPPORT_RESISTANCE" => (recentLevels numbers parameters context).isSome
  | _ => true

/-- The candles that the indicators of the named strategy need. -/
def neededHistory (strategyName : String) (parameters : Parameters) : Nat :=
  match strategyName with
  | "MA" => (slowPeriod numbers parameters).toNat + 1
  | "RSI" => (numberParameter numbers parameters "period" (.ofInt 14)).toNat + 1
  | "BOLLINGER" => (numberParameter numbers parameters "period" (.ofInt 20)).toNat
  | "SUPPORT_RESISTANCE" => (numberParameter numbers parameters "lookback" (.ofInt 20)).toNat
  | _ => 0

end

end Cryptox.Strategy
