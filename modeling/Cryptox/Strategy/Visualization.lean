import Cryptox.Backtesting.Service.Visualization
import Cryptox.Strategy.WarmUp

/-!
# What the built-in strategies draw

Each strategy answers a list of contexts with its overlays, and states its rule a second time where
it draws signals. The service passes on the last contexts only, and what it is answered it puts in
order: at most so many overlays and points, every point with finite values.
-/
namespace Cryptox.Strategy

open Cryptox.Backtesting (JsNumber StrategyContext LinePoint ZonePoint SignalPoint OverlayPoints
  StrategyVisualizationOverlay isBlank isSignal)

def MAX_VISUALIZATION_POINTS : Nat := 5000
def MAX_VISUALIZATION_OVERLAYS : Nat := 32

structure StrategyVisualizationOverlayDraft where
  id : String
  label : String
  points : OverlayPoints
deriving DecidableEq, Repr

/-- `values.slice(-count)` -/
def lastValuesOf {α : Type} (count : Nat) (values : List α) : List α :=
  values.drop (values.length - count)

/-- The time of the last candle and the closes up to it. -/
def latest (context : StrategyContext) : Option (String × List JsNumber) :=
  context.candles.getLast?.map fun candle => (candle.timestamp, lastValues context)

def signalPoint (context : StrategyContext) (value : JsNumber) (signal : String) :
    List SignalPoint :=
  match latest context with
  | some (time, _) => if value.isFinite then [⟨time, value, signal⟩] else []
  | none => []

def pointCount : OverlayPoints → Nat
  | .line points => points.length
  | .zone points => points.length
  | .signal points => points.length

def nonEmpty (overlays : List StrategyVisualizationOverlayDraft) :
    List StrategyVisualizationOverlayDraft :=
  overlays.filter fun overlay => 0 < pointCount overlay.points

section Plugins

variable (numbers : Numbers)

/-- One value at the last candle of each context that has a finite one. -/
def linePointsOf (value : List JsNumber → Option JsNumber)
    (contexts : List StrategyContext) : List LinePoint :=
  contexts.filterMap fun context =>
    match latest context with
    | none => none
    | some (time, closes) =>
      ((value closes).filter (·.isFinite)).map fun value => ⟨time, value⟩

def linePoints (contexts : List StrategyContext) (period : JsNumber) : List LinePoint :=
  linePointsOf (fun closes => simpleMovingAverage numbers closes period) contexts

def levelPoints (level : Levels → JsNumber) (contexts : List StrategyContext)
    (lookback : JsNumber) : List ZonePoint :=
  contexts.filterMap fun context =>
    match latest context with
    | none => none
    | some (time, _) =>
      (((supportResistance context.candles lookback).map level).filter (·.isFinite)).map
        fun value => ⟨time, value, value⟩

-- `text` is the text of a number in a label.
variable (text : JsNumber → String) (parameters : Parameters) (contexts : List StrategyContext)

def maOverlays : List StrategyVisualizationOverlayDraft :=
  nonEmpty
    [⟨"fast", "MA (" ++ text (fastPeriod numbers parameters) ++ ")",
        .line (linePoints numbers contexts (fastPeriod numbers parameters))⟩,
      ⟨"slow", "MA (" ++ text (slowPeriod numbers parameters) ++ ")",
        .line (linePoints numbers contexts (slowPeriod numbers parameters))⟩]

def rsiPoints (context : StrategyContext) : List SignalPoint :=
  let buyThreshold := numberParameter numbers parameters "buyThreshold" (.ofInt 30)
  let sellThreshold := numberParameter numbers parameters "sellThreshold" (.ofInt 70)
  match relativeStrengthIndex numbers (lastValues context)
    (numberParameter numbers parameters "period" (.ofInt 14)) with
  | none => []
  | some value =>
    signalPoint context value
      (if value.lt buyThreshold then "BUY" else if sellThreshold.lt value then "SELL" else "HOLD")

def rsiOverlays : List StrategyVisualizationOverlayDraft :=
  nonEmpty
    [⟨"rsi", "RSI (" ++ text (numberParameter numbers parameters "period" (.ofInt 14)) ++ ")",
      .signal (contexts.flatMap (rsiPoints numbers parameters))⟩]

def bollingerOverlays : List StrategyVisualizationOverlayDraft :=
  let period := numberParameter numbers parameters "period" (.ofInt 20)
  let deviations := numberParameter numbers parameters "deviations" (.ofInt 2)
  let band (side : Bands → JsNumber) : OverlayPoints :=
    .line (linePointsOf (fun closes =>
      (bollingerBands numbers closes period deviations).map side) contexts)
  nonEmpty
    [⟨"middle", "Bollinger middle (" ++ text period ++ ")", band (·.middle)⟩,
      ⟨"upper", "Bollinger upper (" ++ text period ++ ")", band (·.upper)⟩,
      ⟨"lower", "Bollinger lower (" ++ text period ++ ")", band (·.lower)⟩]

def supportResistanceOverlays : List StrategyVisualizationOverlayDraft :=
  let lookback := numberParameter numbers parameters "lookback" (.ofInt 20)
  nonEmpty
    [⟨"support", "Support", .zone (levelPoints (·.support) contexts lookback)⟩,
      ⟨"resistance", "Resistance", .zone (levelPoints (·.resistance) contexts lookback)⟩]

def sentimentPoints (context : StrategyContext) : List SignalPoint :=
  match context.sentiment with
  | none => []
  | some sentiment =>
    signalPoint context sentiment.averageScore
      (if (numberParameter numbers parameters "buyThreshold" (tenths 2)).le
          sentiment.averageScore then "BUY"
        else if sentiment.averageScore.le
          (numberParameter numbers parameters "sellThreshold" (tenths (-2))) then "SELL"
        else "HOLD")

def sentimentOverlays : List StrategyVisualizationOverlayDraft :=
  nonEmpty
    [⟨"sentiment", "News sentiment",
      .signal (contexts.flatMap (sentimentPoints numbers parameters))⟩]

/-- The `buildVisualization` of the strategy that a built-in factory creates. -/
def pluginOverlays (strategyName : String) : List StrategyVisualizationOverlayDraft :=
  match strategyName with
  | "MA" => maOverlays numbers text parameters contexts
  | "RSI" => rsiOverlays numbers text parameters contexts
  | "BOLLINGER" => bollingerOverlays numbers text parameters contexts
  | "SUPPORT_RESISTANCE" => supportResistanceOverlays numbers parameters contexts
  | "SENTIMENT" => sentimentOverlays numbers parameters contexts
  | _ => []

end Plugins

section Normalization

def kindText : OverlayPoints → String
  | .line _ => "LINE"
  | .zone _ => "ZONE"
  | .signal _ => "SIGNAL"

def normalizedPoints : OverlayPoints → OverlayPoints
  | .line points =>
    .line ((lastValuesOf MAX_VISUALIZATION_POINTS points).filter (·.value.isFinite))
  | .zone points =>
    .zone (((lastValuesOf MAX_VISUALIZATION_POINTS points).filter fun point =>
      point.low.isFinite && point.high.isFinite).map fun point =>
        ⟨point.time, point.low.min point.high, point.low.max point.high⟩)
  | .signal points =>
    .signal ((lastValuesOf MAX_VISUALIZATION_POINTS points).filter fun point =>
      point.value.isFinite && isSignal point.signal)

/-- What becomes of one draft; its place serves where it has no id. -/
def normalizeOverlay (definition : Backtesting.StrategyDefinition) (overlayIndex : Nat)
    (overlay : StrategyVisualizationOverlayDraft) : List StrategyVisualizationOverlay :=
  let label :=
    if isBlank overlay.label then kindText overlay.points ++ " overlay" else overlay.label
  let localId :=
    if isBlank overlay.id then "overlay-" ++ toString (overlayIndex + 1) else trim overlay.id
  let points := normalizedPoints overlay.points
  if 0 < pointCount points then
    [⟨definition.id ++ ":" ++ localId, definition.id, label, points⟩]
  else []

def normalizeVisualization (definition : Backtesting.StrategyDefinition)
    (overlays : List StrategyVisualizationOverlayDraft) : List StrategyVisualizationOverlay :=
  ((overlays.take MAX_VISUALIZATION_OVERLAYS).mapIdx (normalizeOverlay definition)).flatten

end Normalization

/-- The service's `buildVisualization`, with the factory found by name and hash. -/
def StrategyModule.buildVisualization (strategies : StrategyModule) (text : JsNumber → String)
    (definition : Backtesting.StrategyDefinition) (contexts : List StrategyContext) :
    Except String (List StrategyVisualizationOverlay) :=
  match strategies.factories.find? fun factory =>
      factory.descriptor.name == definition.strategyName
        && factory.descriptor.implementationSha256 == definition.implementationSha256 with
  | none => .error "IMPLEMENTATION_ARTIFACT_UNAVAILABLE"
  | some factory =>
    .ok (normalizeVisualization definition
      (pluginOverlays strategies.numbers text definition.parameters
        (lastValuesOf MAX_VISUALIZATION_POINTS contexts) factory.descriptor.name))

end Cryptox.Strategy
