import Cryptox.Library.Outcome
import Cryptox.Backtesting.Service.Contracts

/-!
# What a simulation is given beside the candles

The strategy that combines the candidate's definitions, and the sealed sentiment of the scope.
-/
namespace Cryptox.Backtesting

open Cryptox.Library (throwIf)

/-- Sixty-four hexadecimal digits, of either case. -/
def isSha256 (text : String) : Bool :=
  text.length == 64 && text.toList.all fun c =>
    c.isDigit || ('a' ≤ c && c ≤ 'f') || ('A' ≤ c && c ≤ 'F')

/-- The strategies of the components, asked about one context in the order of the composite. -/
def componentSignals (strategies : List (String × Strategy)) (context : StrategyContext) :
    List CompositeComponent → Except String (List (String × String))
  | [] => .ok []
  | component :: rest =>
    match strategies.find? (·.1 == component.strategyDefinitionId) with
    | none => .error "INVALID_COMPOSITE_STRATEGY"
    | some (_, strategy) => do
      let signal ← strategy.analyze context
      return (component.strategyDefinitionId, signal) ::
        (← componentSignals strategies context rest)

def compositeStrategy (api : StrategyApi) (definitions : List StrategyDefinition)
    (composite : CompositeStrategyDefinition) : Except String Strategy := do
  throwIf (composite.components.isEmpty || composite.components.any fun component =>
    !definitions.any (·.id == component.strategyDefinitionId)) "INVALID_COMPOSITE_STRATEGY"
  let resolved ← definitions.mapM fun definition => do
    return (definition.id, ← api.resolveStrategy definition)
  return { analyze := fun context => do
    api.combineSignals composite (← componentSignals resolved.reverse context composite.components) }

inductive SelectionMode where
  | single | composite
deriving DecidableEq, Repr

/-- The mode `candidateRecord` gives a candidate. -/
def selectionMode (definitions : List StrategyDefinition)
    (composite : CompositeStrategyDefinition) : SelectionMode :=
  match definitions, composite.components, composite.method with
  | [definition], [component], .weightedScore =>
    if component.strategyDefinitionId == definition.id
        && component.weight.le (.ofInt 1) && (JsNumber.ofInt 1).le component.weight then .single
    else .composite
  | [_], [_], .majorityVote => .single
  | _, _, _ => .composite

def sentimentLabel (text : String) : Option SentimentLabel :=
  if text = "POSITIVE" then some .positive
  else if text = "NEUTRAL" then some .neutral
  else if text = "NEGATIVE" then some .negative
  else none

/-- A stored point is passed on only if its label and score are in range. -/
def checkedPoint (point : SentimentPoint) : Except String Sentiment :=
  match sentimentLabel point.label with
  | none => .error "SNAPSHOT_INCOMPLETE"
  | some label =>
    if !point.averageScore.isFinite || point.averageScore.lt (.ofInt (-1))
        || (JsNumber.ofInt 1).lt point.averageScore then
      .error "SNAPSHOT_INCOMPLETE"
    else .ok ⟨label, point.averageScore⟩

def sentimentReadAt (reader : String → String → Option SentimentPoint) (snapshotId : String)
    (candleCloseTime : String) : Except String (Option Sentiment) :=
  match reader snapshotId candleCloseTime with
  | none => .ok none
  | some point => (checkedPoint point).map some

/-- The close of a candle, as a date; the host throws on an invalid one. -/
def closeText (calendar : Calendar) (timeframe : Timeframe) (candle : Candle) :
    Except String String :=
  match calendar.parse candle.timestamp with
  | none => .error "Invalid time value"
  | some opened => calendar.toISOString (opened + timeframe.ms)

/-- How many candles have a point at their close. -/
def countPoints (calendar : Calendar) (timeframe : Timeframe)
    (readAt : String → Except String (Option Sentiment)) : List Candle → Except String Nat
  | [] => .ok 0
  | candle :: rest => do
    let close ← closeText calendar timeframe candle
    let point ← readAt close
    return (← countPoints calendar timeframe readAt rest) + if point.isSome then 1 else 0

/-- The sealed snapshot is the one the scope refers to, well formed, and about its base asset. -/
def sentimentSealed (scope : StoredBenchmarkScope) (reference actual : SentimentDatasetSnapshotRef) :
    Bool :=
  actual == reference && actual.relatedCoin == scope.pairMetadata.baseAsset
    && isSha256 actual.modelSha256 && isSha256 actual.sha256
    && actual.pointCount.isInteger && (JsNumber.ofInt 1).le actual.pointCount
    && actual.aggregationWindowSeconds.isInteger
    && (JsNumber.ofInt 1).le actual.aggregationWindowSeconds

/-- The range of the snapshot reaches from the first close to the last one. -/
def sentimentCovers (calendar : Calendar) (timeframe : Timeframe)
    (actual : SentimentDatasetSnapshotRef) (orderedCandles : List Candle) : Bool :=
  let close (candle : Option Candle) : Option Int :=
    (candle.bind fun candle => calendar.parse candle.timestamp).map (· + timeframe.ms)
  match calendar.parse actual.rangeFrom, calendar.parse actual.rangeTo with
  | some first, some last =>
    (close orderedCandles.head?).all (first ≤ ·) && (close orderedCandles.getLast?).all (· ≤ last)
  | _, _ => false

/-- Whatever the sentiment module throws is answered with the same error. -/
def orIncomplete {α : Type} (answer : Except String α) : Except String α :=
  match answer with
  | .ok value => .ok value
  | .error _ => .error "SNAPSHOT_INCOMPLETE"

def loadSentiment (deps : Dependencies) (scope : StoredBenchmarkScope) (candles : List Candle)
    (required : Bool) : Except String (Option (String → Except String (Option Sentiment))) :=
  if !required then .ok none
  else
    match scope.sentimentDatasetSnapshot, deps.sentiment with
    | some reference, some sentiment => do
      let actual ← orIncomplete (sentiment.getSnapshotRef reference.id)
      throwIf (!sentimentSealed scope reference actual) "SNAPSHOT_INCOMPLETE"
      let orderedCandles := (candles.filter (·.isClosed)).insertionSort fun left right =>
        deps.calendar.localeCompare left.timestamp right.timestamp ≠ .gt
      throwIf (!sentimentCovers deps.calendar scope.timeframe actual orderedCandles)
        "SNAPSHOT_INCOMPLETE"
      let reader ← orIncomplete (sentiment.readSnapshot actual.id)
      let readAt := sentimentReadAt reader actual.id
      let pointsFound ← countPoints deps.calendar scope.timeframe readAt orderedCandles
      throwIf ((JsNumber.ofInt pointsFound).lt actual.pointCount) "SNAPSHOT_INCOMPLETE"
      return some readAt
    | _, _ => .error "SNAPSHOT_INCOMPLETE"

end Cryptox.Backtesting
