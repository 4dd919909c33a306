import Cryptox.Library.Comparators
import Cryptox.Library.Outcome
import Cryptox.Backtesting.Service.Contracts

/-!
# The visualization of an experiment

The candles of a page, the overlays of the strategies over the whole requested range, and a marker
for every event of a trade. The contexts that the strategies draw from are built anew from the
candles of the sealed snapshot.
-/
namespace Cryptox.Backtesting

open Cryptox.Library (throwIf sortWith bind_eq_ok pure_eq_ok throwIf_eq_ok)

def VISUALIZATION_CANDLE_DEFAULT : Nat := 500
def VISUALIZATION_CANDLE_MAX : Nat := 2000
def VISUALIZATION_OVERLAY_MAX : Nat := 32

structure LinePoint where
  time : String
  value : JsNumber
deriving DecidableEq, Repr

structure ZonePoint where
  time : String
  low : JsNumber
  high : JsNumber
deriving DecidableEq, Repr

structure SignalPoint where
  time : String
  value : JsNumber
  signal : String
deriving DecidableEq, Repr

/-- The kind of an overlay with its points. -/
inductive OverlayPoints where
  | line (points : List LinePoint)
  | zone (points : List ZonePoint)
  | signal (points : List SignalPoint)
deriving DecidableEq, Repr

structure StrategyVisualizationOverlay where
  id : String
  strategyDefinitionId : String
  label : String
  points : OverlayPoints
deriving DecidableEq, Repr

inductive MarkerKind where
  | entry | stopLoss | takeProfit | exit
deriving DecidableEq, Repr

structure ExperimentVisualizationMarker where
  id : String
  tradeId : String
  sequence : Nat
  kind : MarkerKind
  side : Signal
  time : String
  price : Decimal
  exitReason : Option ExitReason
  highlighted : Bool
deriving DecidableEq, Repr

structure DatasetSnapshot where
  id : String
  rangeFrom : String
  rangeTo : String
deriving DecidableEq, Repr

structure InputSnapshot where
  snapshot : DatasetSnapshot
  candles : List Candle
deriving DecidableEq, Repr

/-- What a visualization reads of an experiment. -/
structure VisualizedExperiment where
  datasetSnapshotId : String
  strategyDefinitions : List StrategyDefinition
  trades : List Trade
deriving Repr

structure ExperimentVisualizationPageRequest where
  rangeFrom : Option String
  rangeTo : Option String
  limit : Option JsNumber
  cursor : Option String
  highlightTradeId : Option String
deriving DecidableEq, Repr

structure ExperimentVisualization where
  experimentId : String
  datasetSnapshot : DatasetSnapshot
  candles : List Candle
  overlays : List StrategyVisualizationOverlay
  markers : List ExperimentVisualizationMarker
  nextCursor : Option String
deriving DecidableEq, Repr

/-- What a visualization is read from. -/
structure VisualizationSources where
  calendar : Calendar
  /-- `Number` of a text. -/
  toNumber : String → JsNumber
  /-- By the id and the owner. -/
  readExperiment : String → String → Option VisualizedExperiment
  readInputSnapshot : String → Option InputSnapshot
  resolveStrategy : StrategyDefinition → Except String Strategy
  buildVisualization : Option (StrategyDefinition → List StrategyContext →
    Except String (List StrategyVisualizationOverlay))

def invalidPage : String := "INVALID_VISUALIZATION_PAGE"

def visualizationContexts (candles : List Candle) : List StrategyContext :=
  candles.mapIdx fun index candle =>
    { pair := candle.pair
      timeframe := candle.timeframe
      candles := (candles.take (index + 1)).map toStrategyCandle
      currentPrice := candle.close
      sentiment := none }

def isSignal (text : String) : Bool := ["BUY", "SELL", "HOLD"].contains text

/-- An instant from `first` on and before `last`. -/
def opensWithin (calendar : Calendar) (first last : Int) (time : String) : Bool :=
  (calendar.parse time).any fun opened => decide (first ≤ opened) && decide (opened < last)

/-- Every point is checked, also one outside of the range. -/
def pointsWithin {α : Type} (calendar : Calendar) (first last : Int) (time : α → String)
    (valid : α → Bool) (points : List α) : Except String (List α) := do
  throwIf (points.any fun point => (calendar.parse (time point)).isNone || !valid point) invalidPage
  return points.filter fun point => opensWithin calendar first last (time point)

def OverlayPoints.within (calendar : Calendar) (first last : Int) :
    OverlayPoints → Except String OverlayPoints
  | .line points =>
    (pointsWithin calendar first last (·.time) (·.value.isFinite) points).map .line
  | .zone points =>
    (pointsWithin calendar first last (·.time)
      (fun point => point.low.isFinite && point.high.isFinite && !point.high.lt point.low)
      points).map .zone
  | .signal points =>
    (pointsWithin calendar first last (·.time)
      (fun point => isSignal point.signal && point.value.isFinite) points).map .signal

def overlayWithin (calendar : Calendar) (first last : Int) (definition : StrategyDefinition)
    (overlay : StrategyVisualizationOverlay) : Except String StrategyVisualizationOverlay := do
  throwIf (isBlank overlay.id || overlay.strategyDefinitionId != definition.id
    || isBlank overlay.label) invalidPage
  return { overlay with points := ← overlay.points.within calendar first last }

section Markers

def MarkerKind.text : MarkerKind → String
  | .entry => "ENTRY"
  | .stopLoss => "STOP_LOSS"
  | .takeProfit => "TAKE_PROFIT"
  | .exit => "EXIT"

def MarkerKind.order : MarkerKind → Nat
  | .entry => 0
  | .stopLoss => 1
  | .takeProfit => 2
  | .exit => 3

variable (highlightTradeId : Option String) (trade : Trade)

def marker (kind : MarkerKind) (time : String) (price : Decimal) :
    ExperimentVisualizationMarker where
  id := trade.id ++ ":" ++ kind.text
  tradeId := trade.id
  sequence := trade.sequence
  kind
  side := trade.signal
  time
  price
  exitReason := if kind = .exit then some trade.exitReason else none
  highlighted := some trade.id == highlightTradeId

def tradeMarkers : List ExperimentVisualizationMarker :=
  [marker highlightTradeId trade .entry trade.entryTime trade.entryPrice]
    ++ (trade.stopLoss.map (marker highlightTradeId trade .stopLoss trade.entryTime)).toList
    ++ (trade.takeProfit.map (marker highlightTradeId trade .takeProfit trade.entryTime)).toList
    ++ [marker highlightTradeId trade .exit trade.exitTime trade.exitPrice]

variable (calendar : Calendar)

/-- The markers within a range have instants, so that none is missing here. -/
def compareMarkers (left right : ExperimentVisualizationMarker) : Ordering :=
  (compare ((calendar.parse left.time).getD 0) ((calendar.parse right.time).getD 0)).then
    ((compare left.sequence right.sequence).then
      ((compare left.kind.order right.kind.order).then (calendar.localeCompare left.id right.id)))

end Markers

def allClosedCandles (calendar : Calendar) (candles : List Candle) : List Candle :=
  (candles.filter (·.isClosed)).insertionSort
    fun left right => calendar.localeCompare left.timestamp right.timestamp ≠ .gt

/-- The closed candles before the end of the range. -/
def contextCandles (calendar : Calendar) (last : Int) (candles : List Candle) : List Candle :=
  (allClosedCandles calendar candles).filter fun candle =>
    (calendar.parse candle.timestamp).any fun opened => decide (opened < last)

namespace VisualizationSources

variable (sources : VisualizationSources)

/-- The overlays of one definition, once its artifact is resolved. -/
def definitionOverlays (contexts : List StrategyContext) (first last : Int)
    (build : StrategyDefinition → List StrategyContext →
      Except String (List StrategyVisualizationOverlay)) (definition : StrategyDefinition) :
    Except String (List StrategyVisualizationOverlay) :=
  match sources.resolveStrategy definition with
  | .error _ => .error "IMPLEMENTATION_ARTIFACT_UNAVAILABLE"
  | .ok _ => do
    (← build definition contexts).mapM (overlayWithin sources.calendar first last definition)

def buildExperimentOverlays (definitions : List StrategyDefinition) (candles : List Candle)
    (first last : Int) : Except String (List StrategyVisualizationOverlay) :=
  match sources.buildVisualization with
  | none => .ok []
  | some build => do
    let overlays ← definitions.mapM
      (sources.definitionOverlays (visualizationContexts candles) first last build)
    throwIf (VISUALIZATION_OVERLAY_MAX < overlays.flatten.length) invalidPage
    return overlays.flatten

def readExperimentSummary (userId experimentId : String) : Except String VisualizedExperiment := do
  throwIf (isBlank userId) "INVALID_AUTH_CONTEXT"
  match sources.readExperiment experimentId userId with
  | some experiment => return experiment
  | none => .error "EXPERIMENT_NOT_FOUND"

def snapshot (snapshotId : String) : Except String InputSnapshot :=
  match sources.readInputSnapshot snapshotId with
  | some input => .ok input
  | none => .error "BACKTEST_DATASET_NOT_FOUND"

/-- The requested range, within that of the snapshot as far as that has instants. -/
def requestedRange (page : ExperimentVisualizationPageRequest) (snapshot : DatasetSnapshot) :
    Except String (Int × Int) :=
  match sources.calendar.parse (page.rangeFrom.getD snapshot.rangeFrom),
    sources.calendar.parse (page.rangeTo.getD snapshot.rangeTo) with
  | some first, some last => do
    throwIf ((sources.calendar.parse snapshot.rangeFrom).any (fun start => decide (first < start))
      || (sources.calendar.parse snapshot.rangeTo).any (fun stop => decide (stop < last))
      || decide (last ≤ first)) invalidPage
    return (first, last)
  | _, _ => .error invalidPage

/-- An empty text is neither a cursor nor a trade to highlight. -/
def pageOffset (page : ExperimentVisualizationPageRequest) : Except String Nat := do
  let offset := ((page.cursor.filter (· ≠ "")).map sources.toNumber).getD (.ofInt 0)
  throwIf (!offset.isInteger || offset.lt (.ofInt 0)) invalidPage
  return offset.toNat

def readExperimentVisualization (userId experimentId : String)
    (page : ExperimentVisualizationPageRequest) : Except String ExperimentVisualization := do
  let limit := page.limit.getD (.ofInt VISUALIZATION_CANDLE_DEFAULT)
  throwIf (!limit.isInteger || limit.lt (.ofInt 1)
    || (JsNumber.ofInt VISUALIZATION_CANDLE_MAX).lt limit) invalidPage
  let experiment ← sources.readExperimentSummary userId experimentId
  let input ← sources.snapshot experiment.datasetSnapshotId
  let (first, last) ← sources.requestedRange page input.snapshot
  throwIf ((page.highlightTradeId.filter (· ≠ "")).any fun id =>
    !experiment.trades.any (·.id == id)) "TRADE_NOT_FOUND"
  let offset ← sources.pageOffset page
  let allCandles := (allClosedCandles sources.calendar input.candles).filter fun candle =>
    opensWithin sources.calendar first last candle.timestamp
  throwIf (allCandles.length < offset) invalidPage
  let markers := sortWith (compareMarkers sources.calendar)
    ((experiment.trades.flatMap (tradeMarkers page.highlightTradeId)).filter fun marker =>
      opensWithin sources.calendar first last marker.time)
  let overlays ← sources.buildExperimentOverlays experiment.strategyDefinitions
    (contextCandles sources.calendar last input.candles) first last
  return {
    experimentId
    datasetSnapshot := input.snapshot
    candles := (allCandles.drop offset).take limit.toNat
    overlays
    markers
    nextCursor :=
      if offset + limit.toNat < allCandles.length then some (toString (offset + limit.toNat))
      else none }

section Readings

variable {sources : VisualizationSources} {first last : Int}

theorem pointsWithin_eq_ok {α : Type} {calendar : Calendar} {time : α → String} {valid : α → Bool}
    {points kept : List α} (h : pointsWithin calendar first last time valid points = .ok kept) :
    kept = points.filter fun point => opensWithin calendar first last (time point) := by
  rw [pointsWithin, bind_eq_ok] at h
  obtain ⟨-, -, h⟩ := h
  exact (pure_eq_ok.mp h).symm

theorem overlayWithin_eq_ok {calendar : Calendar} {definition : StrategyDefinition}
    {emitted overlay : StrategyVisualizationOverlay}
    (h : overlayWithin calendar first last definition emitted = .ok overlay) :
    overlay.strategyDefinitionId = definition.id ∧
      emitted.points.within calendar first last = .ok overlay.points := by
  rw [overlayWithin, bind_eq_ok] at h
  obtain ⟨_, hchecks, h⟩ := h
  obtain ⟨points, hpoints, h⟩ := bind_eq_ok.mp h
  obtain rfl := pure_eq_ok.mp h
  simp only [throwIf_eq_ok, Bool.or_eq_false_iff, bne_eq_false_iff_eq] at hchecks
  exact ⟨hchecks.1.2, hpoints⟩

theorem within_eq_ok_signal {calendar : Calendar} {points : OverlayPoints}
    {kept : List SignalPoint} (h : points.within calendar first last = .ok (.signal kept)) :
    ∃ drawn, points = .signal drawn ∧
      kept = drawn.filter fun point => opensWithin calendar first last point.time := by
  cases points with
  | line points =>
    rw [OverlayPoints.within] at h
    cases hkept : pointsWithin calendar first last (·.time) (·.value.isFinite) points with
    | error e =>
      rw [hkept] at h
      cases h
    | ok value =>
      rw [hkept] at h
      cases h
  | zone points =>
    rw [OverlayPoints.within] at h
    generalize pointsWithin calendar first last _ _ points = found at h
    cases found with
    | error e => cases h
    | ok value => cases h
  | signal points =>
    rw [OverlayPoints.within] at h
    generalize hkept : pointsWithin calendar first last _ _ points = found at h
    cases found with
    | error e => cases h
    | ok value =>
      cases h
      exact ⟨points, rfl, pointsWithin_eq_ok hkept⟩

/-- Every overlay was emitted for a definition whose artifact is retained. -/
theorem mem_buildExperimentOverlays {definitions : List StrategyDefinition} {candles : List Candle}
    {overlays : List StrategyVisualizationOverlay}
    (h : sources.buildExperimentOverlays definitions candles first last = .ok overlays)
    {overlay : StrategyVisualizationOverlay} (hmem : overlay ∈ overlays) :
    ∃ build, sources.buildVisualization = some build ∧
      ∃ definition ∈ definitions,
        (∃ strategy, sources.resolveStrategy definition = .ok strategy) ∧
        ∃ emitted, build definition (visualizationContexts candles) = .ok emitted ∧
          ∃ drawn ∈ emitted,
            overlayWithin sources.calendar first last definition drawn = .ok overlay := by
  rw [buildExperimentOverlays] at h
  cases hbuild : sources.buildVisualization with
  | none =>
    rw [hbuild] at h
    cases h
    cases hmem
  | some build =>
    rw [hbuild] at h
    obtain ⟨lists, hlists, h⟩ := bind_eq_ok.mp h
    obtain ⟨-, -, h⟩ := bind_eq_ok.mp h
    obtain rfl := pure_eq_ok.mp h
    obtain ⟨list, hlist, hmem⟩ := List.mem_flatten.mp hmem
    obtain ⟨definition, hdefinition, hanswer⟩ :=
      Cryptox.Library.exists_of_mem_mapM hlists hlist
    refine ⟨build, rfl, definition, hdefinition, ?_⟩
    rw [definitionOverlays] at hanswer
    cases hresolve : sources.resolveStrategy definition with
    | error e =>
      rw [hresolve] at hanswer
      cases hanswer
    | ok strategy =>
      rw [hresolve] at hanswer
      obtain ⟨emitted, hemitted, hanswer⟩ := bind_eq_ok.mp hanswer
      obtain ⟨drawn, hdrawn, hoverlay⟩ := Cryptox.Library.exists_of_mem_mapM hanswer hmem
      exact ⟨⟨strategy, rfl⟩, emitted, hemitted, drawn, hdrawn, hoverlay⟩

theorem requestedRange_eq_ok {page : ExperimentVisualizationPageRequest}
    {snapshot : DatasetSnapshot} (h : sources.requestedRange page snapshot = .ok (first, last)) :
    sources.calendar.parse (page.rangeFrom.getD snapshot.rangeFrom) = some first ∧
      sources.calendar.parse (page.rangeTo.getD snapshot.rangeTo) = some last := by
  rw [requestedRange] at h
  cases hfirst : sources.calendar.parse (page.rangeFrom.getD snapshot.rangeFrom) with
  | none =>
    rw [hfirst] at h
    cases h
  | some opened =>
    cases hlast : sources.calendar.parse (page.rangeTo.getD snapshot.rangeTo) with
    | none =>
      rw [hfirst, hlast] at h
      cases h
    | some closed =>
      rw [hfirst, hlast] at h
      obtain ⟨-, -, h⟩ := bind_eq_ok.mp h
      cases h
      exact ⟨rfl, rfl⟩

/-- What was read for a visualization that is answered. -/
theorem readExperimentVisualization_eq_ok {userId experimentId : String}
    {page : ExperimentVisualizationPageRequest} {answer : ExperimentVisualization}
    (h : sources.readExperimentVisualization userId experimentId page = .ok answer) :
    ∃ experiment input first last,
      sources.readExperiment experimentId userId = some experiment ∧
      sources.readInputSnapshot experiment.datasetSnapshotId = some input ∧
      sources.calendar.parse (page.rangeFrom.getD input.snapshot.rangeFrom) = some first ∧
      sources.calendar.parse (page.rangeTo.getD input.snapshot.rangeTo) = some last ∧
      sources.buildExperimentOverlays experiment.strategyDefinitions
        (contextCandles sources.calendar last input.candles) first last = .ok answer.overlays := by
  simp only [readExperimentVisualization, bind_eq_ok, pure_eq_ok, throwIf_eq_ok] at h
  obtain ⟨-, -, experiment, hexperiment, input, hinput, ⟨first, last⟩, hrange, -, -, offset, -, -,
    -, overlays, hoverlays, rfl⟩ := h
  obtain ⟨hfirst, hlast⟩ := requestedRange_eq_ok hrange
  refine ⟨experiment, input, first, last, ?_, ?_, hfirst, hlast, hoverlays⟩
  · rw [readExperimentSummary, bind_eq_ok] at hexperiment
    obtain ⟨-, -, hexperiment⟩ := hexperiment
    cases hfound : sources.readExperiment experimentId userId with
    | none =>
      rw [hfound] at hexperiment
      cases hexperiment
    | some found =>
      rw [hfound] at hexperiment
      rw [pure_eq_ok.mp hexperiment]
  · rw [snapshot] at hinput
    cases hfound : sources.readInputSnapshot experiment.datasetSnapshotId with
    | none =>
      rw [hfound] at hinput
      cases hinput
    | some found =>
      rw [hfound] at hinput
      rw [Except.ok.inj hinput]

end Readings

end VisualizationSources

end Cryptox.Backtesting
