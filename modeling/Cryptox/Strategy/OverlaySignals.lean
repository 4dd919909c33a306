import Cryptox.Backtesting.Simulator.Market
import Cryptox.Strategy.Visualization

/-!
# Overlays of signals against the simulation

An experiment is drawn from the candles it was simulated on, over contexts built anew. A signal
overlay has one point for each context, so it agrees with the simulation on every candle that is
among the last contexts passed on; the candles before those are left out.
-/
namespace Cryptox.Strategy

open Cryptox.Backtesting
open Cryptox.Library

section Lists

/-- Where a property is kept towards the front, what has it is a front part. -/
theorem exists_filter_eq_take {α : Type} {p : α → Bool} {values : List α}
    (h : values.Pairwise fun left right => p right = true → p left = true) :
    ∃ count, values.filter p = values.take count ∧
      ∀ index value, values[index]? = some value → p value = true → index < count := by
  induction values with
  | nil => exact ⟨0, rfl, fun index value hvalue => by cases hvalue⟩
  | cons first rest ih =>
    obtain ⟨hfirst, hrest⟩ := List.pairwise_cons.mp h
    by_cases hp : p first = true
    · obtain ⟨count, hcount, hbelow⟩ := ih hrest
      refine ⟨count + 1, ?_, fun index value hvalue hpvalue => ?_⟩
      · rw [List.filter_cons_of_pos hp, hcount, List.take_succ_cons]
      · cases index with
        | zero => exact Nat.succ_pos _
        | succ index =>
          have hlt := hbelow index value hvalue hpvalue
          omega
    · have hnone : ∀ value ∈ rest, ¬ p value = true :=
        fun value hvalue hpvalue => hp (hfirst value hvalue hpvalue)
      refine ⟨0, ?_, fun index value hvalue hpvalue => ?_⟩
      · rw [List.filter_cons_of_neg hp, List.take_zero]
        exact List.filter_eq_nil_iff.mpr hnone
      · have hmem := List.mem_of_getElem? hvalue
        rcases List.mem_cons.mp hmem with rfl | hmem
        · exact absurd hpvalue hp
        · exact absurd hpvalue (hnone value hmem)

variable {α β κ : Type} [DecidableEq κ] {values : List α} {emit : α → List β} {key : α → κ}
  {keyOf : β → κ}

theorem filter_flatMap_of_not_mem (hkey : ∀ value ∈ values, ∀ b ∈ emit value, keyOf b = key value)
    {k : κ} (hk : k ∉ values.map key) : (values.flatMap emit).filter (keyOf · == k) = [] := by
  rw [List.filter_eq_nil_iff]
  intro b hb
  obtain ⟨value, hvalue, hb⟩ := List.mem_flatMap.mp hb
  rw [beq_iff_eq, hkey value hvalue b hb]
  exact fun heq => hk (heq ▸ List.mem_map_of_mem hvalue)

/-- Under distinct keys, what has the key of a value is what was emitted for it. -/
theorem filter_flatMap_of_mem (hkey : ∀ value ∈ values, ∀ b ∈ emit value, keyOf b = key value)
    (hnodup : (values.map key).Nodup) {value : α} (hvalue : value ∈ values) :
    (values.flatMap emit).filter (keyOf · == key value) = emit value := by
  induction values with
  | nil => cases hvalue
  | cons first rest ih =>
    rw [List.map_cons, List.nodup_cons] at hnodup
    have hrest : ∀ value ∈ rest, ∀ b ∈ emit value, keyOf b = key value :=
      fun value hvalue => hkey value (List.mem_cons_of_mem _ hvalue)
    have hfirst : ∀ b ∈ emit first, keyOf b = key first := hkey first List.mem_cons_self
    rw [List.flatMap_cons, List.filter_append]
    rcases List.mem_cons.mp hvalue with rfl | hvalue
    · rw [filter_flatMap_of_not_mem hrest hnodup.1, List.append_nil, List.filter_eq_self]
      exact fun b hb => beq_iff_eq.mpr (hfirst b hb)
    · have hother : key first ≠ key value :=
        fun heq => hnodup.1 (heq ▸ List.mem_map_of_mem hvalue)
      rw [ih hrest hnodup.2 hvalue]
      have hnone : (emit first).filter (keyOf · == key value) = [] := by
        rw [List.filter_eq_nil_iff]
        intro b hb
        rw [beq_iff_eq, hfirst b hb]
        exact hother
      rw [hnone, List.nil_append]

end Lists

/-- The number a strategy's signals rest on, for the strategies that draw signals. -/
def signalIndicator (numbers : Numbers) (strategyName : String) (parameters : Parameters)
    (context : StrategyContext) : Option JsNumber :=
  match strategyName with
  | "RSI" => relativeStrength numbers parameters context
  | "SENTIMENT" => context.sentiment.map (·.averageScore)
  | _ => none

section Drafts

variable {numbers : Numbers} {text : JsNumber → String} {parameters : Parameters}
  {contexts : List StrategyContext}

/-- Signals are drawn by two strategies only. -/
theorem signal_drafts {strategyName : String} {draft : StrategyVisualizationOverlayDraft}
    {points : List SignalPoint}
    (h : draft ∈ pluginOverlays numbers text parameters contexts strategyName)
    (hpoints : draft.points = .signal points) :
    (strategyName = "RSI" ∧ points = contexts.flatMap (rsiPoints numbers parameters)) ∨
      (points = contexts.flatMap (sentimentPoints numbers parameters) ∧ points ≠ []) := by
  rw [pluginOverlays.eq_def] at h
  split at h
  · simp only [maOverlays, nonEmpty, List.mem_filter, List.mem_cons, List.not_mem_nil,
      or_false] at h
    obtain ⟨rfl | rfl, -⟩ := h <;> cases hpoints
  · simp only [rsiOverlays, nonEmpty, List.mem_filter, List.mem_singleton] at h
    obtain ⟨rfl, -⟩ := h
    cases hpoints
    exact .inl ⟨rfl, rfl⟩
  · simp only [bollingerOverlays, nonEmpty, List.mem_filter, List.mem_cons, List.not_mem_nil,
      or_false] at h
    obtain ⟨rfl | rfl | rfl, -⟩ := h <;> cases hpoints
  · simp only [supportResistanceOverlays, nonEmpty, List.mem_filter, List.mem_cons,
      List.not_mem_nil, or_false] at h
    obtain ⟨rfl | rfl, -⟩ := h <;> cases hpoints
  · simp only [sentimentOverlays, nonEmpty, List.mem_filter, List.mem_singleton] at h
    obtain ⟨rfl, hcount⟩ := h
    cases hpoints
    refine .inr ⟨rfl, fun hnil => ?_⟩
    rw [hnil] at hcount
    simp [pointCount] at hcount
  · cases h

theorem mem_normalizeVisualization {definition : Backtesting.StrategyDefinition}
    {drafts : List StrategyVisualizationOverlayDraft} {overlay : StrategyVisualizationOverlay}
    (h : overlay ∈ normalizeVisualization definition drafts) :
    ∃ draft ∈ drafts, overlay.points = normalizedPoints draft.points := by
  rw [normalizeVisualization, List.mem_flatten] at h
  obtain ⟨list, hlist, hoverlay⟩ := h
  rw [List.mem_mapIdx] at hlist
  obtain ⟨index, hindex, rfl⟩ := hlist
  rw [normalizeOverlay] at hoverlay
  split at hoverlay
  · rw [List.mem_singleton] at hoverlay
    refine ⟨_, List.mem_of_mem_take (List.getElem_mem hindex), ?_⟩
    rw [hoverlay]
  · cases hoverlay

theorem normalizedPoints_eq_signal {drawn : OverlayPoints} {points : List SignalPoint}
    (h : normalizedPoints drawn = .signal points) :
    ∃ signals, drawn = .signal signals ∧
      points = (lastValuesOf MAX_VISUALIZATION_POINTS signals).filter fun point =>
        point.value.isFinite && isSignal point.signal := by
  cases drawn with
  | line drawn => cases h
  | zone drawn => cases h
  | signal signals => exact ⟨signals, rfl, (OverlayPoints.signal.inj h).symm⟩

theorem lastValuesOf_of_length_le {α : Type} {count : Nat} {values : List α}
    (h : values.length ≤ count) : lastValuesOf count values = values := by
  rw [lastValuesOf, Nat.sub_eq_zero_of_le h, List.drop_zero]

theorem length_lastValuesOf_le {α : Type} (count : Nat) (values : List α) :
    (lastValuesOf count values).length ≤ count := by
  rw [lastValuesOf, List.length_drop]
  omega

theorem length_signalPoint_le (context : StrategyContext) (value : JsNumber) (signal : String) :
    (signalPoint context value signal).length ≤ 1 := by
  rw [signalPoint]
  split
  · split <;> simp
  · simp

theorem length_rsiPoints_le (context : StrategyContext) :
    (rsiPoints numbers parameters context).length ≤ 1 := by
  rw [rsiPoints]
  split
  · simp
  · exact length_signalPoint_le _ _ _

theorem mem_signalPoint {context : StrategyContext} {value : JsNumber} {signal : String}
    {point : SignalPoint} (h : point ∈ signalPoint context value signal) :
    (latest context).map Prod.fst = some point.time ∧ point.value = value ∧
      value.isFinite = true ∧ point.signal = signal := by
  rw [signalPoint] at h
  split at h
  · rename_i time closes hlatest
    split at h
    · rename_i hfinite
      rw [List.mem_singleton] at h
      rw [h, hlatest]
      exact ⟨rfl, rfl, hfinite, rfl⟩
    · cases h
  · cases h

theorem mem_rsiPoints {context : StrategyContext} {point : SignalPoint}
    (h : point ∈ rsiPoints numbers parameters context) :
    (latest context).map Prod.fst = some point.time ∧ point.value.isFinite = true ∧
      isSignal point.signal = true := by
  rw [rsiPoints] at h
  split at h
  · cases h
  · obtain ⟨htime, hvalue, hfinite, hsignal⟩ := mem_signalPoint h
    refine ⟨htime, hvalue ▸ hfinite, ?_⟩
    rw [hsignal]
    split
    · rfl
    · split <;> rfl

/-- Nothing that the strategy draws is lost in the service. -/
theorem normalized_rsiPoints (hcount : contexts.length ≤ MAX_VISUALIZATION_POINTS) :
    ((lastValuesOf MAX_VISUALIZATION_POINTS
      (contexts.flatMap (rsiPoints numbers parameters))).filter fun point =>
        point.value.isFinite && isSignal point.signal) =
      contexts.flatMap (rsiPoints numbers parameters) := by
  have hlength : (contexts.flatMap (rsiPoints numbers parameters)).length ≤ contexts.length := by
    clear hcount
    induction contexts with
    | nil => rfl
    | cons context contexts ih =>
      have hone : (rsiPoints numbers parameters context).length ≤ 1 := length_rsiPoints_le context
      rw [List.flatMap_cons, List.length_append, List.length_cons]
      omega
  rw [lastValuesOf_of_length_le (hlength.trans hcount), List.filter_eq_self]
  intro point hpoint
  obtain ⟨context, -, hpoint⟩ := List.mem_flatMap.mp hpoint
  obtain ⟨-, hfinite, hsignal⟩ := mem_rsiPoints hpoint
  rw [hfinite, hsignal]
  rfl

end Drafts

section Contexts

variable {candles : List Candle} {numbers : Numbers} {parameters : Parameters}

/-- Only the candles of a context count. -/
theorem rsiPoints_congr {left right : StrategyContext} (h : left.candles = right.candles) :
    rsiPoints numbers parameters left = rsiPoints numbers parameters right := by
  have hvalues : lastValues left = lastValues right := by
    rw [lastValues, lastValues, h]
  have hlatest : latest left = latest right := by rw [latest, latest, h, hvalues]
  rw [rsiPoints, rsiPoints, hvalues]
  simp only [signalPoint, hlatest]

theorem latest_front {index : Nat} {candle : Candle} (h : candles[index]? = some candle)
    {context : StrategyContext}
    (hcontext : context.candles = (candles.take (index + 1)).map toStrategyCandle) :
    (latest context).map Prod.fst = some candle.timestamp := by
  rw [latest, hcontext, List.take_add_one, h, List.map_append]
  simp [toStrategyCandle]

/-- The rule of the relative strength index is stated twice, to the same effect. -/
theorem rsi_rules_agree (artifactSha256 : String → String) {index : Nat} {candle : Candle}
    (h : candles[index]? = some candle) {context : StrategyContext}
    (hcontext : context.candles = (candles.take (index + 1)).map toStrategyCandle)
    {value : JsNumber} (hvalue : relativeStrength numbers parameters context = some value) :
    ∃ signal,
      rsiPoints numbers parameters context =
        (if value.isFinite then [⟨candle.timestamp, value, signal⟩] else []) ∧
      ((rsi numbers artifactSha256).create parameters).analyze context = .ok signal := by
  obtain ⟨⟨time, closes⟩, hlatest, rfl⟩ := Option.map_eq_some_iff.mp (latest_front h hcontext)
  have hindex := hvalue
  rw [relativeStrength] at hindex
  simp only [rsiPoints, hindex, signalPoint, hlatest, rsi, hvalue]
  refine ⟨_, rfl, ?_⟩
  split
  · rfl
  · split <;> rfl

theorem getElem?_visualizationContexts {index : Nat} {context : StrategyContext}
    (h : (visualizationContexts candles)[index]? = some context) :
    ∃ candle, candles[index]? = some candle ∧
      context.candles = (candles.take (index + 1)).map toStrategyCandle ∧
      context.sentiment = none := by
  rw [visualizationContexts, List.getElem?_mapIdx] at h
  obtain ⟨candle, hcandle, rfl⟩ := Option.map_eq_some_iff.mp h
  exact ⟨candle, hcandle, rfl, rfl⟩

theorem length_visualizationContexts : (visualizationContexts candles).length = candles.length :=
  List.length_mapIdx

/-- The time at which a context is drawn. -/
def contextTime (context : StrategyContext) : String :=
  ((latest context).map Prod.fst).getD ""

theorem map_contextTime :
    (visualizationContexts candles).map contextTime = candles.map (·.timestamp) := by
  refine List.ext_getElem? fun index => ?_
  rw [List.getElem?_map, List.getElem?_map]
  cases hcontext : (visualizationContexts candles)[index]? with
  | none =>
    rw [List.getElem?_eq_none_iff, length_visualizationContexts] at hcontext
    rw [List.getElem?_eq_none_iff.mpr hcontext]
    rfl
  | some context =>
    obtain ⟨candle, hcandle, hcandles, -⟩ := getElem?_visualizationContexts hcontext
    rw [hcandle, Option.map_some, Option.map_some, contextTime, latest_front hcandle hcandles]
    rfl

theorem sentiment_of_mem {context : StrategyContext}
    (h : context ∈ visualizationContexts candles) : context.sentiment = none := by
  obtain ⟨index, hindex⟩ := List.mem_iff_getElem?.mp h
  obtain ⟨-, -, -, hnone⟩ := getElem?_visualizationContexts hindex
  exact hnone

/-- Without sentiment no signals are drawn from it. -/
theorem sentimentPoints_eq_nil {contexts : List StrategyContext}
    (h : ∀ context ∈ contexts, context.sentiment = none) :
    contexts.flatMap (sentimentPoints numbers parameters) = [] := by
  rw [List.flatMap_eq_nil_iff]
  intro context hcontext
  rw [sentimentPoints, h context hcontext]

/-- The points at one candle: those of its context, if that is among the last ones. -/
theorem rsiPoints_at {count index : Nat} {candle : Candle} {context : StrategyContext}
    (hnodup : (candles.map (·.timestamp)).Nodup) (hcandle : candles[index]? = some candle)
    (hcontext : context.candles = (candles.take (index + 1)).map toStrategyCandle) :
    ((lastValuesOf count (visualizationContexts candles)).flatMap
        (rsiPoints numbers parameters)).filter (·.time == candle.timestamp) =
      if candles.length ≤ index + count then rsiPoints numbers parameters context else [] := by
  have hkey : ∀ other ∈ lastValuesOf count (visualizationContexts candles),
      ∀ point ∈ rsiPoints numbers parameters other, point.time = contextTime other := by
    intro other _ point hpoint
    rw [contextTime, (mem_rsiPoints hpoint).1]
    rfl
  have htimes : (lastValuesOf count (visualizationContexts candles)).map contextTime =
      (candles.map (·.timestamp)).drop (candles.length - count) := by
    rw [lastValuesOf, List.map_drop, map_contextTime, length_visualizationContexts]
  have hlt := (List.getElem?_eq_some_iff.mp hcandle).1
  have hdrawn : index < (visualizationContexts candles).length := by
    rwa [length_visualizationContexts]
  split
  · rename_i hlast
    obtain ⟨drawn, hget⟩ : ∃ drawn, (visualizationContexts candles)[index]? = some drawn :=
      ⟨_, List.getElem?_eq_getElem hdrawn⟩
    obtain ⟨other, hother, hcandles, -⟩ := getElem?_visualizationContexts hget
    obtain rfl : candle = other := Option.some.inj (hcandle.symm.trans hother)
    have htime : contextTime drawn = candle.timestamp := by
      rw [contextTime, latest_front hcandle hcandles]
      rfl
    have hmem : drawn ∈ lastValuesOf count (visualizationContexts candles) := by
      rw [lastValuesOf, length_visualizationContexts, List.mem_iff_getElem?]
      refine ⟨index - (candles.length - count), ?_⟩
      rw [List.getElem?_drop, ← hget]
      congr 1
      omega
    rw [← htime, filter_flatMap_of_mem hkey (htimes ▸ hnodup.sublist (List.drop_sublist _ _)) hmem]
    exact rsiPoints_congr (hcandles.trans hcontext.symm)
  · rename_i hearly
    refine filter_flatMap_of_not_mem hkey ?_
    rw [htimes]
    intro hmem
    obtain ⟨place, hplace⟩ := List.mem_iff_getElem?.mp hmem
    rw [List.getElem?_drop, List.getElem?_map] at hplace
    have hsame : (candles.map (·.timestamp))[index]? = some candle.timestamp := by
      rw [List.getElem?_map, hcandle]
      rfl
    rw [← List.getElem?_map, ← hsame] at hplace
    have hindex : index < (candles.map (·.timestamp)).length := by rwa [List.length_map]
    have heq := (List.getElem?_inj hindex hnodup).mp hplace.symm
    omega

end Contexts

/-- The sources of the backtesting module with the strategy module behind them. -/
def withStrategies (sources : VisualizationSources) (strategies : StrategyModule)
    (text : JsNumber → String) : VisualizationSources :=
  { sources with
    resolveStrategy := strategies.resolveStrategy
    buildVisualization := some (strategies.buildVisualization text) }

/-- The dates of candles are ordered as their texts are. -/
def DatedInOrder (calendar : Calendar) (candles : List Candle) : Prop :=
  ∀ left ∈ candles, ∀ right ∈ candles, left.timestamp < right.timestamp →
    ∀ opened ∈ calendar.parse left.timestamp, ∀ later ∈ calendar.parse right.timestamp,
      opened < later

/-- A simulated candle in the range and past the warm-up where the indicator has a value. Sentiment
is what the simulation reads there, where it evaluates the candle. -/
structure Expected (numbers : Numbers) (definition : Backtesting.StrategyDefinition)
    (sim : Simulation) (first last : Int) (index : Nat) (candle : Candle)
    (sentiment : Option Sentiment) : Prop where
  simulated : sim.candles[index]? = some candle
  inRange : opensWithin sim.calendar first last candle.timestamp = true
  warm : sim.warmupCandles ≤ index
  read : sim.isLastIndex index = false →
    Simulation.sentimentRead sim.calendar sim.input candle = .ok sentiment
  defined : (signalIndicator numbers definition.strategyName definition.parameters
    (sim.context candle index sentiment)).isSome = true

/-- One point at a candle, with the answer of the strategy there. -/
def Agrees (points : List SignalPoint) (strategy : Backtesting.Strategy) (candle : Candle)
    (context : StrategyContext) : Prop :=
  ∃ value signal, points.filter (·.time == candle.timestamp) = [⟨candle.timestamp, value, signal⟩] ∧
    strategy.analyze context = .ok signal

section Agreement

variable {strategies : StrategyModule} {artifactSha256 : String → String}
  {text : JsNumber → String}

theorem buildVisualization_eq_ok {definition : Backtesting.StrategyDefinition}
    {contexts : List StrategyContext} {emitted : List StrategyVisualizationOverlay}
    (h : strategies.buildVisualization text definition contexts = .ok emitted) :
    ∃ factory ∈ strategies.factories, factory.descriptor.name = definition.strategyName ∧
      strategies.resolveStrategy definition = .ok (factory.create definition.parameters) ∧
      emitted = normalizeVisualization definition
        (pluginOverlays strategies.numbers text definition.parameters
          (lastValuesOf MAX_VISUALIZATION_POINTS contexts) factory.descriptor.name) := by
  rw [StrategyModule.buildVisualization] at h
  rw [StrategyModule.resolveStrategy]
  split at h
  · cases h
  · rename_i factory hfound
    rw [hfound]
    have hfits := List.find?_some hfound
    rw [Bool.and_eq_true, beq_iff_eq] at hfits
    exact ⟨factory, List.mem_of_find?_eq_some hfound, hfits.1, rfl, (Except.ok.inj h).symm⟩

/-- The contexts are a front part of the simulated candles, with every candle before the end. -/
theorem contextCandles_eq_take {calendar : Calendar} {candles : List Candle}
    {input : SimulationInput} {sim : Simulation} (hprepare : prepare calendar input = .ok sim)
    (hcandles : input.candles = candles) (hdates : DatedInOrder calendar candles) (last : Int) :
    ∃ count, contextCandles calendar last candles = sim.candles.take count ∧
      ∀ index candle, sim.candles[index]? = some candle →
        (calendar.parse candle.timestamp).any (fun opened => decide (opened < last)) = true →
          index < count := by
  have haccepted := prepare_accepted hprepare
  have hclosed : sim.candles = allClosedCandles calendar candles := by
    rw [haccepted.candles_eq, closedCandles, hcandles, allClosedCandles]
  have hmem : ∀ candle ∈ sim.candles, candle ∈ candles := by
    intro candle hcandle
    rw [hclosed, allClosedCandles, List.mem_insertionSort] at hcandle
    exact (List.mem_filter.mp hcandle).1
  have hordered := List.pairwise_map.mp haccepted.ordered
  rw [contextCandles, ← hclosed]
  refine exists_filter_eq_take (hordered.imp_of_mem fun {left right} hleft hright hlt hbefore => ?_)
  obtain ⟨opened, hopened⟩ := Option.isSome_iff_exists.mp (prepare_valid hprepare left hleft).dated
  obtain ⟨later, hlater⟩ := Option.isSome_iff_exists.mp (prepare_valid hprepare right hright).dated
  have hearlier := hdates left (hmem left hleft) right (hmem right hright) hlt opened hopened later
    hlater
  rw [hlater, Option.any_some, decide_eq_true_eq] at hbefore
  rw [hopened, Option.any_some, decide_eq_true_eq]
  exact hearlier.trans hbefore

theorem rsi_agrees_iff {calendar : Calendar} {candles : List Candle} {input : SimulationInput}
    {sim : Simulation} (hprepare : prepare calendar input = .ok sim)
    (hcandles : input.candles = candles) (hdates : DatedInOrder calendar candles)
    {definition : Backtesting.StrategyDefinition} (hname : definition.strategyName = "RSI")
    {first last : Int} {index : Nat} {candle : Candle} {sentiment : Option Sentiment}
    (h : Expected strategies.numbers definition sim first last index candle sentiment) :
    Agrees (((lastValuesOf MAX_VISUALIZATION_POINTS
          (visualizationContexts (contextCandles calendar last candles))).flatMap
            (rsiPoints strategies.numbers definition.parameters)).filter
              fun point => opensWithin calendar first last point.time)
        ((rsi strategies.numbers artifactSha256).create definition.parameters) candle
        (sim.context candle index sentiment) ↔
      (contextCandles calendar last candles).length ≤ index + MAX_VISUALIZATION_POINTS ∧
        ∀ value ∈ signalIndicator strategies.numbers definition.strategyName definition.parameters
          (sim.context candle index sentiment), value.isFinite = true := by
  obtain ⟨hsimulated, hrange, -, -, hdefined⟩ := h
  have haccepted := prepare_accepted hprepare
  rw [haccepted.calendar_eq] at hrange
  obtain ⟨count, hcontexts, hbelow⟩ := contextCandles_eq_take hprepare hcandles hdates last
  have hindex : index < count := by
    refine hbelow index candle hsimulated ?_
    rw [opensWithin] at hrange
    cases hopened : calendar.parse candle.timestamp with
    | none =>
      rw [hopened] at hrange
      cases hrange
    | some opened =>
      rw [hopened, Option.any_some, Bool.and_eq_true] at hrange
      exact hrange.2
  have hcandle : (contextCandles calendar last candles)[index]? = some candle := by
    rw [hcontexts, List.getElem?_take_of_lt hindex, hsimulated]
  have hfront : (sim.context candle index sentiment).candles =
      ((contextCandles calendar last candles).take (index + 1)).map toStrategyCandle := by
    rw [Simulation.context, hcontexts, List.take_take, Nat.min_eq_left hindex]
  have hnodup : ((contextCandles calendar last candles).map (·.timestamp)).Nodup := by
    rw [hcontexts, List.map_take]
    exact (haccepted.ordered.imp fun hlt => hlt.ne).sublist (List.take_sublist _ _)
  rw [hname] at hdefined ⊢
  obtain ⟨value, hvalue⟩ := Option.isSome_iff_exists.mp hdefined
  have hindicator : signalIndicator strategies.numbers "RSI" definition.parameters
      (sim.context candle index sentiment) = some value := hvalue
  obtain ⟨signal, hpoints, hanalyze⟩ :=
    rsi_rules_agree artifactSha256 hcandle hfront hvalue
  rw [Agrees, List.filter_comm, rsiPoints_at hnodup hcandle hfront, hpoints, hindicator]
  by_cases hlast : (contextCandles calendar last candles).length ≤
      index + MAX_VISUALIZATION_POINTS
  · rw [if_pos hlast]
    by_cases hfinite : value.isFinite = true
    · have hkept : List.filter (fun point => opensWithin calendar first last point.time)
          [⟨candle.timestamp, value, signal⟩] =
            [(⟨candle.timestamp, value, signal⟩ : SignalPoint)] :=
        List.filter_cons_of_pos hrange
      rw [if_pos hfinite, hkept]
      refine iff_of_true ⟨value, signal, rfl, hanalyze⟩ ⟨hlast, fun other hother => ?_⟩
      obtain rfl := Option.some.inj hother
      exact hfinite
    · rw [if_neg hfinite, List.filter_nil]
      refine iff_of_false (fun hagrees => ?_) fun hboth => hfinite (hboth.2 value rfl)
      obtain ⟨_, _, hnil, -⟩ := hagrees
      cases hnil
  · rw [if_neg hlast, List.filter_nil]
    refine iff_of_false (fun hagrees => ?_) fun hboth => hlast hboth.1
    obtain ⟨_, _, hnil, -⟩ := hagrees
    cases hnil

/-- A signal overlay shows the simulated signals just when all candles it is to show are among the
last ones passed on, and the indicator is finite at each of them. -/
theorem overlay_signals_iff (sources : VisualizationSources) (strategies : StrategyModule)
    (artifactSha256 : String → String) (text : JsNumber → String) {userId experimentId : String}
    {page : ExperimentVisualizationPageRequest} {answer : ExperimentVisualization}
    (hread : (withStrategies sources (withBuiltIns strategies artifactSha256)
      text).readExperimentVisualization userId experimentId page = .ok answer)
    {experiment : VisualizedExperiment}
    (hexperiment : sources.readExperiment experimentId userId = some experiment)
    {snapshot : InputSnapshot}
    (hsnapshot : sources.readInputSnapshot experiment.datasetSnapshotId = some snapshot)
    (hdates : DatedInOrder sources.calendar snapshot.candles)
    {input : SimulationInput} {sim : Simulation}
    (hprepare : prepare sources.calendar input = .ok sim)
    (hcandles : input.candles = snapshot.candles) :
    ∃ first last,
      sources.calendar.parse (page.rangeFrom.getD snapshot.snapshot.rangeFrom) = some first ∧
      sources.calendar.parse (page.rangeTo.getD snapshot.snapshot.rangeTo) = some last ∧
      ∀ overlay ∈ answer.overlays, ∀ points, overlay.points = .signal points →
        ∃ definition ∈ experiment.strategyDefinitions,
          definition.id = overlay.strategyDefinitionId ∧
          ∃ strategy, (withBuiltIns strategies artifactSha256).resolveStrategy definition =
              .ok strategy ∧
            ((∀ index candle sentiment,
                Expected strategies.numbers definition sim first last index candle sentiment →
                  Agrees points strategy candle (sim.context candle index sentiment)) ↔
              ∀ index candle sentiment,
                Expected strategies.numbers definition sim first last index candle sentiment →
                  (contextCandles sources.calendar last snapshot.candles).length ≤
                      index + MAX_VISUALIZATION_POINTS ∧
                    ∀ value ∈ signalIndicator strategies.numbers definition.strategyName
                      definition.parameters (sim.context candle index sentiment),
                      value.isFinite = true) := by
  obtain ⟨readExperiment, readSnapshot, first, last, hsame, hsame', hfirst, hlast, hoverlays⟩ :=
    VisualizationSources.readExperimentVisualization_eq_ok hread
  obtain rfl : experiment = readExperiment := Option.some.inj (hexperiment.symm.trans hsame)
  obtain rfl : snapshot = readSnapshot := Option.some.inj (hsnapshot.symm.trans hsame')
  refine ⟨first, last, hfirst, hlast, fun overlay hoverlay points hpoints => ?_⟩
  obtain ⟨build, hbuild, definition, hdefinition, -, emitted, hemitted, drawn, hdrawn, hwithin⟩ :=
    VisualizationSources.mem_buildExperimentOverlays hoverlays hoverlay
  obtain rfl := Option.some.inj hbuild
  obtain ⟨hid, hkept⟩ := VisualizationSources.overlayWithin_eq_ok hwithin
  rw [hpoints] at hkept
  obtain ⟨normalized, hnormalized, rfl⟩ := VisualizationSources.within_eq_ok_signal hkept
  obtain ⟨factory, hfactory, hname, hresolve, rfl⟩ := buildVisualization_eq_ok hemitted
  obtain ⟨draft, hdraft, hdrawnPoints⟩ := mem_normalizeVisualization hdrawn
  have hdrafted := hdrawnPoints.symm.trans hnormalized
  obtain ⟨signals, hsignals, hvalid⟩ := normalizedPoints_eq_signal hdrafted
  refine ⟨definition, hdefinition, hid.symm, _, hresolve, ?_⟩
  rcases signal_drafts hdraft hsignals with ⟨hrsi, hpoints⟩ | ⟨hpoints, hne⟩
  · have hfactoryRsi : factory = rsi strategies.numbers artifactSha256 := by
      refine builtIn_eq_of_name hfactory ?_ hrsi
      simp [builtInFactories]
    subst hfactoryRsi
    have hrsiName : definition.strategyName = "RSI" := hname.symm.trans hrsi
    rw [hvalid, hpoints, normalized_rsiPoints (length_lastValuesOf_le _ _)]
    exact forall_congr' fun index => forall_congr' fun candle => forall_congr' fun sentiment =>
      forall_congr' fun hexpected =>
        rsi_agrees_iff hprepare hcandles hdates hrsiName hexpected
  · refine absurd (hpoints.trans (sentimentPoints_eq_nil fun context hcontext => ?_)) hne
    exact sentiment_of_mem (List.mem_of_mem_drop hcontext)

end Agreement

section Emitted

variable {numbers : Numbers} {text : JsNumber → String} {parameters : Parameters}

theorem isBlank_append_of_mem {left right : String} {c : Char}
    (hc : c ∈ left.toList ∨ c ∈ right.toList) (hspace : isJsSpace c = false) :
    isBlank (left ++ right) = false := by
  rw [isBlank, String.toList_append, List.all_eq_false]
  exact ⟨c, List.mem_append.mpr hc, by simp [hspace]⟩

/-- A drawn index leaves the service as one overlay with all its points. -/
theorem normalizeVisualization_rsi {definition : Backtesting.StrategyDefinition}
    {contexts : List StrategyContext} (hcount : contexts.length ≤ MAX_VISUALIZATION_POINTS)
    (hdrawn : contexts.flatMap (rsiPoints numbers parameters) ≠ []) :
    normalizeVisualization definition (rsiOverlays numbers text parameters contexts) =
      [⟨definition.id ++ ":" ++ "rsi", definition.id,
        "RSI (" ++ text (numberParameter numbers parameters "period" (.ofInt 14)) ++ ")",
        .signal (contexts.flatMap (rsiPoints numbers parameters))⟩] := by
  have hpos : 0 < (contexts.flatMap (rsiPoints numbers parameters)).length :=
    List.length_pos_iff.mpr hdrawn
  have hlabel : isBlank ("RSI (" ++ text (numberParameter numbers parameters "period" (.ofInt 14))
      ++ ")") = false :=
    isBlank_append_of_mem (c := ')') (.inr (by decide)) (by decide)
  have hid : isBlank "rsi" = false := by decide
  have htrim : trim "rsi" = "rsi" := by decide
  have hnonEmpty : rsiOverlays numbers text parameters contexts =
      [⟨"rsi", "RSI (" ++ text (numberParameter numbers parameters "period" (.ofInt 14)) ++ ")",
        .signal (contexts.flatMap (rsiPoints numbers parameters))⟩] := by
    rw [rsiOverlays, nonEmpty, List.filter_eq_self]
    intro draft hdraft
    rw [List.mem_singleton.mp hdraft]
    exact decide_eq_true hpos
  have hpoints : normalizedPoints (.signal (contexts.flatMap (rsiPoints numbers parameters))) =
      .signal (contexts.flatMap (rsiPoints numbers parameters)) :=
    congrArg OverlayPoints.signal (normalized_rsiPoints hcount)
  rw [hnonEmpty, normalizeVisualization]
  simp only [MAX_VISUALIZATION_OVERLAYS, List.take_succ_cons, List.take_nil, List.mapIdx_cons,
    List.mapIdx_nil, normalizeOverlay, hlabel, hid, htrim, hpoints, pointCount, if_pos hpos,
    Bool.false_eq_true, if_false, List.flatten_cons, List.flatten_nil, List.append_nil]

/-- An overlay of dated signals is kept, with its points in the range. -/
theorem overlayWithin_signal {calendar : Calendar} {first last : Int}
    {definition : Backtesting.StrategyDefinition} {label : String} {points : List SignalPoint}
    (hlabel : isBlank label = false)
    (hdated : ∀ point ∈ points, (calendar.parse point.time).isSome = true)
    (hvalid : ∀ point ∈ points, point.value.isFinite = true ∧ isSignal point.signal = true) :
    overlayWithin calendar first last definition
        ⟨definition.id ++ ":" ++ "rsi", definition.id, label, .signal points⟩ =
      .ok ⟨definition.id ++ ":" ++ "rsi", definition.id, label,
        .signal (points.filter fun point => opensWithin calendar first last point.time)⟩ := by
  have hid : isBlank (definition.id ++ ":" ++ "rsi") = false :=
    isBlank_append_of_mem (c := 'r') (.inr (by decide)) (by decide)
  have hpoints : (points.any fun point => (calendar.parse point.time).isNone
      || !(isSignal point.signal && point.value.isFinite)) = false := by
    rw [List.any_eq_false]
    intro point hpoint
    obtain ⟨hfinite, hsignal⟩ := hvalid point hpoint
    rw [← Option.not_isSome, hdated point hpoint, hfinite, hsignal]
    decide
  rw [overlayWithin, hid, hlabel, bne_self_eq_false, OverlayPoints.within, pointsWithin, hpoints]
  rfl

end Emitted

section Minutes

/-! The minutes of the first four days of a year, at one price. -/

/-- What a date has between the month and the seconds. -/
def minuteDigits (minute : Nat) : List Char :=
  [Nat.digitChar (1 + minute / 60 / 24), 'T', Nat.digitChar (minute / 60 % 24 / 10),
    Nat.digitChar (minute / 60 % 24 % 10), ':', Nat.digitChar (minute % 60 / 10),
    Nat.digitChar (minute % 60 % 10)]

/-- A minute as the host writes its date. -/
def minuteText (minute : Nat) : String :=
  String.ofList ("2025-01-0".toList ++ (minuteDigits minute ++ ":00.000Z".toList))

theorem digitChar_toNat {n : Nat} (hn : n < 10) : n.digitChar.toNat = 48 + n := by
  have hall : ∀ i : Fin 10, i.val.digitChar.toNat = 48 + i.val := by decide
  exact hall ⟨n, hn⟩

theorem digitChar_lt_iff {m n : Nat} (hm : m < 10) (hn : n < 10) :
    m.digitChar < n.digitChar ↔ m < n := by
  have hleft := digitChar_toNat hm
  have hright := digitChar_toNat hn
  rw [Char.lt_def, UInt32.lt_iff_toNat_lt]
  change m.digitChar.toNat < n.digitChar.toNat ↔ m < n
  omega

/-- Two digits are ordered as their number. -/
theorem twoDigits_lt {m n : Nat} {ms ns : List Char} (hm : m < 100) (hn : n < 100)
    (h : m < n ∨ m = n ∧ ms < ns) :
    Nat.digitChar (m / 10) :: Nat.digitChar (m % 10) :: ms <
      Nat.digitChar (n / 10) :: Nat.digitChar (n % 10) :: ns := by
  rcases h with hlt | ⟨rfl, hrest⟩
  · rw [List.cons_lt_cons_iff]
    rcases Nat.lt_or_ge (m / 10) (n / 10) with htens | htens
    · exact .inl ((digitChar_lt_iff (by omega) (by omega)).mpr htens)
    · have hsame : m / 10 = n / 10 := by omega
      refine .inr ⟨by rw [hsame], ?_⟩
      rw [List.cons_lt_cons_iff]
      exact .inl ((digitChar_lt_iff (by omega) (by omega)).mpr (by omega))
  · rw [List.cons_lt_cons_iff, List.cons_lt_cons_iff]
    exact .inr ⟨rfl, .inr ⟨rfl, hrest⟩⟩

theorem append_lt {front left right : List Char} (h : left < right) :
    front ++ left < front ++ right := by
  induction front with
  | nil => exact h
  | cons c front ih => exact List.cons_lt_cons_iff.mpr (.inr ⟨rfl, ih⟩)

theorem toList_minuteText (minute : Nat) : (minuteText minute).toList =
    "2025-01-0".toList ++ (minuteDigits minute ++ ":00.000Z".toList) :=
  String.toList_ofList

theorem minuteText_lt {earlier later : Nat} (h : earlier < later) (hlater : later < 5760) :
    minuteText earlier < minuteText later := by
  rw [String.lt_iff_toList_lt, toList_minuteText, toList_minuteText]
  refine append_lt ?_
  simp only [minuteDigits, List.cons_append, List.nil_append]
  rw [List.cons_lt_cons_iff]
  rcases Nat.lt_or_ge (earlier / 60 / 24) (later / 60 / 24) with hday | hday
  · exact .inl ((digitChar_lt_iff (by omega) (by omega)).mpr (by omega))
  · have hsame : earlier / 60 / 24 = later / 60 / 24 := by omega
    refine .inr ⟨by rw [hsame], List.cons_lt_cons_iff.mpr (.inr ⟨rfl, ?_⟩)⟩
    refine twoDigits_lt (by omega) (by omega) ?_
    rcases Nat.lt_or_ge (earlier / 60 % 24) (later / 60 % 24) with hhour | hhour
    · exact .inl hhour
    · refine .inr ⟨by omega, List.cons_lt_cons_iff.mpr (.inr ⟨rfl, ?_⟩)⟩
      exact twoDigits_lt (by omega) (by omega) (.inl (by omega))

theorem minuteText_inj {left right : Nat} (hleft : left < 5760) (hright : right < 5760)
    (h : minuteText left = minuteText right) : left = right := by
  rcases Nat.lt_trichotomy left right with hlt | heq | hlt
  · exact absurd h (minuteText_lt hlt hright).ne
  · exact heq
  · exact absurd h.symm (minuteText_lt hlt hleft).ne

def minuteInstant (minute : Nat) : Int := 1735689600000 + 60000 * minute

def minuteCalendar : Calendar where
  localeCompare := compare
  parse text := ((List.range 5760).find? (minuteText · == text)).map minuteInstant
  toISOString instant :=
    match (List.range 5760).find? (minuteInstant · == instant) with
    | some minute => .ok (minuteText minute)
    | none => .error "Invalid time value"

theorem parse_minuteText {minute : Nat} (h : minute < 5760) :
    minuteCalendar.parse (minuteText minute) = some (minuteInstant minute) := by
  have hmem : minute ∈ List.range 5760 := List.mem_range.mpr h
  have hsome : ((List.range 5760).find? (minuteText · == minuteText minute)).isSome = true :=
    List.find?_isSome.mpr ⟨minute, hmem, beq_self_eq_true _⟩
  obtain ⟨found, hfound⟩ := Option.isSome_iff_exists.mp hsome
  have hsame : found = minute := by
    refine minuteText_inj ?_ h ?_
    · exact List.mem_range.mp (List.mem_of_find?_eq_some hfound)
    · simpa using List.find?_some hfound
  rw [minuteCalendar]
  simp only [hfound, hsame, Option.map_some]

/-- A candle of one price. -/
def minuteCandle (minute : Nat) : Candle :=
  { exampleCandle (minuteText minute) 100 100 100 100 with timeframe := .m1 }

def minuteCandles (count : Nat) : List Candle := (List.range count).map minuteCandle

theorem timestamps_minuteCandles {count : Nat} (hcount : count ≤ 5760) :
    ((minuteCandles count).map (·.timestamp)).Pairwise (· < ·) := by
  rw [minuteCandles, List.map_map, List.pairwise_map]
  refine (List.pairwise_lt_range (n := count)).imp_of_mem fun _ hright hlt => ?_
  have hbound := List.mem_range.mp hright
  exact minuteText_lt hlt (by omega)

theorem mem_minuteCandles {count : Nat} {candle : Candle} (h : candle ∈ minuteCandles count) :
    ∃ minute, minute < count ∧ candle = minuteCandle minute := by
  obtain ⟨minute, hminute, rfl⟩ := List.mem_map.mp h
  exact ⟨minute, List.mem_range.mp hminute, rfl⟩

theorem datedInOrder_minuteCandles {count : Nat} (hcount : count ≤ 5760) :
    DatedInOrder minuteCalendar (minuteCandles count) := by
  intro left hleft right hright hlt opened hopened later hlater
  obtain ⟨first, hfirst, rfl⟩ := mem_minuteCandles hleft
  obtain ⟨second, hsecond, rfl⟩ := mem_minuteCandles hright
  have hparsed : minuteCalendar.parse (minuteText first) = some (minuteInstant first) :=
    parse_minuteText (by omega)
  have hparsed' : minuteCalendar.parse (minuteText second) = some (minuteInstant second) :=
    parse_minuteText (by omega)
  obtain rfl := Option.some.inj (hparsed.symm.trans hopened)
  obtain rfl := Option.some.inj (hparsed'.symm.trans hlater)
  have horder : first < second := by
    by_contra hge
    rcases Nat.lt_or_ge second first with hback | hsame
    · exact lt_asymm hlt (minuteText_lt hback (by omega))
    · have heq : first = second := by omega
      exact absurd hlt (by rw [heq]; exact lt_irrefl _)
  rw [minuteInstant, minuteInstant]
  omega

theorem allClosedCandles_minuteCandles {count : Nat} (hcount : count ≤ 5760) :
    allClosedCandles minuteCalendar (minuteCandles count) = minuteCandles count := by
  have hclosed : (minuteCandles count).filter (·.isClosed) = minuteCandles count := by
    rw [List.filter_eq_self]
    intro candle hcandle
    obtain ⟨minute, -, rfl⟩ := mem_minuteCandles hcandle
    rfl
  rw [allClosedCandles, hclosed]
  refine List.Pairwise.insertionSort_eq ?_
  refine (List.pairwise_map.mp (timestamps_minuteCandles hcount)).imp fun hlt => ?_
  rw [minuteCalendar]
  dsimp only
  rw [compare_lt_iff_lt.mpr hlt]
  decide

def minuteDefinition : Backtesting.StrategyDefinition where
  id := "strategy-definition-1"
  strategyName := "RSI"
  implementationVersion := "1.0.0"
  implementationSha256 := "sha256-of-RSI"
  parameters := [("period", .inl (.ofInt 14)), ("buyThreshold", .inl (.ofInt 30)),
    ("sellThreshold", .inl (.ofInt 70))]

def minuteStrategies : StrategyModule :=
  withBuiltIns (exampleStrategies .inMemory) fun name => "sha256-of-" ++ name

def minuteInput (count : Nat) : SimulationInput :=
  { exampleInput (minuteCandles count) [] with
    timeframe := .m1
    warmupCandles := some (.ofInt 15)
    strategy := (rsi exampleNumbers fun name => "sha256-of-" ++ name).create
      minuteDefinition.parameters }

theorem closedCandles_minutes {count : Nat} (hcount : count ≤ 5760) :
    closedCandles minuteCalendar (minuteInput count) = minuteCandles count :=
  allClosedCandles_minuteCandles hcount

theorem prepare_minutes {count : Nat} (hlow : 15 ≤ count) (hcount : count ≤ 5760) :
    ∃ sim, prepare minuteCalendar (minuteInput count) = .ok sim := by
  have hvalid : validateCandles minuteCalendar (minuteInput count) none (minuteCandles count) =
      .ok () := by
    refine validateCandles_of_pairwise (fun candle hcandle => ?_) (timestamps_minuteCandles hcount)
      fun before hbefore => by cases hbefore
    obtain ⟨minute, hminute, rfl⟩ := mem_minuteCandles hcandle
    have hparsed : (minuteCalendar.parse (minuteCandle minute).timestamp).isNone = false := by
      have hsome : minuteCalendar.parse (minuteCandle minute).timestamp = _ :=
        parse_minuteText (by omega)
      rw [hsome]
      rfl
    rw [validateCandle, hparsed]
    rfl
  have hlength : decide ((minuteCandles count).length < (JsNumber.ofInt 15).toNat) = false := by
    rw [minuteCandles, List.length_map, List.length_range]
    exact decide_eq_false (not_lt.mpr hlow)
  have hchecks : (isBlank "USDT" || !(JsNumber.ofInt 1000).isFinite
      || (JsNumber.ofInt 1000).le (.ofInt 0) || !(tenths 1).isFinite
      || (tenths 1).lt (.ofInt 0)) = false := by
    decide
  simp only [prepare, exists_bind_ok, closedCandles_minutes hcount]
  refine ⟨(), throwIf_eq_ok.mpr hchecks, (), rfl, (), rfl, (), rfl, (), rfl, (), hvalid, (), ?_,
    _, rfl, _, rfl, _, rfl, _, rfl, _, rfl, _, rfl⟩
  exact throwIf_eq_ok.mpr hlength

theorem gainsAndLosses_constant (count : Nat) :
    gainsAndLosses exampleNumbers (.ofInt 100) (List.replicate count (.ofInt 100))
      (.ofInt 0, .ofInt 0) = (.ofInt 0, .ofInt 0) := by
  have hchange : exampleNumbers.subtract (.ofInt 100) (.ofInt 100) = .ofInt 0 := by decide
  have hgains : exampleNumbers.add (.ofInt 0) (.ofInt 0) = .ofInt 0 := by decide
  induction count with
  | zero => rfl
  | succ count ih =>
    rw [List.replicate_succ, gainsAndLosses, hchange, if_pos (by decide), hgains]
    exact ih

theorem relativeStrengthIndex_constant {count : Nat} (h : 14 < count) :
    relativeStrengthIndex exampleNumbers (List.replicate count (.ofInt 100)) (.ofInt 14) =
      some (.ofInt 50) := by
  have hperiod : isPeriod (.ofInt 14) = true := by decide
  have hlong : (JsNumber.ofInt count).le (.ofInt 14) = false := by
    rw [Bool.eq_false_iff]
    intro hle
    have hshort := (le_period hperiod count).mp hle
    exact absurd hshort (not_le.mpr h)
  have hwindow : (List.replicate count (JsNumber.ofInt 100)).drop
      (count - (JsNumber.ofInt 14).toNat - 1) =
        .ofInt 100 :: List.replicate 14 (.ofInt 100) := by
    have hperiods : (JsNumber.ofInt 14).toNat = 14 := rfl
    rw [hperiods, List.drop_replicate, ← List.replicate_succ]
    congr 1
    omega
  have hsame : sameNumber (.ofInt 0) (.ofInt 0) = true := by decide
  rw [relativeStrengthIndex, List.length_replicate, hperiod, hlong, hwindow]
  simp only [gainsAndLosses_constant, hsame]
  rfl

theorem relativeStrength_minutes {count index : Nat} (hlow : 14 ≤ index) (hindex : index < count)
    {context : StrategyContext}
    (hcontext : context.candles =
      ((minuteCandles count).take (index + 1)).map toStrategyCandle) :
    relativeStrength exampleNumbers minuteDefinition.parameters context = some (.ofInt 50) := by
  have hvalues : lastValues context = List.replicate (index + 1) (.ofInt 100) := by
    rw [lastValues, hcontext, List.map_map, List.eq_replicate_iff]
    refine ⟨?_, fun value hvalue => ?_⟩
    · rw [List.length_map, List.length_take, minuteCandles, List.length_map, List.length_range]
      omega
    · obtain ⟨candle, hcandle, rfl⟩ := List.mem_map.mp hvalue
      obtain ⟨minute, -, rfl⟩ := mem_minuteCandles (List.mem_of_mem_take hcandle)
      rfl
  rw [relativeStrength, hvalues]
  exact relativeStrengthIndex_constant (by omega)

def minuteSources (count : Nat) : VisualizationSources where
  calendar := minuteCalendar
  toNumber := fun _ => .nan
  readExperiment := fun _ _ => some ⟨"snapshot-1", [minuteDefinition], []⟩
  readInputSnapshot := fun _ =>
    some ⟨⟨"snapshot-1", minuteText 0, minuteText count⟩, minuteCandles count⟩
  resolveStrategy := minuteStrategies.resolveStrategy
  buildVisualization := none

/-- The first page over the whole range. -/
def wholeRange : ExperimentVisualizationPageRequest := ⟨none, none, none, none, none⟩

def minutePoints (count : Nat) : List SignalPoint :=
  (lastValuesOf MAX_VISUALIZATION_POINTS (visualizationContexts (minuteCandles count))).flatMap
    (rsiPoints exampleNumbers minuteDefinition.parameters)

theorem contextCandles_minutes {count : Nat} (hcount : count < 5760) :
    contextCandles minuteCalendar (minuteInstant count) (minuteCandles count) =
      minuteCandles count := by
  rw [contextCandles, allClosedCandles_minuteCandles (by omega), List.filter_eq_self]
  intro candle hcandle
  obtain ⟨minute, hminute, rfl⟩ := mem_minuteCandles hcandle
  have hparsed : minuteCalendar.parse (minuteCandle minute).timestamp = _ :=
    parse_minuteText (by omega)
  rw [hparsed, Option.any_some, decide_eq_true_eq, minuteInstant, minuteInstant]
  omega

theorem getElem?_minuteCandles {count index : Nat} (h : index < count) :
    (minuteCandles count)[index]? = some (minuteCandle index) := by
  rw [minuteCandles, List.getElem?_map, List.getElem?_range h]
  rfl

/-- The context of a minute, as the simulation and the visualization build it. -/
def minuteContext (count index : Nat) : StrategyContext where
  pair := "BTCUSDT"
  timeframe := .m1
  candles := ((minuteCandles count).take (index + 1)).map toStrategyCandle
  currentPrice := .ofInt 100
  sentiment := none

theorem minutePoints_at {count index : Nat} (hcount : count ≤ 5760) (hindex : index < count) :
    (minutePoints count).filter (·.time == minuteText index) =
      if count ≤ index + MAX_VISUALIZATION_POINTS then
        rsiPoints exampleNumbers minuteDefinition.parameters (minuteContext count index)
      else [] := by
  have hnodup : ((minuteCandles count).map (·.timestamp)).Nodup :=
    (timestamps_minuteCandles hcount).imp fun hlt => hlt.ne
  have hlength : (minuteCandles count).length = count := by
    rw [minuteCandles, List.length_map, List.length_range]
  have hpoints := @rsiPoints_at (minuteCandles count) exampleNumbers minuteDefinition.parameters
    MAX_VISUALIZATION_POINTS index _ (minuteContext count index) hnodup
    (getElem?_minuteCandles hindex) rfl
  rw [hlength] at hpoints
  exact hpoints

theorem rsiPoints_minutes {count index : Nat} (hlow : 14 ≤ index) (hindex : index < count) :
    rsiPoints exampleNumbers minuteDefinition.parameters (minuteContext count index) =
      [⟨minuteText index, .ofInt 50, "HOLD"⟩] := by
  have hvalue : relativeStrength exampleNumbers minuteDefinition.parameters
      (minuteContext count index) = some (.ofInt 50) := relativeStrength_minutes hlow hindex rfl
  obtain ⟨⟨time, closes⟩, hlatest, htime⟩ := Option.map_eq_some_iff.mp
    (latest_front (getElem?_minuteCandles hindex)
      (rfl : (minuteContext count index).candles = _))
  rw [relativeStrength] at hvalue
  have hrule : (if (JsNumber.ofInt 50).lt (numberParameter exampleNumbers
      minuteDefinition.parameters "buyThreshold" (.ofInt 30)) then "BUY"
      else if (numberParameter exampleNumbers minuteDefinition.parameters "sellThreshold"
        (.ofInt 70)).lt (.ofInt 50) then "SELL" else "HOLD") = "HOLD" := by
    decide
  have hminute : time = minuteText index := htime
  simp only [rsiPoints, hvalue, signalPoint, hlatest, hrule, hminute]
  rfl

theorem minutePoints_ne_nil {count : Nat} (hlow : 14 < count) (hcount : count ≤ 5760) :
    minutePoints count ≠ [] := by
  intro hnil
  have hend : count - 1 < count := by omega
  have hlast := minutePoints_at hcount hend
  rw [hnil, if_pos (by rw [MAX_VISUALIZATION_POINTS]; omega),
    rsiPoints_minutes (by omega) (by omega)] at hlast
  cases hlast

theorem mem_minutePoints {count : Nat} (hcount : count ≤ 5760) {point : SignalPoint}
    (h : point ∈ minutePoints count) :
    (minuteCalendar.parse point.time).isSome = true ∧ point.value.isFinite = true ∧
      isSignal point.signal = true := by
  obtain ⟨context, hcontext, hpoint⟩ := List.mem_flatMap.mp h
  obtain ⟨htime, hfinite, hsignal⟩ := mem_rsiPoints hpoint
  refine ⟨?_, hfinite, hsignal⟩
  obtain ⟨index, hindex⟩ := List.mem_iff_getElem?.mp (List.mem_of_mem_drop hcontext)
  obtain ⟨candle, hcandle, hcandles, -⟩ := getElem?_visualizationContexts hindex
  obtain ⟨minute, hminute, rfl⟩ := mem_minuteCandles (List.mem_of_getElem? hcandle)
  have hsame : some (minuteText minute) = some point.time :=
    (latest_front hcandle hcandles).symm.trans htime
  rw [← Option.some.inj hsame, parse_minuteText (by omega)]
  rfl

/-- The index as it is answered. -/
def minuteOverlay (count : Nat) : StrategyVisualizationOverlay where
  id := "strategy-definition-1:rsi"
  strategyDefinitionId := "strategy-definition-1"
  label := "RSI (14e-0)"
  points := .signal ((minutePoints count).filter fun point =>
    opensWithin minuteCalendar (minuteInstant 0) (minuteInstant count) point.time)

theorem definitionOverlays_minutes {count : Nat} (hlow : 14 < count) (hcount : count < 5760) :
    (withStrategies (minuteSources count) minuteStrategies exampleNumberText).definitionOverlays
      (visualizationContexts (minuteCandles count)) (minuteInstant 0) (minuteInstant count)
      (minuteStrategies.buildVisualization exampleNumberText) minuteDefinition =
        .ok [minuteOverlay count] := by
  have hemitted : minuteStrategies.buildVisualization exampleNumberText minuteDefinition
      (visualizationContexts (minuteCandles count)) =
        .ok [⟨"strategy-definition-1:rsi", "strategy-definition-1", "RSI (14e-0)",
          .signal (minutePoints count)⟩] :=
    congrArg Except.ok (normalizeVisualization_rsi (length_lastValuesOf_le _ _)
      (minutePoints_ne_nil hlow (by omega)))
  have hlabel : isBlank "RSI (14e-0)" = false := by decide
  have hdated : ∀ point ∈ minutePoints count, (minuteCalendar.parse point.time).isSome = true :=
    fun point hpoint => (mem_minutePoints (by omega) hpoint).1
  have hvalid : ∀ point ∈ minutePoints count,
      point.value.isFinite = true ∧ isSignal point.signal = true :=
    fun point hpoint => (mem_minutePoints (by omega) hpoint).2
  have hkept : overlayWithin minuteCalendar (minuteInstant 0) (minuteInstant count) minuteDefinition
      ⟨"strategy-definition-1:rsi", "strategy-definition-1", "RSI (14e-0)",
        .signal (minutePoints count)⟩ = .ok (minuteOverlay count) :=
    overlayWithin_signal hlabel hdated hvalid
  have hresolve : (withStrategies (minuteSources count) minuteStrategies
      exampleNumberText).resolveStrategy minuteDefinition =
        .ok ((rsi exampleNumbers fun name => "sha256-of-" ++ name).create
          minuteDefinition.parameters) := rfl
  have hcalendar : (withStrategies (minuteSources count) minuteStrategies
      exampleNumberText).calendar = minuteCalendar := rfl
  rw [VisualizationSources.definitionOverlays, hresolve]
  dsimp only
  rw [hemitted, ok_bind, List.mapM_cons, hcalendar, hkept]
  rfl

/-- The first page is answered, with the one overlay of the index. -/
theorem read_minutes {count : Nat} (hlow : 14 < count) (hcount : count < 5760) :
    ∃ answer,
      (withStrategies (minuteSources count) minuteStrategies
        exampleNumberText).readExperimentVisualization "user-1" "experiment-1" wholeRange =
          .ok answer ∧
      answer.overlays = [minuteOverlay count] := by
  have hstart : minuteCalendar.parse (minuteText 0) = some (minuteInstant 0) :=
    parse_minuteText (by omega)
  have hstop : minuteCalendar.parse (minuteText count) = some (minuteInstant count) :=
    parse_minuteText hcount
  have hrange : (withStrategies (minuteSources count) minuteStrategies
      exampleNumberText).requestedRange wholeRange
        ⟨"snapshot-1", minuteText 0, minuteText count⟩ =
          .ok (minuteInstant 0, minuteInstant count) := by
    have hordered : decide (minuteInstant count ≤ minuteInstant 0) = false := by
      rw [minuteInstant, minuteInstant]
      exact decide_eq_false (by omega)
    have hstart' : (withStrategies (minuteSources count) minuteStrategies
        exampleNumberText).calendar.parse (minuteText 0) = some (minuteInstant 0) := hstart
    have hstop' : (withStrategies (minuteSources count) minuteStrategies
        exampleNumberText).calendar.parse (minuteText count) = some (minuteInstant count) := hstop
    simp only [VisualizationSources.requestedRange, wholeRange, Option.getD_none, hstart', hstop',
      Option.any_some, hordered, lt_irrefl, decide_false, Bool.or_false, throwIf_false, ok_bind]
    rfl
  have hoverlays : (withStrategies (minuteSources count) minuteStrategies
      exampleNumberText).buildExperimentOverlays [minuteDefinition]
        (contextCandles minuteCalendar (minuteInstant count) (minuteCandles count))
        (minuteInstant 0) (minuteInstant count) = .ok [minuteOverlay count] := by
    have hbuild : (withStrategies (minuteSources count) minuteStrategies
        exampleNumberText).buildVisualization =
          some (minuteStrategies.buildVisualization exampleNumberText) := rfl
    rw [contextCandles_minutes hcount, VisualizationSources.buildExperimentOverlays, hbuild]
    dsimp only
    rw [List.mapM_cons, definitionOverlays_minutes hlow hcount]
    rfl
  refine ⟨_, bind_eq_ok.mpr ⟨(), rfl, bind_eq_ok.mpr ⟨_, rfl, bind_eq_ok.mpr ⟨_, rfl,
    bind_eq_ok.mpr ⟨_, hrange, bind_eq_ok.mpr ⟨(), rfl, bind_eq_ok.mpr ⟨0, rfl,
      bind_eq_ok.mpr ⟨(), rfl, bind_eq_ok.mpr ⟨_, hoverlays, rfl⟩⟩⟩⟩⟩⟩⟩⟩, rfl⟩

/-- The simulation of the minutes. -/
theorem simulated_minutes {count : Nat} {sim : Simulation} (hcount : count ≤ 5760)
    (hprepare : prepare minuteCalendar (minuteInput count) = .ok sim) :
    sim.candles = minuteCandles count ∧ sim.warmupCandles = 15 ∧ sim.calendar = minuteCalendar ∧
      ∀ candle, Simulation.sentimentRead sim.calendar sim.input candle = .ok none := by
  have haccepted := prepare_accepted hprepare
  refine ⟨?_, prepare_warmup hprepare, haccepted.calendar_eq, fun candle => ?_⟩
  · rw [haccepted.candles_eq, closedCandles_minutes hcount]
  · rw [haccepted.input_eq]
    rfl

theorem signalIndicator_minutes {count index : Nat} {sim : Simulation}
    (hcandles : sim.candles = minuteCandles count) (hlow : 14 ≤ index) (hindex : index < count)
    (candle : Candle) (sentiment : Option Sentiment) :
    signalIndicator exampleNumbers minuteDefinition.strategyName minuteDefinition.parameters
      (sim.context candle index sentiment) = some (.ofInt 50) := by
  refine relativeStrength_minutes hlow hindex ?_
  rw [Simulation.context, hcandles]

theorem overlay_signals_iff_minutes :
    ∃ answer sim,
      (withStrategies (minuteSources 20) minuteStrategies
        exampleNumberText).readExperimentVisualization "user-1" "experiment-1" wholeRange =
          .ok answer ∧
      prepare minuteCalendar (minuteInput 20) = .ok sim ∧
      ∃ overlay ∈ answer.overlays, ∃ points, overlay.points = .signal points ∧
        ∃ strategy, minuteStrategies.resolveStrategy minuteDefinition = .ok strategy ∧
          ∀ index candle sentiment,
            Expected exampleNumbers minuteDefinition sim (minuteInstant 0) (minuteInstant 20) index
              candle sentiment →
              Agrees points strategy candle (sim.context candle index sentiment) := by
  obtain ⟨answer, hread, hoverlays⟩ := @read_minutes 20 (by omega) (by omega)
  obtain ⟨sim, hprepare⟩ := @prepare_minutes 20 (by omega) (by omega)
  obtain ⟨hcandles, hwarmup, -, -⟩ := simulated_minutes (by omega) hprepare
  obtain ⟨first, last, hfirst, hlast, hall⟩ := overlay_signals_iff (minuteSources 20)
    (exampleStrategies .inMemory) (fun name => "sha256-of-" ++ name) exampleNumberText hread rfl rfl
    (datedInOrder_minuteCandles (by omega)) hprepare rfl
  have hfirst' : minuteCalendar.parse (minuteText 0) = some first := hfirst
  have hlast' : minuteCalendar.parse (minuteText 20) = some last := hlast
  obtain rfl := Option.some.inj ((parse_minuteText (by omega)).symm.trans hfirst')
  obtain rfl := Option.some.inj ((parse_minuteText (by omega)).symm.trans hlast')
  have hmem : minuteOverlay 20 ∈ answer.overlays := hoverlays ▸ List.mem_singleton_self _
  obtain ⟨definition, hdefinition, -, strategy, hstrategy, hagrees⟩ := hall _ hmem _ rfl
  obtain rfl := List.mem_singleton.mp hdefinition
  refine ⟨answer, sim, hread, hprepare, _, hmem, _, rfl, strategy, hstrategy, ?_⟩
  refine hagrees.mpr fun index candle sentiment hexpected => ?_
  have hwarm := hexpected.warm
  have hindex := (List.getElem?_eq_some_iff.mp hexpected.simulated).1
  rw [hwarmup] at hwarm
  rw [hcandles, minuteCandles, List.length_map, List.length_range] at hindex
  have hindicator : signalIndicator exampleNumbers minuteDefinition.strategyName
      minuteDefinition.parameters (sim.context candle index sentiment) = some (.ofInt 50) :=
    signalIndicator_minutes hcandles (by omega) hindex candle sentiment
  refine ⟨?_, fun value hvalue => ?_⟩
  · have hlength : (contextCandles minuteCalendar (minuteInstant 20) (minuteCandles 20)).length =
        20 := by
      rw [contextCandles_minutes (by omega), minuteCandles, List.length_map, List.length_range]
    have hbound : 20 ≤ index + MAX_VISUALIZATION_POINTS := by
      rw [MAX_VISUALIZATION_POINTS]
      omega
    exact hlength.le.trans hbound
  · obtain rfl := Option.some.inj (hindicator.symm.trans hvalue)
    rfl

/-- Of 5,020 minutes the sixteenth is simulated and not drawn. -/
theorem early_signals_left_out :
    ∃ answer sim,
      (withStrategies (minuteSources 5020) minuteStrategies
        exampleNumberText).readExperimentVisualization "user-1" "experiment-1" wholeRange =
          .ok answer ∧
      prepare minuteCalendar (minuteInput 5020) = .ok sim ∧
      ∃ overlay ∈ answer.overlays, ∃ points, overlay.points = .signal points ∧
        ∃ candle,
          Expected exampleNumbers minuteDefinition sim (minuteInstant 0) (minuteInstant 5020) 15
            candle none ∧
          ∀ strategy, ¬ Agrees points strategy candle (sim.context candle 15 none) := by
  obtain ⟨answer, hread, hoverlays⟩ := @read_minutes 5020 (by omega) (by omega)
  obtain ⟨sim, hprepare⟩ := @prepare_minutes 5020 (by omega) (by omega)
  obtain ⟨hcandles, hwarmup, hcalendar, hsentiment⟩ := simulated_minutes (by omega) hprepare
  refine ⟨answer, sim, hread, hprepare, minuteOverlay 5020, hoverlays ▸ List.mem_singleton_self _,
    _, rfl, minuteCandle 15, ⟨?_, ?_, hwarmup.le, fun _ => hsentiment _, ?_⟩, ?_⟩
  · rw [hcandles]
    exact getElem?_minuteCandles (by omega)
  · have hparsed : minuteCalendar.parse (minuteCandle 15).timestamp = some (minuteInstant 15) :=
      parse_minuteText (by omega)
    rw [hcalendar, opensWithin, hparsed]
    rfl
  · rw [signalIndicator_minutes hcandles (by omega) (by omega)]
    rfl
  · rintro strategy ⟨value, signal, hpoints, -⟩
    have hnone := @minutePoints_at 5020 15 (by omega) (by omega)
    rw [if_neg (by rw [MAX_VISUALIZATION_POINTS]; omega)] at hnone
    have htime : (minuteCandle 15).timestamp = minuteText 15 := rfl
    rw [List.filter_comm, htime, hnone] at hpoints
    cases hpoints

end Minutes

end Cryptox.Strategy
