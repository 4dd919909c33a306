import Cryptox.Backtesting.Simulator.EarlierHistory
import Cryptox.Strategy.WarmUp

/-!
# The candles that decide an answer

The indicators look at the last candles only, so a built-in strategy answers from the history its
parameters need, and a composite from the longest history among its components.
-/
namespace Cryptox.Strategy

open Cryptox.Backtesting
open Cryptox.Library

section Indicators

variable {numbers : Numbers} {period : JsNumber}

theorem lastOf_append {α : Type} (earlier : List α) {values : List α}
    (hlength : period.toNat ≤ values.length) :
    lastOf (earlier ++ values) period = lastOf values period := by
  have hdropped : (earlier ++ values).length - period.toNat =
      earlier.length + (values.length - period.toNat) := by
    rw [List.length_append]
    omega
  rw [lastOf, lastOf, hdropped, List.drop_length_add_append]

theorem not_lt_period (h : isPeriod period = true) {n : Nat} (hlength : period.toNat ≤ n) :
    (JsNumber.ofInt n).lt period = false :=
  Bool.eq_false_iff.mpr fun hlt => Nat.not_lt.mpr hlength ((lt_period h n).mp hlt)

theorem length_le_append {α : Type} {n : Nat} (earlier : List α) {values : List α}
    (hlength : n ≤ values.length) : n ≤ (earlier ++ values).length := by
  rw [List.length_append]
  omega

theorem simpleMovingAverage_append (h : isPeriod period = true) (earlier : List JsNumber)
    {values : List JsNumber} (hlength : period.toNat ≤ values.length) :
    simpleMovingAverage numbers (earlier ++ values) period =
      simpleMovingAverage numbers values period := by
  rw [simpleMovingAverage, simpleMovingAverage, not_lt_period h hlength,
    not_lt_period h (length_le_append earlier hlength), lastOf_append earlier hlength]

theorem bollingerBands_append (h : isPeriod period = true) (earlier : List JsNumber)
    {values : List JsNumber} (hlength : period.toNat ≤ values.length) (deviations : JsNumber) :
    bollingerBands numbers (earlier ++ values) period deviations =
      bollingerBands numbers values period deviations := by
  rw [bollingerBands, bollingerBands, simpleMovingAverage_append h earlier hlength,
    lastOf_append earlier hlength]

theorem supportResistance_append (h : isPeriod period = true) (earlier : List StrategyCandle)
    {candles : List StrategyCandle} (hlength : period.toNat ≤ candles.length) :
    supportResistance (earlier ++ candles) period = supportResistance candles period := by
  rw [supportResistance, supportResistance, not_lt_period h hlength,
    not_lt_period h (length_le_append earlier hlength), lastOf_append earlier hlength]

theorem relativeStrengthIndex_append (h : isPeriod period = true) (earlier : List JsNumber)
    {values : List JsNumber} (hlength : period.toNat + 1 ≤ values.length) :
    relativeStrengthIndex numbers (earlier ++ values) period =
      relativeStrengthIndex numbers values period := by
  have hmore {n : Nat} (hn : period.toNat + 1 ≤ n) : (JsNumber.ofInt n).le period = false :=
    Bool.eq_false_iff.mpr fun hle => Nat.not_lt.mpr ((le_period h n).mp hle) hn
  have hdropped : (earlier ++ values).length - period.toNat - 1 =
      earlier.length + (values.length - period.toNat - 1) := by
    rw [List.length_append]
    omega
  rw [relativeStrengthIndex, relativeStrengthIndex, hmore hlength,
    hmore (length_le_append earlier hlength), hdropped, List.drop_length_add_append]

end Indicators

section Strategies

variable {numbers : Numbers} {artifactSha256 : String → String} {values normalized : Parameters}

theorem lastValues_append (earlier : List StrategyCandle) (context : StrategyContext) :
    lastValues { context with candles := earlier ++ context.candles } =
      earlier.map (·.close) ++ lastValues context :=
  List.map_append

theorem movingAverages_append {parameters : Parameters}
    (hfast : isPeriod (fastPeriod numbers parameters) = true)
    (hslow : isPeriod (slowPeriod numbers parameters) = true)
    (hbelow : (fastPeriod numbers parameters).toNat < (slowPeriod numbers parameters).toNat)
    (earlier : List StrategyCandle) {context : StrategyContext}
    (hlength : (slowPeriod numbers parameters).toNat + 1 ≤ context.candles.length) :
    movingAverages numbers parameters { context with candles := earlier ++ context.candles } =
      movingAverages numbers parameters context := by
  have hlast : (slowPeriod numbers parameters).toNat + 1 ≤ (lastValues context).length := by
    rw [length_lastValues]
    exact hlength
  have hne : lastValues context ≠ [] := List.ne_nil_of_length_pos (by omega)
  have hprevious : (slowPeriod numbers parameters).toNat ≤ (lastValues context).dropLast.length := by
    rw [List.length_dropLast]
    omega
  rw [movingAverages, movingAverages, lastValues_append, List.dropLast_append_of_ne_nil hne,
    simpleMovingAverage_append hfast _ (by omega), simpleMovingAverage_append hslow _ (by omega),
    simpleMovingAverage_append hfast _ (by omega), simpleMovingAverage_append hslow _ hprevious]

theorem ma_answersWithin
    (h : validateParameters (ma numbers artifactSha256) values = .ok normalized) :
    AnswersWithin (neededHistory numbers "MA" normalized)
      ((ma numbers artifactSha256).create normalized) := by
  obtain ⟨hfast, hslow, hbelow⟩ := accepted_slow_above_fast h
  intro earlier context hlength
  have hneeded : (slowPeriod numbers normalized).toNat + 1 ≤ context.candles.length := hlength
  have hguard {n : Nat} (hn : (slowPeriod numbers normalized).toNat + 1 ≤ n) :
      (JsNumber.ofInt n).lt (oneMore (slowPeriod numbers normalized)) = false :=
    Bool.eq_false_iff.mpr fun hlt => Nat.not_lt.mpr hn ((lt_oneMore hslow n).mp hlt)
  simp only [ma, movingAverages_append hfast hslow hbelow earlier hneeded, length_lastValues,
    hguard hneeded, hguard (length_le_append earlier hneeded)]

theorem rsi_answersWithin
    (h : validateParameters (rsi numbers artifactSha256) values = .ok normalized) :
    AnswersWithin (neededHistory numbers "RSI" normalized)
      ((rsi numbers artifactSha256).create normalized) := by
  have hkeys : ((rsi numbers artifactSha256).descriptor.parameters.map (·.key)).Nodup := by
    simp [rsi, parameter]
  obtain ⟨period, hperiod, hnumber⟩ := accepted_period hkeys h 2 (by omega) List.mem_cons_self
  intro earlier context hlength
  have hneeded : period.toNat + 1 ≤ (lastValues context).length := by
    rw [length_lastValues, ← hnumber numbers (.ofInt 14)]
    exact hlength
  have hsame : relativeStrength numbers normalized
      { context with candles := earlier ++ context.candles } =
        relativeStrength numbers normalized context := by
    rw [relativeStrength, relativeStrength, lastValues_append, hnumber,
      relativeStrengthIndex_append hperiod _ hneeded]
  simp only [rsi, hsame]

theorem bollinger_answersWithin
    (h : validateParameters (bollinger numbers artifactSha256) values = .ok normalized) :
    AnswersWithin (neededHistory numbers "BOLLINGER" normalized)
      ((bollinger numbers artifactSha256).create normalized) := by
  have hkeys : ((bollinger numbers artifactSha256).descriptor.parameters.map (·.key)).Nodup := by
    simp [bollinger, parameter]
  obtain ⟨period, hperiod, hnumber⟩ := accepted_period hkeys h 2 (by omega) List.mem_cons_self
  intro earlier context hlength
  have hneeded : period.toNat ≤ (lastValues context).length := by
    rw [length_lastValues, ← hnumber numbers (.ofInt 20)]
    exact hlength
  have hsame : outerBands numbers normalized { context with candles := earlier ++ context.candles } =
      outerBands numbers normalized context := by
    rw [outerBands, outerBands, lastValues_append, hnumber, bollingerBands_append hperiod _ hneeded]
  simp only [bollinger, hsame]

theorem supportResistance_answersWithin
    (h : validateParameters (supportResistanceFactory numbers artifactSha256) values =
      .ok normalized) :
    AnswersWithin (neededHistory numbers "SUPPORT_RESISTANCE" normalized)
      ((supportResistanceFactory numbers artifactSha256).create normalized) := by
  have hkeys : ((supportResistanceFactory numbers artifactSha256).descriptor.parameters.map
      (·.key)).Nodup := by
    simp [supportResistanceFactory, parameter]
  obtain ⟨lookback, hlookback, hnumber⟩ := accepted_period hkeys h 2 (by omega) List.mem_cons_self
  intro earlier context hlength
  have hneeded : lookback.toNat ≤ context.candles.length := by
    rw [← hnumber numbers (.ofInt 20)]
    exact hlength
  have hsame : recentLevels numbers normalized { context with candles := earlier ++ context.candles } =
      recentLevels numbers normalized context := by
    rw [recentLevels, recentLevels, hnumber, supportResistance_append hlookback _ hneeded]
  simp only [supportResistanceFactory, hsame]

/-- A built-in strategy answers from the history its accepted parameters need. -/
theorem builtIn_answersWithin {factory : StrategyFactory}
    (hfactory : factory ∈ builtInFactories numbers artifactSha256)
    (h : validateParameters factory values = .ok normalized) :
    AnswersWithin (neededHistory numbers factory.descriptor.name normalized)
      (factory.create normalized) := by
  simp only [builtInFactories, List.mem_cons, List.not_mem_nil, or_false] at hfactory
  rcases hfactory with rfl | rfl | rfl | rfl | rfl
  · exact bollinger_answersWithin h
  · exact ma_answersWithin h
  · exact rsi_answersWithin h
  · exact fun _ _ _ => rfl
  · exact supportResistance_answersWithin h

end Strategies

section Composites

variable {needed : Nat}

theorem componentSignals_append {strategies : List (String × Backtesting.Strategy)}
    (h : ∀ resolved ∈ strategies, AnswersWithin needed resolved.2) (earlier : List StrategyCandle)
    {context : StrategyContext} (hlength : needed ≤ context.candles.length)
    (components : List CompositeComponent) :
    componentSignals strategies { context with candles := earlier ++ context.candles } components =
      componentSignals strategies context components := by
  induction components with
  | nil => rfl
  | cons component rest ih =>
    rw [componentSignals, componentSignals, ih]
    cases hfound : strategies.find? (·.1 == component.strategyDefinitionId) with
    | none => rfl
    | some resolved =>
      have hanswer := h resolved (List.mem_of_find?_eq_some hfound) earlier context hlength
      simp only [hanswer]

theorem compositeStrategy_answersWithin {api : StrategyApi}
    {definitions : List Backtesting.StrategyDefinition}
    {composite : Backtesting.CompositeStrategyDefinition}
    {strategy : Backtesting.Strategy}
    (h : ∀ definition ∈ definitions, ∀ resolved, api.resolveStrategy definition = .ok resolved →
      AnswersWithin needed resolved)
    (hcomposite : compositeStrategy api definitions composite = .ok strategy) :
    AnswersWithin needed strategy := by
  obtain ⟨-, -, hcomposite⟩ := bind_eq_ok.mp hcomposite
  obtain ⟨resolved, hresolved, hcomposite⟩ := bind_eq_ok.mp hcomposite
  have hall : ∀ entry ∈ resolved.reverse, AnswersWithin needed entry.2 := by
    intro entry hentry
    obtain ⟨definition, hdefinition, hanswer⟩ :=
      exists_of_mem_mapM hresolved (List.mem_reverse.mp hentry)
    obtain ⟨strategy, hstrategy, hentry⟩ := bind_eq_ok.mp hanswer
    rw [← pure_eq_ok.mp hentry]
    exact h definition hdefinition strategy hstrategy
  rw [← pure_eq_ok.mp hcomposite]
  intro earlier context hlength
  show (componentSignals resolved.reverse { context with candles := earlier ++ context.candles }
      composite.components >>= api.combineSignals composite) = _
  rw [componentSignals_append hall earlier hlength]

end Composites

/-- A composite of stored definitions of built-in strategies whose parameters the warm-up suffices for
trades alike on more history, if what is put in front is skipped. -/
theorem earlier_history_ignored (strategies : StrategyModule) (artifactSha256 : String → String)
    (calls : List StrategyCall)
    (hrun : (withBuiltIns strategies artifactSha256).system.Legal (fun _ _ => True) .empty calls)
    {definitions : List StrategyDefinition}
    (hstored : ∀ definition ∈ definitions, definition ∈
      ((withBuiltIns strategies artifactSha256).system.run .empty calls).definitions.rows)
    {warmup : Nat} (hneeded : ∀ definition ∈ definitions,
      neededHistory strategies.numbers definition.strategyName definition.parameters ≤ warmup + 1)
    {composite : Backtesting.CompositeStrategyDefinition} {calendar : Calendar}
    {input : SimulationInput}
    (hcomposite : compositeStrategy ((withBuiltIns strategies artifactSha256).api
        ((withBuiltIns strategies artifactSha256).system.run .empty calls))
      (definitions.map (·.toStrategyDefinition)) composite = .ok input.strategy)
    (hwarmup : input.warmupCandles = some (.ofInt warmup)) {raw earlier : List Candle}
    (hclosed : closedCandles calendar (input.warmedBy raw (earlier.length + warmup)) =
      earlier ++ closedCandles calendar input)
    (haccepted : (prepare calendar (input.warmedBy raw (earlier.length + warmup))).toBool = true) :
    simulateBacktest calendar (input.warmedBy raw (earlier.length + warmup)) =
      simulateBacktest calendar input := by
  have hanswers : AnswersWithin (warmup + 1) input.strategy := by
    refine compositeStrategy_answersWithin (fun definition hdefinition resolved hresolved => ?_)
      hcomposite
    obtain ⟨stored, hmem, rfl⟩ := List.mem_map.mp hdefinition
    obtain ⟨factory, hfactory, haccepted⟩ := registered_run hrun stored (hstored stored hmem)
    obtain ⟨values, hvalues⟩ := haccepted.accepted
    have hbuilt := resolveStrategy_builtIn hfactory haccepted
    have hname := haccepted.name_eq
    have hsame : factory.create stored.parameters = resolved :=
      Except.ok.inj (hbuilt.symm.trans hresolved)
    rw [← hsame]
    refine (builtIn_answersWithin hfactory hvalues).mono ?_
    rw [← hname]
    exact hneeded stored hmem
  exact simulateBacktest_warmedBy hwarmup hclosed hanswers (Nat.le_refl _) haccepted

/-- Levels over two candles, defined by a user. -/
def shortLevels : List StrategyCall :=
  [.defineStrategy "user-1" "SUPPORT_RESISTANCE" [("lookback", .inl (.ofInt 2))]
    ⟨"strategy-definition-1", "2025-01-01T00:00:00.000Z"⟩]

/-- The vote of the levels alone. -/
def votedLevels : Except String Backtesting.Strategy :=
  compositeStrategy ((withBuiltIns (exampleStrategies .inMemory) fun name => "sha256-of-" ++ name).api
      ((withBuiltIns (exampleStrategies .inMemory) fun name => "sha256-of-" ++ name).system.run .empty
        shortLevels))
    (((withBuiltIns (exampleStrategies .inMemory) fun name => "sha256-of-" ++ name).system.run .empty
      shortLevels).definitions.rows.map (·.toStrategyDefinition))
    ⟨"composite-1", .majorityVote, [⟨"strategy-definition-1", .ofInt 0⟩], none⟩

/-- A backtest of that vote over some hours, of which the first is warm-up. -/
def fewHours : SimulationInput :=
  { exampleInput (((hours.drop 1).take 3).map fun hour => exampleCandle hour.1 100 102 99 101) [] with
    warmupCandles := some (.ofInt 1)
    strategy := votedLevels.toOption.getD ⟨fun _ => .ok "HOLD"⟩ }

def moreHours : List Candle := (hours.take 4).map fun hour => exampleCandle hour.1 100 102 99 101

theorem votedLevels_eq : votedLevels = .ok fewHours.strategy := by
  obtain ⟨strategy, hstrategy⟩ := exists_ok (x := votedLevels) (by decide)
  rw [fewHours, hstrategy]
  rfl

theorem earlier_history_ignored_levels :
    simulateBacktest hoursCalendar (fewHours.warmedBy moreHours 2) =
      simulateBacktest hoursCalendar fewHours :=
  @earlier_history_ignored (exampleStrategies .inMemory) (fun name => "sha256-of-" ++ name) shortLevels
    ⟨⟨by decide, trivial⟩, trivial⟩ ((withBuiltIns (exampleStrategies .inMemory)
      fun name => "sha256-of-" ++ name).system.run .empty shortLevels).definitions.rows (fun _ h => h) 1
    (by decide) _ hoursCalendar fewHours votedLevels_eq rfl moreHours
    [exampleCandle "2025-01-01T00:00:00.000Z" 100 102 99 101] (by decide) (by decide)

end Cryptox.Strategy
