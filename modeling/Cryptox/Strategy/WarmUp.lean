import Cryptox.Backtesting.Simulator.Timeline
import Cryptox.Strategy.History

/-!
# The warm-up and the history that indicators need

The warm-up of a backtest is the constant its descriptors declare, so an evaluation always sees
one candle more than that; the indicators need what the parameters of the definition ask for. A
strategy whose indicators lack history holds.
-/
namespace Cryptox.Strategy

open Cryptox.Backtesting
open Cryptox.Library

/-- The contexts in which a simulation evaluates its strategy. -/
def Evaluates (sim : Simulation) (context : StrategyContext) : Prop :=
  ∃ index candle sentiment, sim.candles[index]? = some candle ∧
    (index < sim.warmupCandles || sim.isLastIndex index) = false ∧
    Simulation.sentimentRead sim.calendar sim.input candle = .ok sentiment ∧
    context = sim.context candle index sentiment

section

variable {numbers : Numbers} {artifactSha256 : String → String} {values normalized : Parameters}

theorem length_lastValues (context : StrategyContext) :
    (lastValues context).length = context.candles.length :=
  List.length_map _

/-- What accepted parameters and a context make of a strategy: its indicators have values just
when there is enough history, and without one of them it holds. -/
def HoldsWithoutHistory (numbers : Numbers) (factory : StrategyFactory) (parameters : Parameters) :
    Prop :=
  ∀ context,
    (consulted numbers factory.descriptor.name parameters context = true ↔
      neededHistory numbers factory.descriptor.name parameters ≤ context.candles.length) ∧
    (consulted numbers factory.descriptor.name parameters context = false →
      (factory.create parameters).analyze context = .ok "HOLD")

/-- The accepted periods of a moving average are counts, the slow one above the fast one. -/
theorem accepted_slow_above_fast
    (h : validateParameters (ma numbers artifactSha256) values = .ok normalized) :
    isPeriod (fastPeriod numbers normalized) = true ∧ isPeriod (slowPeriod numbers normalized) = true ∧
      (fastPeriod numbers normalized).toNat < (slowPeriod numbers normalized).toNat := by
  have hkeys : ((ma numbers artifactSha256).descriptor.parameters.map (·.key)).Nodup := by
    simp [ma, parameter]
  obtain ⟨fast, hfast, hfastNumber⟩ := accepted_period hkeys h 2 (by omega) List.mem_cons_self
  obtain ⟨slow, hslow, hslowNumber⟩ := accepted_period hkeys h 3 (by omega)
    (List.mem_cons_of_mem _ List.mem_cons_self)
  obtain ⟨_, hbelow⟩ := (validateParameters_eq_ok h).2
  have hle : slow.le fast = false := by
    have hchecked := throwIf_eq_ok.mp hbelow
    rwa [hfastNumber, hslowNumber] at hchecked
  obtain ⟨hfastFinite, hfastRat, -⟩ := period_toRat hfast
  obtain ⟨hslowFinite, hslowRat, -⟩ := period_toRat hslow
  have hlt : fast.toNat < slow.toNat := by
    by_contra hnot
    have hrat : slow.toRat ≤ fast.toRat := by
      rw [hfastRat, hslowRat]
      exact_mod_cast Nat.not_lt.mp hnot
    rw [(JsNumber.le_iff hslowFinite hfastFinite).mpr hrat] at hle
    cases hle
  rw [fastPeriod, slowPeriod, hfastNumber, hslowNumber]
  exact ⟨hfast, hslow, hlt⟩

theorem ma_holds (h : validateParameters (ma numbers artifactSha256) values = .ok normalized) :
    HoldsWithoutHistory numbers (ma numbers artifactSha256) normalized := by
  obtain ⟨hfast, hslow, hlt⟩ := accepted_slow_above_fast h
  intro context
  have hdefined : consulted numbers "MA" normalized context = true ↔
      (slowPeriod numbers normalized).toNat + 1 ≤ context.candles.length := by
    have hprevious : (lastValues context).dropLast.length = context.candles.length - 1 := by
      rw [List.length_dropLast, length_lastValues]
    simp only [consulted, Averages.defined, movingAverages, Bool.and_eq_true,
      isSome_simpleMovingAverage hfast, isSome_simpleMovingAverage hslow, hprevious,
      length_lastValues]
    omega
  constructor
  · rw [show (ma numbers artifactSha256).descriptor.name = "MA" from rfl, hdefined, neededHistory]
  · intro hundefined
    have hshort : context.candles.length < (slowPeriod numbers normalized).toNat + 1 := by
      by_contra hlong
      have hall := hdefined.mpr (by omega)
      exact absurd (hall.symm.trans hundefined) (by decide)
    have hguard : (JsNumber.ofInt (lastValues context).length).lt
        (oneMore (slowPeriod numbers normalized)) = true := by
      rw [lt_oneMore hslow, length_lastValues]
      exact hshort
    simp only [ma, if_pos hguard]

/-- A strategy with one indicator holds where the indicator has no value. -/
theorem holds_of_indicator {factory : StrategyFactory} {needed : Nat}
    (defined : StrategyContext → Bool)
    (hconsulted : ∀ context,
      consulted numbers factory.descriptor.name normalized context = defined context)
    (hneeded : neededHistory numbers factory.descriptor.name normalized = needed)
    (hdefined : ∀ context, defined context = true ↔ needed ≤ context.candles.length)
    (hhold : ∀ context, defined context = false →
      (factory.create normalized).analyze context = .ok "HOLD") :
    HoldsWithoutHistory numbers factory normalized := by
  intro context
  rw [hconsulted, hneeded]
  exact ⟨hdefined context, hhold context⟩

theorem rsi_holds (h : validateParameters (rsi numbers artifactSha256) values = .ok normalized) :
    HoldsWithoutHistory numbers (rsi numbers artifactSha256) normalized := by
  have hkeys : ((rsi numbers artifactSha256).descriptor.parameters.map (·.key)).Nodup := by
    simp [rsi, parameter]
  obtain ⟨period, hperiod, hnumber⟩ := accepted_period hkeys h 2 (by omega) List.mem_cons_self
  have hneeded : neededHistory numbers "RSI" normalized = period.toNat + 1 :=
    congrArg (·.toNat + 1) (hnumber numbers (.ofInt 14))
  refine holds_of_indicator (fun context => (relativeStrength numbers normalized context).isSome)
    (fun _ => rfl) hneeded ?_ ?_
  · intro context
    rw [relativeStrength, hnumber, isSome_relativeStrengthIndex hperiod, length_lastValues]
  · intro context hnone
    rw [Option.isSome_eq_false_iff, Option.isNone_iff_eq_none] at hnone
    simp only [rsi, hnone]

theorem bollinger_holds
    (h : validateParameters (bollinger numbers artifactSha256) values = .ok normalized) :
    HoldsWithoutHistory numbers (bollinger numbers artifactSha256) normalized := by
  have hkeys : ((bollinger numbers artifactSha256).descriptor.parameters.map (·.key)).Nodup := by
    simp [bollinger, parameter]
  obtain ⟨period, hperiod, hnumber⟩ := accepted_period hkeys h 2 (by omega) List.mem_cons_self
  have hneeded : neededHistory numbers "BOLLINGER" normalized = period.toNat :=
    congrArg (·.toNat) (hnumber numbers (.ofInt 20))
  refine holds_of_indicator (fun context => (outerBands numbers normalized context).isSome)
    (fun _ => rfl) hneeded ?_ ?_
  · intro context
    rw [outerBands, hnumber, isSome_bollingerBands hperiod, length_lastValues]
  · intro context hnone
    rw [Option.isSome_eq_false_iff, Option.isNone_iff_eq_none] at hnone
    simp only [bollinger, hnone]

theorem supportResistance_holds
    (h : validateParameters (supportResistanceFactory numbers artifactSha256) values =
      .ok normalized) :
    HoldsWithoutHistory numbers (supportResistanceFactory numbers artifactSha256) normalized := by
  have hkeys : ((supportResistanceFactory numbers artifactSha256).descriptor.parameters.map
      (·.key)).Nodup := by
    simp [supportResistanceFactory, parameter]
  obtain ⟨lookback, hlookback, hnumber⟩ := accepted_period hkeys h 2 (by omega) List.mem_cons_self
  have hneeded : neededHistory numbers "SUPPORT_RESISTANCE" normalized = lookback.toNat :=
    congrArg (·.toNat) (hnumber numbers (.ofInt 20))
  refine holds_of_indicator (fun context => (recentLevels numbers normalized context).isSome)
    (fun _ => rfl) hneeded ?_ ?_
  · intro context
    rw [recentLevels, hnumber, isSome_supportResistance hlookback]
  · intro context hnone
    rw [Option.isSome_eq_false_iff, Option.isNone_iff_eq_none] at hnone
    simp only [supportResistanceFactory, hnone]

/-- Every built-in strategy holds where its accepted parameters lack history. -/
theorem builtIn_holds {factory : StrategyFactory}
    (hfactory : factory ∈ builtInFactories numbers artifactSha256)
    (h : validateParameters factory values = .ok normalized) :
    HoldsWithoutHistory numbers factory normalized := by
  simp only [builtInFactories, List.mem_cons, List.not_mem_nil, or_false] at hfactory
  rcases hfactory with rfl | rfl | rfl | rfl | rfl
  · exact bollinger_holds h
  · exact ma_holds h
  · exact rsi_holds h
  · intro context
    exact ⟨iff_of_true rfl (Nat.zero_le _), fun hnone => by cases hnone⟩
  · exact supportResistance_holds h

theorem builtIn_names : ((builtInFactories numbers artifactSha256).map (·.descriptor.name)).Nodup := by
  have hnames : (builtInFactories numbers artifactSha256).map (·.descriptor.name) =
      ["BOLLINGER", "MA", "RSI", "SENTIMENT", "SUPPORT_RESISTANCE"] := rfl
  rw [hnames]
  decide

theorem builtIn_eq_of_name {factory other : StrategyFactory}
    (hfactory : factory ∈ builtInFactories numbers artifactSha256)
    (hother : other ∈ builtInFactories numbers artifactSha256)
    (h : factory.descriptor.name = other.descriptor.name) : factory = other :=
  List.inj_on_of_nodup_map builtIn_names hfactory hother h

end

/-- The module with the built-in strategies registered. -/
def withBuiltIns (strategies : StrategyModule) (artifactSha256 : String → String) :
    StrategyModule :=
  { strategies with factories := builtInFactories strategies.numbers artifactSha256 }

/-- Every definition of a run was accepted by a registered factory. -/
theorem registered_run {strategies : StrategyModule} {calls : List StrategyCall}
    (hrun : strategies.system.Legal (fun _ _ => True) .empty calls) :
    ∀ definition ∈ (strategies.system.run .empty calls).definitions.rows,
      strategies.Registered definition := by
  refine hrun.invariant
    (fun store => ∀ definition ∈ store.definitions.rows, strategies.Registered definition) ?_
    fun definition hd => absurd hd List.not_mem_nil
  intro store call hregistered henabled _ definition hd
  refine (StrategyModule.definitions_afterCall ?_ henabled definition hd).elim
    (hregistered definition) id
  exact fun _ _ _ _ _ _ _ hcontent => StrategyModule.newDefinition_registered hcontent

/-- The warm-up reaches what every definition's descriptor declares. -/
theorem collectRequirements_le {descriptors : List StrategyDescriptor}
    {definitions : List Backtesting.StrategyDefinition} {required answer : StrategyRequirements}
    (h : collectRequirements descriptors definitions required = .ok answer) :
    required.warmupCandles ≤ answer.warmupCandles ∧ ∀ definition ∈ definitions,
      ∃ descriptor ∈ descriptors, describes definition descriptor = true ∧
        (descriptor.minimumHistoryCandles.getD (.ofInt 0)).toNat ≤ answer.warmupCandles := by
  induction definitions generalizing required with
  | nil =>
    cases h
    exact ⟨Nat.le_refl _, fun definition hd => absurd hd List.not_mem_nil⟩
  | cons first rest ih =>
    rw [collectRequirements] at h
    cases hfound : descriptors.find? (describes first) with
    | none =>
      simp only [hfound] at h
      cases h
    | some descriptor =>
      simp only [hfound] at h
      rw [bind_eq_ok] at h
      obtain ⟨-, -, h⟩ := h
      obtain ⟨hle, hrest⟩ := ih h
      have hboth := Nat.max_le.mp hle
      refine ⟨hboth.1, ?_⟩
      intro definition hd
      rcases List.mem_cons.mp hd with rfl | hd
      · exact ⟨descriptor, List.mem_of_find?_eq_some hfound, List.find?_some hfound, hboth.2⟩
      · exact hrest definition hd

theorem prepare_warmup {calendar : Calendar} {input : SimulationInput} {sim : Simulation}
    (h : prepare calendar input = .ok sim) :
    sim.warmupCandles = (input.warmupCandles.getD (.ofInt 0)).toNat := by
  simp only [prepare, bind_eq_ok, pure_eq_ok, throwIf_eq_ok] at h
  obtain ⟨-, -, -, -, -, -, -, -, -, -, -, -, -, -, -, -, -, -, -, -, -, -, -, -, rfl⟩ := h
  rfl

/-- An evaluation sees one candle more than the warm-up, or still more. -/
theorem Evaluates.length_lt {sim : Simulation} {context : StrategyContext}
    (h : Evaluates sim context) : sim.warmupCandles < context.candles.length := by
  obtain ⟨index, candle, sentiment, hcandle, hskip, -, rfl⟩ := h
  obtain ⟨hlt, -⟩ := List.getElem?_eq_some_iff.mp hcandle
  have hwarm : ¬ index < sim.warmupCandles := by
    simpa using (Bool.or_eq_false_iff.mp hskip).1
  rw [Simulation.context, List.length_map, List.length_take]
  omega

theorem toNat_ofInt (n : Nat) : (JsNumber.ofInt n).toNat = n := rfl

theorem resolveStrategy_builtIn {strategies : StrategyModule} {artifactSha256 : String → String}
    {factory : StrategyFactory} {definition : StrategyDefinition}
    (hfactory : factory ∈ builtInFactories strategies.numbers artifactSha256)
    (haccepted : StrategyModule.AcceptedBy factory definition) :
    (withBuiltIns strategies artifactSha256).resolveStrategy definition.toStrategyDefinition =
      .ok (factory.create definition.parameters) := by
  have hmatches : (factory.descriptor.name == definition.strategyName &&
      factory.descriptor.implementationSha256 == definition.implementationSha256) = true := by
    rw [haccepted.name_eq, haccepted.sha_eq, beq_self_eq_true, beq_self_eq_true]
    rfl
  have hsome : ((builtInFactories strategies.numbers artifactSha256).find? fun other =>
      other.descriptor.name == definition.strategyName
        && other.descriptor.implementationSha256 == definition.implementationSha256).isSome = true :=
    List.find?_isSome.mpr ⟨factory, hfactory, hmatches⟩
  obtain ⟨found, hfound⟩ := Option.isSome_iff_exists.mp hsome
  have hname : found.descriptor.name = definition.strategyName := by
    have hfits := List.find?_some hfound
    rw [Bool.and_eq_true] at hfits
    simpa using hfits.1
  have hsame : found = factory := builtIn_eq_of_name (List.mem_of_find?_eq_some hfound) hfactory
    (hname.trans haccepted.name_eq)
  rw [StrategyModule.resolveStrategy, withBuiltIns, hfound, hsame]

/-- The warm-up computed for definitions reaches what the factory of each declares. -/
theorem minimumHistory_le {strategies : StrategyModule} {artifactSha256 : String → String}
    {store : StrategyStore} {factory : StrategyFactory} {definition : StrategyDefinition}
    {definitions : List Backtesting.StrategyDefinition} {requirements : StrategyRequirements}
    (hfactory : factory ∈ builtInFactories strategies.numbers artifactSha256)
    (haccepted : StrategyModule.AcceptedBy factory definition)
    (hmem : definition.toStrategyDefinition ∈ definitions)
    (h : strategyRequirements ((withBuiltIns strategies artifactSha256).api store) definitions =
      .ok requirements) :
    factory.descriptor.minimumHistoryCandles ≤ requirements.warmupCandles := by
  have hcollected : collectRequirements
      ((builtInFactories strategies.numbers artifactSha256).map fun factory =>
        listedDescriptor factory.descriptor) definitions ⟨0, false⟩ = .ok requirements := h
  obtain ⟨descriptor, hdescriptor, hdescribes, hle⟩ := (collectRequirements_le hcollected).2 _ hmem
  obtain ⟨other, hother, rfl⟩ := List.mem_map.mp hdescriptor
  have hname : other.descriptor.name = definition.strategyName := by
    rw [describes, Bool.and_eq_true, Bool.and_eq_true] at hdescribes
    simpa [listedDescriptor] using hdescribes.1.1
  rw [builtIn_eq_of_name hother hfactory (hname.trans haccepted.name_eq)] at hle
  exact hle

/-- Every evaluation of a simulation warmed up for a stored definition of a built-in strategy sees
more candles than its descriptor declares; the indicators have values just where the candles reach
the history its parameters need, and elsewhere the strategy holds. -/
theorem evaluation_history (strategies : StrategyModule) (artifactSha256 : String → String)
    (calls : List StrategyCall)
    (hrun : (withBuiltIns strategies artifactSha256).system.Legal (fun _ _ => True) .empty calls)
    {definition : StrategyDefinition}
    (hstored : definition ∈
      ((withBuiltIns strategies artifactSha256).system.run .empty calls).definitions.rows)
    {definitions : List Backtesting.StrategyDefinition}
    (hmem : definition.toStrategyDefinition ∈ definitions) {requirements : StrategyRequirements}
    (hrequirements : strategyRequirements ((withBuiltIns strategies artifactSha256).api
      ((withBuiltIns strategies artifactSha256).system.run .empty calls)) definitions =
        .ok requirements)
    {calendar : Calendar} {input : SimulationInput} {sim : Simulation}
    (hprepare : prepare calendar input = .ok sim)
    (hwarmup : input.warmupCandles = some (.ofInt requirements.warmupCandles)) :
    ∃ factory ∈ builtInFactories strategies.numbers artifactSha256,
      factory.descriptor.name = definition.strategyName ∧
      (withBuiltIns strategies artifactSha256).resolveStrategy definition.toStrategyDefinition =
        .ok (factory.create definition.parameters) ∧
      ∀ context, Evaluates sim context →
        factory.descriptor.minimumHistoryCandles < context.candles.length ∧
        (consulted strategies.numbers definition.strategyName definition.parameters context = true ↔
          neededHistory strategies.numbers definition.strategyName definition.parameters ≤
            context.candles.length) ∧
        (neededHistory strategies.numbers definition.strategyName definition.parameters ≤
            factory.descriptor.minimumHistoryCandles + 1 →
          consulted strategies.numbers definition.strategyName definition.parameters context
            = true) ∧
        (consulted strategies.numbers definition.strategyName definition.parameters context = false →
          (factory.create definition.parameters).analyze context = .ok "HOLD") := by
  obtain ⟨factory, hfactory, haccepted⟩ := registered_run hrun definition hstored
  obtain ⟨values, hvalues⟩ := haccepted.accepted
  have hholds := builtIn_holds hfactory hvalues
  have hneeded := minimumHistory_le hfactory haccepted hmem hrequirements
  rw [haccepted.name_eq]
  refine ⟨factory, hfactory, rfl, resolveStrategy_builtIn hfactory haccepted, ?_⟩
  intro context hcontext
  have hlength : factory.descriptor.minimumHistoryCandles < context.candles.length := by
    have hlt := hcontext.length_lt
    rw [prepare_warmup hprepare, hwarmup, Option.getD_some, toNat_ofInt] at hlt
    omega
  obtain ⟨hdefined, hhold⟩ := hholds context
  exact ⟨hlength, hdefined, fun hle => hdefined.mpr (by omega), hhold⟩

/-- A relative strength index over a hundred candles, defined by a user. -/
def longRsi : List StrategyCall :=
  [.defineStrategy "user-1" "RSI" [("period", .inl (.ofInt 100))]
    ⟨"strategy-definition-1", "2025-01-01T00:00:00.000Z"⟩]

def longRsiDefinition : StrategyDefinition where
  id := "strategy-definition-1"
  strategyName := "RSI"
  implementationVersion := "1.0.0"
  implementationSha256 := "sha256-of-RSI"
  parameters := [("period", .inl (.ofInt 100)), ("buyThreshold", .inl (.ofInt 30)),
    ("sellThreshold", .inl (.ofInt 70))]
  userId := "user-1"
  logicalFamilyKey := "strategy:RSI"
  familyName := "RSI"
  version := 1
  createdAt := "2025-01-01T00:00:00.000Z"

def hours : List (String × Int) :=
  (List.range 20).map fun hour =>
    ("2025-01-01T" ++ (if hour < 10 then "0" else "") ++ toString hour ++ ":00:00.000Z",
      1735689600000 + 3600000 * hour)

def hoursCalendar : Calendar where
  localeCompare := compare
  parse text := (hours.find? (·.1 == text)).map (·.2)
  toISOString instant :=
    match hours.find? (·.2 == instant) with
    | some (text, _) => .ok text
    | none => .error "Invalid time value"

/-- A backtest over eighteen hours with the warm-up of the relative strength index. -/
def eighteenHours : SimulationInput :=
  { exampleInput ((hours.take 18).map fun hour => exampleCandle hour.1 100 102 99 101) [] with
    warmupCandles := some (.ofInt 15) }

theorem eighteenHours_prepared : (prepare hoursCalendar eighteenHours).toBool = true := by
  decide

theorem eighteenHours_evaluates :
    ∃ sim, prepare hoursCalendar eighteenHours = .ok sim ∧
      ∃ context, Evaluates sim context ∧ context.candles.length = 16 := by
  obtain ⟨sim, hsim⟩ := exists_ok eighteenHours_prepared
  have haccepted := prepare_accepted hsim
  have hlength : sim.candles.length = 18 := by
    rw [haccepted.candles_eq, closedCandles, List.length_insertionSort]
    rfl
  have hin : 15 < sim.candles.length := by omega
  obtain ⟨candle, hcandle⟩ : ∃ candle, sim.candles[15]? = some candle :=
    ⟨_, List.getElem?_eq_getElem hin⟩
  refine ⟨sim, hsim, sim.context candle 15 none, ⟨15, candle, none, hcandle, ?_, ?_, rfl⟩, ?_⟩
  · rw [prepare_warmup hsim, Simulation.isLastIndex, hlength]
    decide
  · rw [haccepted.input_eq]
    rfl
  · rw [Simulation.context, List.length_map, List.length_take, hlength]
    decide

theorem longRsi_stored : longRsiDefinition ∈
    ((withBuiltIns (exampleStrategies .inMemory) fun name => "sha256-of-" ++ name).system.run .empty
      longRsi).definitions.rows := by
  decide

theorem longRsi_requirements :
    strategyRequirements ((withBuiltIns (exampleStrategies .inMemory)
        fun name => "sha256-of-" ++ name).api
      ((withBuiltIns (exampleStrategies .inMemory) fun name => "sha256-of-" ++ name).system.run .empty
        longRsi)) [longRsiDefinition.toStrategyDefinition] = .ok ⟨15, false⟩ := by
  decide

theorem evaluation_history_longRsi :
    ∃ sim, prepare hoursCalendar eighteenHours = .ok sim ∧
      ∃ factory ∈ builtInFactories exampleNumbers fun name => "sha256-of-" ++ name,
        factory.descriptor.name = longRsiDefinition.strategyName ∧
        ∀ context, Evaluates sim context →
          consulted exampleNumbers longRsiDefinition.strategyName longRsiDefinition.parameters context
              = false →
            (factory.create longRsiDefinition.parameters).analyze context = .ok "HOLD" := by
  obtain ⟨sim, hsim⟩ := exists_ok eighteenHours_prepared
  obtain ⟨factory, hfactory, hname, -, hcontexts⟩ :=
    evaluation_history (exampleStrategies .inMemory) (fun name => "sha256-of-" ++ name) longRsi
      (by decide) longRsi_stored List.mem_cons_self longRsi_requirements hsim rfl
  exact ⟨sim, hsim, factory, hfactory, hname, fun context hcontext =>
    (hcontexts context hcontext).2.2.2⟩

/-- Its first evaluation sees sixteen candles, from which no index over a hundred can be had. -/
theorem longRsi_undefined :
    longRsiDefinition ∈ ((withBuiltIns (exampleStrategies .inMemory)
        fun name => "sha256-of-" ++ name).system.run .empty longRsi).definitions.rows ∧
      strategyRequirements ((withBuiltIns (exampleStrategies .inMemory)
          fun name => "sha256-of-" ++ name).api
        ((withBuiltIns (exampleStrategies .inMemory) fun name => "sha256-of-" ++ name).system.run
          .empty longRsi)) [longRsiDefinition.toStrategyDefinition] = .ok ⟨15, false⟩ ∧
      ∃ sim, prepare hoursCalendar eighteenHours = .ok sim ∧ sim.warmupCandles = 15 ∧
        ∃ context, Evaluates sim context ∧
          relativeStrength exampleNumbers longRsiDefinition.parameters context = none := by
  refine ⟨longRsi_stored, longRsi_requirements, ?_⟩
  obtain ⟨sim, hsim, context, hcontext, hlength⟩ := eighteenHours_evaluates
  refine ⟨sim, hsim, prepare_warmup hsim, context, hcontext, ?_⟩
  have hperiod : isPeriod (.ofInt 100) = true := by decide
  have hvalues : (relativeStrength exampleNumbers longRsiDefinition.parameters context).isSome =
      true ↔ (JsNumber.ofInt 100).toNat + 1 ≤ (lastValues context).length :=
    isSome_relativeStrengthIndex hperiod (lastValues context)
  rw [length_lastValues, hlength] at hvalues
  rw [← Option.not_isSome_iff_eq_none]
  exact fun hsome => absurd (hvalues.mp hsome) (by decide)

end Cryptox.Strategy
