import Cryptox.Backtesting.Simulator.NoLookAhead

/-!
# The history before the warm-up

A strategy that answers from a bounded number of last candles trades alike whether or not the
simulation is given older candles to skip.
-/
namespace Cryptox.Backtesting

open Cryptox.Library (bind_eq_ok exists_ok ok_bind pure_eq_ok throwIf_eq_ok)

/-- Candles older than the last `needed` do not change an answer. -/
def AnswersWithin (needed : Nat) (strategy : Strategy) : Prop :=
  ∀ (earlier : List StrategyCandle) (context : StrategyContext), needed ≤ context.candles.length →
    strategy.analyze { context with candles := earlier ++ context.candles } = strategy.analyze context

theorem AnswersWithin.mono {needed more : Nat} {strategy : Strategy}
    (h : AnswersWithin needed strategy) (hle : needed ≤ more) : AnswersWithin more strategy :=
  fun earlier context hlength => h earlier context (hle.trans hlength)

/-- A position of the simulation with so many candles more in front. -/
def Position.later (count : Nat) (position : Position) : Position :=
  { position with entryIndex := count + position.entryIndex }

def SimulatorState.later (count : Nat) (state : SimulatorState) : SimulatorState :=
  { state with
    position := state.position.map (.later count)
    opened := state.opened.map (.later count) }

theorem SimulatorState.position_later (count : Nat) (state : SimulatorState) :
    (state.later count).position = state.position.map (.later count) := rfl

namespace Simulation

/-- The simulation with older candles to skip before its own warm-up. -/
def withEarlier (sim : Simulation) (earlier : List Candle) (raw : List Candle)
    (warmup : Option JsNumber) : Simulation :=
  { sim with
    candles := earlier ++ sim.candles
    warmupCandles := earlier.length + sim.warmupCandles
    input := { sim.input with candles := raw, warmupCandles := warmup } }

section

variable {sim : Simulation} {earlier raw : List Candle} {warmup : Option JsNumber}
  {state : SimulatorState} {candle : Candle} {index count needed : Nat}

theorem enter_later (count : Nat) (state : SimulatorState) (position : Position) :
    (state.later count).enter (position.later count) = (state.enter position).later count := by
  simp only [SimulatorState.enter, SimulatorState.later, Option.map_some, List.map_append,
    List.map_cons, List.map_nil]

theorem closePosition_later (state : SimulatorState) (price : Decimal) (time : String)
    (reason : ExitReason) :
    (sim.withEarlier earlier raw warmup).closePosition (state.later count) price time reason =
      SimulatorState.later count <$> sim.closePosition state price time reason := by
  obtain ⟨equity, position, scheduled, sequence, trades, opened⟩ := state
  cases position with
  | none => rfl
  | some position =>
    simp only [closePosition, SimulatorState.later, Option.map_some, map_bind]
    rfl

theorem openPosition_later (state : SimulatorState) (action : Action) (candle : Candle) (index : Nat) :
    (sim.withEarlier earlier raw warmup).openPosition (state.later count) action candle
        (count + index) =
      SimulatorState.later count <$> sim.openPosition state action candle index := by
  simp only [openPosition, map_bind]
  refine bind_congr fun marketOpen => bind_congr fun quantity => ?_
  split
  · rfl
  · simp only [map_bind]
    refine bind_congr fun stopLoss => bind_congr fun takeProfit => bind_congr fun _ =>
      bind_congr fun _ => congrArg Except.ok ?_
    exact enter_later count state ⟨_, index, _, _, _, _, _, _, _⟩

theorem closeReversed_later (state : SimulatorState) (action : Action) (candle : Candle) :
    (sim.withEarlier earlier raw warmup).closeReversed (state.later count) action candle =
      SimulatorState.later count <$> sim.closeReversed state action candle := by
  cases hposition : state.position with
  | none =>
    simp only [closeReversed, state.position_later, hposition, Option.map_none]
    rfl
  | some position =>
    have hsignal : (position.later count).signal = position.signal := rfl
    simp only [closeReversed, state.position_later, hposition, Option.map_some, hsignal]
    split
    · rfl
    · rw [map_bind]
      exact bind_congr fun marketOpen => closePosition_later state _ _ _

theorem openWhenFlat_later (state : SimulatorState) (action : Action) (candle : Candle) (index : Nat) :
    (sim.withEarlier earlier raw warmup).openWhenFlat (state.later earlier.length) action candle
        (earlier.length + index) =
      SimulatorState.later earlier.length <$> sim.openWhenFlat state action candle index := by
  have hflat : (state.later earlier.length).position.isNone = state.position.isNone := by
    rw [state.position_later, Option.isNone_map]
  have hmore : earlier.length + index + 1 < (sim.withEarlier earlier raw warmup).candles.length ↔
      index + 1 < sim.candles.length := by
    rw [withEarlier, List.length_append]
    omega
  simp only [openWhenFlat, hflat, hmore]
  split
  · exact openPosition_later state action candle index
  · rfl

theorem executeScheduled_later (state : SimulatorState) (candle : Candle) (index : Nat) :
    (sim.withEarlier earlier raw warmup).executeScheduled (state.later earlier.length) candle
        (earlier.length + index) =
      SimulatorState.later earlier.length <$> sim.executeScheduled state candle index := by
  have hscheduled : (state.later earlier.length).scheduled = state.scheduled := rfl
  cases haction : state.scheduled with
  | none =>
    simp only [executeScheduled, hscheduled, haction]
    rfl
  | some action =>
    have hskip : earlier.length + index < (sim.withEarlier earlier raw warmup).warmupCandles ↔
        index < sim.warmupCandles := Nat.add_lt_add_iff_left
    simp only [executeScheduled, hscheduled, haction, hskip]
    split
    · rfl
    · rw [closeReversed_later, bind_map_left, map_bind]
      refine bind_congr fun closed => ?_
      rw [openWhenFlat_later, bind_map_left, map_bind]
      rfl

theorem applyProtectiveExit_later (state : SimulatorState) (candle : Candle) (index : Nat) :
    (sim.withEarlier earlier raw warmup).applyProtectiveExit (state.later count) candle
        (count + index) =
      SimulatorState.later count <$> sim.applyProtectiveExit state candle index := by
  cases hposition : state.position with
  | none =>
    simp only [applyProtectiveExit, state.position_later, hposition, Option.map_none]
    rfl
  | some position =>
    have hentered : (position.later count).entryIndex < count + index ↔ position.entryIndex < index :=
      Nat.add_lt_add_iff_left
    have hexit : protectiveExit (position.later count) = protectiveExit position := rfl
    simp only [applyProtectiveExit, state.position_later, hposition, Option.map_some, hentered, hexit]
    split
    · simp only [map_bind]
      refine bind_congr fun marketOpen => bind_congr fun marketHigh => bind_congr fun marketLow => ?_
      split
      · rfl
      · exact closePosition_later state _ _ _
    · rfl

theorem schedule_later (state : SimulatorState) (action : Option Action) :
    schedule (state.later count) action = (schedule state action).later count := by
  cases action with
  | none => rfl
  | some action =>
    have hsame : (state.later count).position.any (fun position => position.signal = side action) =
        state.position.any fun position => position.signal = side action := by
      rw [SimulatorState.later, Option.any_map]
      rfl
    rw [schedule, schedule, hsame]
    split <;> rfl

theorem context_later (sim : Simulation) (candle : Candle) (index : Nat)
    (sentiment : Option Sentiment) :
    (sim.withEarlier earlier raw warmup).context candle (earlier.length + index) sentiment =
      { sim.context candle index sentiment with
        candles := earlier.map toStrategyCandle ++ (sim.context candle index sentiment).candles } := by
  have htake : (earlier ++ sim.candles).take (earlier.length + index + 1) =
      earlier ++ sim.candles.take (index + 1) := by
    rw [Nat.add_assoc, List.take_length_add_append]
  rw [context, withEarlier, htake, List.map_append]
  rfl

/-- Every answer asked for sees the warm-up and one candle more. -/
theorem decideAtClose_later (h : AnswersWithin needed sim.input.strategy)
    (hneeded : needed ≤ sim.warmupCandles + 1) (hcandle : sim.candles[index]? = some candle)
    (state : SimulatorState) :
    (sim.withEarlier earlier raw warmup).decideAtClose (state.later earlier.length) candle
        (earlier.length + index) =
      SimulatorState.later earlier.length <$> sim.decideAtClose state candle index := by
  have hskip : earlier.length + index < (sim.withEarlier earlier raw warmup).warmupCandles ↔
      index < sim.warmupCandles := Nat.add_lt_add_iff_left
  have hlast : (sim.withEarlier earlier raw warmup).isLastIndex (earlier.length + index) =
      sim.isLastIndex index := by
    rw [isLastIndex, isLastIndex, withEarlier, List.length_append, Nat.add_assoc]
    exact Bool.eq_iff_iff.mpr (by simp)
  have hsentiment : sentimentRead (sim.withEarlier earlier raw warmup).calendar
      (sim.withEarlier earlier raw warmup).input candle = sentimentRead sim.calendar sim.input candle :=
    rfl
  unfold decideAtClose
  simp only [hskip, hlast, hsentiment]
  split
  · rfl
  · rename_i hdecides
    have hwarm : sim.warmupCandles ≤ index := by
      simp only [Bool.or_eq_true, decide_eq_true_eq, not_or, not_lt] at hdecides
      exact hdecides.1
    obtain ⟨hin, -⟩ := List.getElem?_eq_some_iff.mp hcandle
    rw [map_bind]
    refine bind_congr fun sentiment => ?_
    have hlength : needed ≤ (sim.context candle index sentiment).candles.length := by
      rw [context, List.length_map, List.length_take]
      omega
    have hanswer : (sim.withEarlier earlier raw warmup).input.strategy.analyze
          ((sim.withEarlier earlier raw warmup).context candle (earlier.length + index) sentiment) =
        sim.input.strategy.analyze (sim.context candle index sentiment) := by
      rw [context_later]
      exact h (earlier.map toStrategyCandle) _ hlength
    rw [hanswer, map_bind]
    refine bind_congr fun signal => ?_
    rw [map_bind]
    refine bind_congr fun action => ?_
    rw [schedule_later]
    rfl

theorem candleStep_later (h : AnswersWithin needed sim.input.strategy)
    (hneeded : needed ≤ sim.warmupCandles + 1) (hcandle : sim.candles[index]? = some candle)
    (state : SimulatorState) :
    (sim.withEarlier earlier raw warmup).candleStep (state.later earlier.length) candle
        (earlier.length + index) =
      SimulatorState.later earlier.length <$> sim.candleStep state candle index := by
  rw [candleStep, candleStep, executeScheduled_later, bind_map_left, map_bind]
  refine bind_congr fun executed => ?_
  rw [applyProtectiveExit_later, bind_map_left, map_bind]
  exact bind_congr fun exited => decideAtClose_later h hneeded hcandle exited

/-- Nothing happens before the warm-up is over. -/
theorem loopUpTo_warmup (sim : Simulation) (hcount : count ≤ sim.warmupCandles) :
    sim.loopUpTo count = .ok sim.initial := by
  induction count with
  | zero => rfl
  | succ index ih =>
    rw [loopUpTo, ih (Nat.le_of_succ_le hcount), ok_bind]
    cases sim.candles[index]? with
    | none => rfl
    | some candle =>
      have hskip : decide (index < sim.warmupCandles) = true := decide_eq_true hcount
      have hdecide : sim.decideAtClose sim.initial candle index = .ok sim.initial := by
        rw [decideAtClose, hskip, Bool.true_or, if_pos rfl]
      exact hdecide

theorem loopUpTo_later (h : AnswersWithin needed sim.input.strategy)
    (hneeded : needed ≤ sim.warmupCandles + 1) (count : Nat) :
    (sim.withEarlier earlier raw warmup).loopUpTo (earlier.length + count) =
      SimulatorState.later earlier.length <$> sim.loopUpTo count := by
  induction count with
  | zero => exact loopUpTo_warmup _ (Nat.le_add_right _ _)
  | succ index ih =>
    have hsame : (sim.withEarlier earlier raw warmup).candles[earlier.length + index]? =
        sim.candles[index]? := by
      rw [withEarlier, List.getElem?_append_right (Nat.le_add_right _ _), Nat.add_sub_cancel_left]
    rw [← Nat.add_assoc, loopUpTo, loopUpTo, ih, bind_map_left, map_bind]
    refine bind_congr fun state => ?_
    rw [hsame]
    cases hcandle : sim.candles[index]? with
    | none => rfl
    | some candle => exact candleStep_later h hneeded hcandle state

theorem closeAtRangeEnd_later (hcandles : sim.candles ≠ []) (state : SimulatorState) :
    (sim.withEarlier earlier raw warmup).closeAtRangeEnd (state.later count) =
      SimulatorState.later count <$> sim.closeAtRangeEnd state := by
  have hlast : (sim.withEarlier earlier raw warmup).candles.getLast? = sim.candles.getLast? :=
    List.getLast?_append_of_ne_nil _ hcandles
  cases hposition : state.position with
  | none =>
    simp only [closeAtRangeEnd, state.position_later, hposition, Option.map_none]
    rfl
  | some position =>
    rw [closeAtRangeEnd, closeAtRangeEnd, hlast, state.position_later, hposition, Option.map_some]
    cases sim.candles.getLast? with
    | none => rfl
    | some finalCandle =>
      simp only [map_bind]
      exact bind_congr fun close => bind_congr fun time => closePosition_later state _ _ _

theorem finalState_later (h : AnswersWithin needed sim.input.strategy)
    (hneeded : needed ≤ sim.warmupCandles + 1) :
    (sim.withEarlier earlier raw warmup).finalState =
      SimulatorState.later earlier.length <$> sim.finalState := by
  have hlength : (sim.withEarlier earlier raw warmup).candles.length =
      earlier.length + sim.candles.length := List.length_append
  rw [finalState, finalState, hlength, loopUpTo_later h hneeded, bind_map_left, map_bind]
  by_cases hcandles : sim.candles = []
  · rw [hcandles, List.length_nil, loopUpTo, ok_bind, ok_bind]
    rfl
  · exact bind_congr fun state => closeAtRangeEnd_later hcandles state

end

end Simulation

section

variable {calendar : Calendar} {input : SimulationInput}

theorem validateCandles_none {previous : Option Candle} {candles : List Candle}
    (h : validateCandles calendar input previous candles = .ok ()) :
    validateCandles calendar input none candles = .ok () := by
  cases candles with
  | nil => rfl
  | cons candle rest =>
    simp only [validateCandles, bind_eq_ok] at h ⊢
    obtain ⟨u, hvalid, -, -, hrest⟩ := h
    exact ⟨u, hvalid, (), rfl, hrest⟩

theorem validateCandles_suffix {previous : Option Candle} {earlier candles : List Candle}
    (h : validateCandles calendar input previous (earlier ++ candles) = .ok ()) :
    validateCandles calendar input none candles = .ok () := by
  induction earlier generalizing previous with
  | nil => exact validateCandles_none h
  | cons first rest ih =>
    rw [List.cons_append] at h
    simp only [validateCandles, bind_eq_ok] at h
    obtain ⟨-, -, -, -, hrest⟩ := h
    exact ih hrest

theorem count_ok (count : Nat) :
    (!(JsNumber.ofInt count).isInteger || (JsNumber.ofInt count).lt (.ofInt 0)) = false := by
  have hinteger : (JsNumber.ofInt count).isInteger = true := rfl
  have hone : Decimal.powerOfTen 0 = 1 := rfl
  have hsign : (JsNumber.ofInt count).lt (.ofInt 0) = false := by
    simp only [JsNumber.ofInt, JsNumber.lt, Decimal.fromInteger, hone, decide_eq_false_iff_not]
    omega
  rw [hinteger, hsign]
  rfl

/-- The input with other candles and another warm-up. -/
def SimulationInput.warmedBy (input : SimulationInput) (raw : List Candle) (warmup : Nat) :
    SimulationInput :=
  { input with candles := raw, warmupCandles := some (.ofInt warmup) }

theorem validateCandles_warmedBy (raw : List Candle) (warmup : Nat) (previous : Option Candle)
    (candles : List Candle) :
    validateCandles calendar (input.warmedBy raw warmup) previous candles =
      validateCandles calendar input previous candles := by
  induction candles generalizing previous with
  | nil => rfl
  | cons candle rest ih =>
    rw [validateCandles, validateCandles, ih]
    rfl

theorem prepare_withEarlier {raw earlier : List Candle} {warmup : Nat} {longer : Simulation}
    (hwarmup : input.warmupCandles = some (.ofInt warmup))
    (hclosed : closedCandles calendar (input.warmedBy raw (earlier.length + warmup)) =
      earlier ++ closedCandles calendar input)
    (h : prepare calendar (input.warmedBy raw (earlier.length + warmup)) = .ok longer) :
    ∃ sim, prepare calendar input = .ok sim ∧ sim.warmupCandles = warmup ∧
      sim.input = input ∧
      longer = sim.withEarlier earlier raw (some (.ofInt (earlier.length + warmup))) := by
  simp only [prepare, bind_eq_ok, pure_eq_ok, throwIf_eq_ok] at h ⊢
  obtain ⟨u, hmoney, stop, hstop, take, htake, v, hslippage, -, -, w, hvalid, x, hlong, fee, hfee,
    feeRate, hfeeRate, bps, hbps, slippageRate, hslippageRate, capital, hcapital, rfl⟩ := h
  rw [hclosed, validateCandles_warmedBy] at hvalid
  rw [hclosed] at hlong
  have hcount : (!(input.warmupCandles.getD (.ofInt 0)).isInteger ||
      (input.warmupCandles.getD (.ofInt 0)).lt (.ofInt 0)) = false := by
    rw [hwarmup]
    exact count_ok warmup
  have hnumber : (input.warmupCandles.getD (.ofInt 0)).toNat = warmup := by
    rw [hwarmup]
    rfl
  have hleft : decide ((closedCandles calendar input).length <
      (input.warmupCandles.getD (.ofInt 0)).toNat) = false := by
    have hshort : ¬ (earlier ++ closedCandles calendar input).length < earlier.length + warmup :=
      of_decide_eq_false hlong
    rw [hnumber, decide_eq_false_iff_not]
    rw [List.length_append] at hshort
    omega
  refine ⟨_, ⟨u, hmoney, stop, hstop, take, htake, v, hslippage, (), hcount, (),
    validateCandles_suffix hvalid, (), hleft, fee, hfee, feeRate, hfeeRate, bps, hbps, slippageRate,
    hslippageRate, capital, hcapital, rfl⟩, hnumber, rfl, ?_⟩
  rw [Simulation.withEarlier, hclosed, hnumber]
  rfl

/-- A strategy whose answers the warm-up suffices for trades alike on more history, if what is put in
front is skipped. -/
theorem simulateBacktest_warmedBy {raw earlier : List Candle} {warmup needed : Nat}
    (hwarmup : input.warmupCandles = some (.ofInt warmup))
    (hclosed : closedCandles calendar (input.warmedBy raw (earlier.length + warmup)) =
      earlier ++ closedCandles calendar input)
    (hanswers : AnswersWithin needed input.strategy) (hneeded : needed ≤ warmup + 1)
    (haccepted : (prepare calendar (input.warmedBy raw (earlier.length + warmup))).toBool = true) :
    simulateBacktest calendar (input.warmedBy raw (earlier.length + warmup)) =
      simulateBacktest calendar input := by
  obtain ⟨longer, hlonger⟩ := exists_ok haccepted
  obtain ⟨sim, hsim, hcount, hinput, rfl⟩ := prepare_withEarlier hwarmup hclosed hlonger
  rw [← hinput] at hanswers
  rw [← hcount] at hneeded
  have hfinal : (sim.withEarlier earlier raw (some (.ofInt (earlier.length + warmup)))).finalState =
      SimulatorState.later earlier.length <$> sim.finalState :=
    Simulation.finalState_later hanswers hneeded
  rw [simulateBacktest, simulateBacktest, hlonger, hsim, ok_bind, ok_bind, hfinal, bind_map_left]
  rfl

end

end Cryptox.Backtesting
