import Mathlib.Data.List.Sort
import Cryptox.Library.Outcome
import Cryptox.Backtesting.Contracts

/-!
# The simulator

`simulateBacktest` checks its input, walks the closed candles once with an equity, at most one
open position and at most one scheduled action, and closes what is left at the last close.
-/
namespace Cryptox.Backtesting

open Decimal
open Cryptox.Library (throwIf)

def side : Action → Signal
  | .buy => .long
  | .sell => .short

def direction : Signal → Decimal
  | .long => fromInteger 1
  | .short => fromInteger (-1)

def toStrategyCandle (candle : Candle) : StrategyCandle :=
  ⟨candle.timestamp, candle.openPrice, candle.high, candle.low, candle.close, candle.volume⟩

def assertPositivePercent : Option JsNumber → Except String Unit
  | none => .ok ()
  | some value =>
    throwIf (!value.isFinite || value.le (.ofInt 0) || (JsNumber.ofInt 100).le value) "INVALID_INPUT"

def assertPositivePrice : Option Decimal → Except String Unit
  | none => .ok ()
  | some value => throwIf (value.units ≤ 0) "INVALID_INPUT"

/-- The white space that `trim` strips. -/
def isJsSpace (c : Char) : Bool :=
  [9, 10, 11, 12, 13, 32, 160, 5760, 8232, 8233, 8239, 8287, 12288, 65279].contains c.toNat
    || (8192 ≤ c.toNat && c.toNat ≤ 8202)

def isBlank (text : String) : Bool := text.toList.all isJsSpace

def candleCloseTime (calendar : Calendar) (timestamp : String) (timeframe : Timeframe) :
    Except String String :=
  match calendar.parse timestamp with
  | none => .error "INVALID_INPUT"
  | some parsed => calendar.toISOString (parsed + timeframe.ms)

def validateCandle (calendar : Calendar) (candle : Candle) (input : SimulationInput) :
    Except String Unit := do
  throwIf (candle.pair ≠ input.pair || candle.timeframe ≠ input.timeframe
    || (calendar.parse candle.timestamp).isNone) "INVALID_INPUT"
  throwIf (!([candle.openPrice, candle.high, candle.low, candle.close].all
      fun value => value.isFinite && (JsNumber.ofInt 0).lt value)
    || !candle.volume.isFinite || candle.volume.lt (.ofInt 0)) "INVALID_INPUT"
  throwIf (candle.high.lt (candle.openPrice.max candle.close)
    || (candle.openPrice.min candle.close).lt candle.low) "INVALID_INPUT"

/-- The check of every candle, with the strict order against the one before it. -/
def validateCandles (calendar : Calendar) (input : SimulationInput) :
    Option Candle → List Candle → Except String Unit
  | _, [] => .ok ()
  | previous, candle :: rest => do
    validateCandle calendar candle input
    throwIf (previous.any fun before => decide (candle.timestamp ≤ before.timestamp)) "INVALID_INPUT"
    validateCandles calendar input (some candle) rest

/-- The closed candles in timestamp order; the sort is stable. -/
def closedCandles (calendar : Calendar) (input : SimulationInput) : List Candle :=
  (input.candles.filter (·.isClosed)).insertionSort
    fun left right => calendar.localeCompare left.timestamp right.timestamp ≠ .gt

/-- What the loop and its closures share once the input is accepted. -/
structure Simulation where
  calendar : Calendar
  input : SimulationInput
  slippageBps : JsNumber
  warmupCandles : Nat
  candles : List Candle
  feeRate : Decimal
  slippageRate : Decimal
  startingEquity : Decimal

def prepare (calendar : Calendar) (input : SimulationInput) : Except String Simulation := do
  throwIf (isBlank input.settlementAsset || !input.initialCapital.isFinite
    || input.initialCapital.le (.ofInt 0) || !input.feeRatePercent.isFinite
    || input.feeRatePercent.lt (.ofInt 0)) "INVALID_INPUT"
  assertPositivePercent input.stopLossPercent
  assertPositivePercent input.takeProfitPercent
  let slippageBps := input.slippageBps.getD (.ofInt 5)
  throwIf (!slippageBps.isFinite || slippageBps.lt (.ofInt 0)) "INVALID_INPUT"
  let warmupCandles := input.warmupCandles.getD (.ofInt 0)
  throwIf (!warmupCandles.isInteger || warmupCandles.lt (.ofInt 0)) "INVALID_INPUT"
  let candles := closedCandles calendar input
  validateCandles calendar input none candles
  throwIf (candles.length < warmupCandles.toNat) "SNAPSHOT_INCOMPLETE"
  let feeRate ← divide (← decimal input.feeRatePercent) (fromInteger 100) 20
  let slippageRate ← divide (← decimal slippageBps) (fromInteger 10000) 20
  let startingEquity := (← decimal input.initialCapital).round 2
  return {
    calendar, input, slippageBps, candles, feeRate, slippageRate, startingEquity
    warmupCandles := warmupCandles.toNat }

/-- The variables of the loop. `opened` is a history variable: every position that was opened,
in order. Nothing reads it. -/
structure SimulatorState where
  equity : Decimal
  position : Option Position
  scheduled : Option Action
  sequence : Nat
  trades : List Trade
  opened : List Position
deriving Repr

/-- The loop variables after a trade is stored: equity follows it and the position is gone. -/
def SimulatorState.record (state : SimulatorState) (trade : Trade) : SimulatorState :=
  { state with
    equity := trade.equityAfterTrade
    sequence := state.sequence + 1
    trades := state.trades ++ [trade]
    position := none }

def SimulatorState.enter (state : SimulatorState) (position : Position) : SimulatorState :=
  { state with position := some position, opened := state.opened ++ [position] }

namespace Simulation

variable (sim : Simulation)

def initial : SimulatorState := ⟨sim.startingEquity, none, none, 0, [], []⟩

/-- The trade that `closePosition` stores. -/
def closingTrade (position : Position) (sequence : Nat) (marketExitPrice : Decimal)
    (exitTime : String) (exitReason : ExitReason) : Except String Trade := do
  let tradeDirection := direction position.signal
  let exitPrice := (marketExitPrice.multiply
    ((fromInteger 1).subtract (tradeDirection.multiply sim.slippageRate))).round 8
  let entryNotional := (position.entryPrice.multiply position.quantity).round 2
  let exitNotional := (exitPrice.multiply position.quantity).round 2
  let grossProfit := (tradeDirection.multiply
    ((marketExitPrice.subtract position.marketEntryPrice).multiply position.quantity)).round 2
  let entrySlippage :=
    ((position.entryPrice.subtract position.marketEntryPrice).absolute.multiply
      position.quantity).round 2
  let exitSlippage := ((exitPrice.subtract marketExitPrice).absolute.multiply position.quantity).round 2
  let slippageAmount := (entrySlippage.add exitSlippage).round 2
  let entryFee := (sim.feeRate.multiply entryNotional).round 2
  let exitFee := (sim.feeRate.multiply exitNotional).round 2
  let feeAmount := (entryFee.add exitFee).round 2
  let profit := ((grossProfit.subtract slippageAmount).subtract feeAmount).round 2
  let equityAfterTrade := (position.equityBeforeTrade.add profit).round 2
  let resultPercent ← divide (profit.multiply (fromInteger 100)) position.equityBeforeTrade 8
  return {
    id := sim.input.attemptId ++ "-trade-" ++ toString sequence
    sequence
    pair := sim.input.pair
    settlementAsset := sim.input.settlementAsset
    backtestAttemptId := sim.input.attemptId
    signal := position.signal
    entryTime := position.entryTime
    marketEntryPrice := position.marketEntryPrice
    entryPrice := position.entryPrice
    stopLoss := position.stopLoss
    takeProfit := position.takeProfit
    exitTime, marketExitPrice, exitPrice, exitReason
    quantity := position.quantity
    notionalEntryValue := entryNotional
    equityBeforeTrade := position.equityBeforeTrade
    equityAfterTrade, grossProfit, feeAmount
    slippageBps := sim.slippageBps
    slippageAmount, profit, resultPercent
    result := if profit.units > 0 then .win else if profit.units < 0 then .loss else .breakeven }

def closePosition (state : SimulatorState) (marketExitPrice : Decimal) (exitTime : String)
    (exitReason : ExitReason) : Except String SimulatorState :=
  match state.position with
  | none => .ok state
  | some position => do
    let trade ← sim.closingTrade position (state.sequence + 1) marketExitPrice exitTime exitReason
    return state.record trade

def stopLossPrice (tradeDirection marketEntryPrice : Decimal) : Except String (Option Decimal) :=
  match sim.input.stopLossPercent with
  | none => .ok none
  | some percent => do
    let rate ← divide (← decimal percent) (fromInteger 100) 20
    return some ((marketEntryPrice.multiply
      ((fromInteger 1).subtract (tradeDirection.multiply rate))).round 8)

def takeProfitPrice (tradeDirection marketEntryPrice : Decimal) : Except String (Option Decimal) :=
  match sim.input.takeProfitPercent with
  | none => .ok none
  | some percent => do
    let rate ← divide (← decimal percent) (fromInteger 100) 20
    return some ((marketEntryPrice.multiply
      ((fromInteger 1).add (tradeDirection.multiply rate))).round 8)

def openPosition (state : SimulatorState) (action : Action) (candle : Candle) (index : Nat) :
    Except String SimulatorState := do
  let signal := side action
  let tradeDirection := direction signal
  let marketEntryPrice := (← decimal candle.openPrice).round 8
  let entryPrice := (marketEntryPrice.multiply
    ((fromInteger 1).add (tradeDirection.multiply sim.slippageRate))).round 8
  let quantity ← divide state.equity (entryPrice.multiply ((fromInteger 1).add sim.feeRate)) 8
  if quantity.units ≤ 0 then return state
  let stopLoss ← sim.stopLossPrice tradeDirection marketEntryPrice
  let takeProfit ← sim.takeProfitPrice tradeDirection marketEntryPrice
  assertPositivePrice stopLoss
  assertPositivePrice takeProfit
  let position : Position := {
    signal, entryIndex := index, marketEntryPrice, entryPrice, entryTime := candle.timestamp
    quantity, equityBeforeTrade := state.equity, stopLoss, takeProfit }
  return state.enter position

def isLastIndex (index : Nat) : Bool := index + 1 == sim.candles.length

/-- The first half of an executed action: a position on the other side is closed at the open. -/
def closeReversed (state : SimulatorState) (action : Action) (candle : Candle) :
    Except String SimulatorState :=
  match state.position with
  | none => .ok state
  | some position =>
    if position.signal = side action then .ok state
    else do
      sim.closePosition state ((← decimal candle.openPrice).round 8) candle.timestamp .strategyClose

/-- The second half: nothing is opened on the last candle. -/
def openWhenFlat (state : SimulatorState) (action : Action) (candle : Candle) (index : Nat) :
    Except String SimulatorState :=
  if state.position.isNone && index + 1 < sim.candles.length then
    sim.openPosition state action candle index
  else .ok state

def executeScheduled (state : SimulatorState) (candle : Candle) (index : Nat) :
    Except String SimulatorState :=
  match state.scheduled with
  | none => .ok state
  | some action =>
    if index < sim.warmupCandles then .ok state
    else do
      let closed ← sim.closeReversed state action candle
      let executed ← sim.openWhenFlat closed action candle index
      return { executed with scheduled := none }

def stopTriggered (position : Position) (marketHigh marketLow : Decimal) : Bool :=
  match position.signal with
  | .long => position.stopLoss.any fun (stop : Decimal) => marketLow.units ≤ stop.units
  | .short => position.stopLoss.any fun (stop : Decimal) => marketHigh.units ≥ stop.units

def takeTriggered (position : Position) (marketHigh marketLow : Decimal) : Bool :=
  match position.signal with
  | .long => position.takeProfit.any fun (take : Decimal) => marketHigh.units ≥ take.units
  | .short => position.takeProfit.any fun (take : Decimal) => marketLow.units ≤ take.units

def stopGap (position : Position) (marketOpen stop : Decimal) : Bool :=
  match position.signal with
  | .long => marketOpen.units ≤ stop.units
  | .short => marketOpen.units ≥ stop.units

def takeGap (position : Position) (marketOpen take : Decimal) : Bool :=
  match position.signal with
  | .long => marketOpen.units ≥ take.units
  | .short => marketOpen.units ≤ take.units

/-- The protective exit that the candle triggers, the stop before the take-profit: at the
protective price, or at the open when the open is already past it. -/
def protectiveExit (position : Position) (marketOpen marketHigh marketLow : Decimal) :
    Option (Decimal × ExitReason) :=
  if stopTriggered position marketHigh marketLow then
    position.stopLoss.map fun stop =>
      (if stopGap position marketOpen stop then marketOpen else stop, .stopLoss)
  else if takeTriggered position marketHigh marketLow then
    position.takeProfit.map fun take =>
      (if takeGap position marketOpen take then marketOpen else take, .takeProfit)
  else none

def applyProtectiveExit (state : SimulatorState) (candle : Candle) (index : Nat) :
    Except String SimulatorState :=
  match state.position with
  | none => .ok state
  | some position =>
    if position.entryIndex < index then do
      let marketOpen := (← decimal candle.openPrice).round 8
      let marketHigh := (← decimal candle.high).round 8
      let marketLow := (← decimal candle.low).round 8
      match protectiveExit position marketOpen marketHigh marketLow with
      | none => return state
      | some (price, reason) => sim.closePosition state price candle.timestamp reason
    else .ok state

/-- The sentiment lookup at a candle's close; the close time is computed only if one is wired. -/
def sentimentRead (calendar : Calendar) (input : SimulationInput) (candle : Candle) :
    Except String (Option Sentiment) :=
  match input.sentimentAt with
  | none => .ok none
  | some lookup => do lookup (← candleCloseTime calendar candle.timestamp input.timeframe)

def context (candle : Candle) (index : Nat) (sentiment : Option Sentiment) : StrategyContext where
  pair := sim.input.pair
  timeframe := sim.input.timeframe
  candles := (sim.candles.take (index + 1)).map toStrategyCandle
  currentPrice := candle.close
  sentiment

def parseSignal : String → Except String (Option Action)
  | "HOLD" => .ok none
  | "BUY" => .ok (some .buy)
  | "SELL" => .ok (some .sell)
  | _ => .error "INVALID_SIGNAL"

def schedule (state : SimulatorState) : Option Action → SimulatorState
  | none => state
  | some action =>
    if state.position.any fun position => position.signal = side action then state
    else { state with scheduled := some action }

def decideAtClose (state : SimulatorState) (candle : Candle) (index : Nat) :
    Except String SimulatorState :=
  if index < sim.warmupCandles || sim.isLastIndex index then .ok state
  else do
    let sentiment ← sentimentRead sim.calendar sim.input candle
    let signal ← sim.input.strategy.analyze (sim.context candle index sentiment)
    return schedule state (← parseSignal signal)

def candleStep (state : SimulatorState) (candle : Candle) (index : Nat) :
    Except String SimulatorState := do
  let executed ← sim.executeScheduled state candle index
  let exited ← sim.applyProtectiveExit executed candle index
  sim.decideAtClose exited candle index

/-- The state once the loop has handled the first `count` candles. -/
def loopUpTo : Nat → Except String SimulatorState
  | 0 => .ok sim.initial
  | index + 1 => do
    let state ← loopUpTo index
    match sim.candles[index]? with
    | none => return state
    | some candle => sim.candleStep state candle index

def closeAtRangeEnd (state : SimulatorState) : Except String SimulatorState :=
  match state.position, sim.candles.getLast? with
  | some _, some finalCandle => do
    let marketClose := (← decimal finalCandle.close).round 8
    let exitTime ← candleCloseTime sim.calendar finalCandle.timestamp sim.input.timeframe
    sim.closePosition state marketClose exitTime .rangeEnd
  | _, _ => .ok state

/-- The whole walk over the candles. -/
def finalState : Except String SimulatorState := do
  sim.closeAtRangeEnd (← sim.loopUpTo sim.candles.length)

end Simulation

def simulateBacktest (calendar : Calendar) (input : SimulationInput) :
    Except String CompletedBacktestResult := do
  let sim ← prepare calendar input
  let state ← sim.finalState
  return {
    candidateId := input.candidateId
    attemptId := input.attemptId
    workerRuntimeVersion := input.workerRuntimeVersion
    workerRuntimeSha256 := input.workerRuntimeSha256
    startedAt := input.startedAt
    completedAt := input.completedAt
    initialCapital := input.initialCapital
    trades := state.trades }

end Cryptox.Backtesting
