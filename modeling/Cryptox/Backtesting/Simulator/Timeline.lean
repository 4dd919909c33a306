import Mathlib.Data.List.Chain
import Mathlib.Data.String.Basic
import Cryptox.Library.Outcome
import Cryptox.Backtesting.Simulator

/-!
# The accepted input and its timeline

What the up-front checks guarantee, and the candle index at which a trade is entered and left.
-/
namespace Cryptox.Backtesting

open Cryptox.Library (bind_eq_ok pure_eq_ok throwIf_eq_ok throwIf_false ok_bind roundTo_nonneg)

/-- What `prepare` guarantees of the values it hands to the loop. -/
structure Accepted (calendar : Calendar) (input : SimulationInput) (sim : Simulation) : Prop where
  calendar_eq : sim.calendar = calendar
  input_eq : sim.input = input
  candles_eq : sim.candles = closedCandles calendar input
  ordered : (sim.candles.map (·.timestamp)).Pairwise (· < ·)
  feeRate : 0 ≤ sim.feeRate.toRat
  slippageRate : 0 ≤ sim.slippageRate.toRat
  startingEquity : ∃ capital, decimal input.initialCapital = .ok capital ∧
    sim.startingEquity = capital.round 2
  equity_nonneg : 0 ≤ sim.startingEquity.toRat

theorem ordered_of_validateCandles {calendar : Calendar} {input : SimulationInput}
    {previous : Option Candle} {candles : List Candle}
    (h : validateCandles calendar input previous candles = .ok ()) :
    (∀ before ∈ previous, ∀ candle ∈ candles.head?, before.timestamp < candle.timestamp) ∧
      (candles.map (·.timestamp)).IsChain (· < ·) := by
  induction candles generalizing previous with
  | nil => exact ⟨by simp, .nil⟩
  | cons candle rest ih =>
    simp only [validateCandles, bind_eq_ok, throwIf_eq_ok] at h
    obtain ⟨-, -, -, hafter, h⟩ := h
    obtain ⟨hhead, hchain⟩ := ih h
    constructor
    · rintro before hbefore next hnext
      cases hnext
      cases hbefore
      simpa using hafter
    · refine hchain.cons fun time htime => ?_
      rw [List.head?_map] at htime
      obtain ⟨next, hnext, rfl⟩ := Option.map_eq_some_iff.mp htime
      exact hhead candle rfl next hnext

/-- Candles that pass their checks in the order of their texts are accepted. -/
theorem validateCandles_of_pairwise {calendar : Calendar} {input : SimulationInput}
    {previous : Option Candle} {candles : List Candle}
    (hvalid : ∀ candle ∈ candles, validateCandle calendar candle input = .ok ())
    (hordered : (candles.map (·.timestamp)).Pairwise (· < ·))
    (hprevious : ∀ before ∈ previous, ∀ candle ∈ candles, before.timestamp < candle.timestamp) :
    validateCandles calendar input previous candles = .ok () := by
  induction candles generalizing previous with
  | nil => rfl
  | cons candle rest ih =>
    rw [List.map_cons, List.pairwise_cons] at hordered
    have hafter : (previous.any fun before => decide (candle.timestamp ≤ before.timestamp)) =
        false := by
      cases previous with
      | none => rfl
      | some before =>
        have hlt := hprevious before rfl candle List.mem_cons_self
        exact decide_eq_false (not_le.mpr hlt)
    rw [validateCandles, hvalid candle List.mem_cons_self, ok_bind, hafter, throwIf_false, ok_bind]
    refine ih (fun other hother => hvalid other (List.mem_cons_of_mem _ hother)) hordered.2 ?_
    intro before hbefore other hother
    obtain rfl := Option.some.inj hbefore
    exact hordered.1 _ (List.mem_map_of_mem hother)

/-- A finite number that is not below zero has a value that is not below zero. -/
theorem decimal_nonneg {value : JsNumber} {shown : Decimal} (h : decimal value = .ok shown)
    (hsign : value.lt (.ofInt 0) = false) : 0 ≤ shown.toRat := by
  cases value with
  | finite raw =>
    cases h
    rw [Decimal.normalize_toRat, Decimal.toRat_nonneg]
    simpa [JsNumber.lt, JsNumber.ofInt, Decimal.fromInteger, Decimal.powerOfTen] using hsign
  | nan => cases h
  | infinity => cases h

theorem decimal_pos {value : JsNumber} {shown : Decimal} (h : decimal value = .ok shown)
    (hsign : value.le (.ofInt 0) = false) : 0 < shown.toRat := by
  cases value with
  | finite raw =>
    cases h
    rw [Decimal.normalize_toRat, Decimal.toRat_pos]
    simpa [JsNumber.le, JsNumber.ofInt, Decimal.fromInteger, Decimal.powerOfTen] using hsign
  | nan => cases h
  | infinity => cases h

theorem prepare_accepted {calendar : Calendar} {input : SimulationInput} {sim : Simulation}
    (h : prepare calendar input = .ok sim) : Accepted calendar input sim := by
  simp only [prepare, bind_eq_ok, pure_eq_ok, throwIf_eq_ok, Bool.or_eq_false_iff] at h
  obtain ⟨-, ⟨⟨⟨-, hcapital⟩, -⟩, hfee⟩, -, -, -, -, -, ⟨-, hslippage⟩, -, -, _, hvalid, -, -,
    feePercent, hfeePercent, feeRate, hfeeRate, bps, hbps, slippageRate, hslippageRate,
    capital, hinitial, rfl⟩ := h
  have hrate {value : JsNumber} {shown quotient : Decimal} {n : Int} (hn : 0 < n)
      (hshown : decimal value = .ok shown) (hsign : value.lt (.ofInt 0) = false)
      (hquotient : shown.divide (Decimal.fromInteger n) 20 = .ok quotient) : 0 ≤ quotient.toRat := by
    rw [Decimal.divide_toRat hquotient, Decimal.fromInteger_toRat]
    exact roundTo_nonneg (div_nonneg (decimal_nonneg hshown hsign) (by exact_mod_cast hn.le))
  refine ⟨rfl, rfl, rfl, ?_, hrate (by decide) hfeePercent hfee hfeeRate,
    hrate (by decide) hbps hslippage hslippageRate, ⟨capital, hinitial, rfl⟩, ?_⟩
  · exact (ordered_of_validateCandles hvalid).2.pairwise
  · rw [Decimal.round_toRat]
    exact roundTo_nonneg (decimal_pos hinitial hcapital).le

namespace Simulation

variable (sim : Simulation)

/-- The place of a timestamp among the candles. -/
def candleIndex (timestamp : String) : Nat := (sim.candles.map (·.timestamp)).idxOf timestamp

def entryIndex (trade : Trade) : Nat := sim.candleIndex trade.entryTime

/-- A position held to the end leaves at the last candle; its exit time is that candle's close. -/
def exitIndex (trade : Trade) : Nat :=
  if trade.exitReason = .rangeEnd then sim.candles.length - 1 else sim.candleIndex trade.exitTime

variable {sim}

theorem candleIndex_of_getElem {calendar : Calendar} {input : SimulationInput}
    (hsim : Accepted calendar input sim) {index : Nat} {candle : Candle}
    (h : sim.candles[index]? = some candle) : sim.candleIndex candle.timestamp = index := by
  obtain ⟨hlt, hget⟩ := List.getElem?_eq_some_iff.mp h
  have hnodup : (sim.candles.map (·.timestamp)).Nodup := hsim.ordered.imp fun hlt => hlt.ne
  have hmapped : index < (sim.candles.map (·.timestamp)).length := by simpa using hlt
  have hmap : (sim.candles.map (·.timestamp))[index] = candle.timestamp := by
    simp [hget]
  rw [candleIndex, ← hmap]
  exact hnodup.idxOf_getElem index _

/-- The finished run: the accepted input, the last loop state, and the trades of the result. -/
theorem simulateBacktest_ok {calendar : Calendar} {input : SimulationInput}
    {result : CompletedBacktestResult} (h : simulateBacktest calendar input = .ok result) :
    ∃ sim state, prepare calendar input = .ok sim ∧ sim.finalState = .ok state ∧
      result.trades = state.trades := by
  simp only [simulateBacktest, bind_eq_ok, pure_eq_ok] at h
  obtain ⟨sim, hsim, state, hstate, rfl⟩ := h
  exact ⟨sim, state, hsim, hstate, rfl⟩

end Simulation

/-! ## A small market -/

/-- The full hours of one morning with their instants. -/
def exampleTimes : List (String × Int) :=
  [("2025-01-01T00:00:00.000Z", 1735689600000), ("2025-01-01T01:00:00.000Z", 1735693200000),
    ("2025-01-01T02:00:00.000Z", 1735696800000), ("2025-01-01T03:00:00.000Z", 1735700400000),
    ("2025-01-01T04:00:00.000Z", 1735704000000)]

def exampleCalendar : Calendar where
  localeCompare := compare
  parse text := (exampleTimes.find? (·.1 == text)).map (·.2)
  toISOString instant :=
    match exampleTimes.find? (·.2 == instant) with
    | some (text, _) => .ok text
    | none => .error "Invalid time value"

def exampleCandle (timestamp : String) (openPrice high low close : Int) : Candle where
  pair := "BTCUSDT"
  timeframe := .h1
  timestamp
  openPrice := .ofInt openPrice
  high := .ofInt high
  low := .ofInt low
  close := .ofInt close
  volume := .ofInt 10
  isClosed := true

/-- The strategy gives the listed answers, one a candle, and holds after them. -/
def exampleInput (candles : List Candle) (answers : List String) : SimulationInput where
  candidateId := "candidate"
  attemptId := "attempt"
  pair := "BTCUSDT"
  settlementAsset := "USDT"
  timeframe := .h1
  candles
  warmupCandles := none
  strategy := ⟨fun context => .ok (answers[context.candles.length - 1]?.getD "HOLD")⟩
  sentimentAt := none
  initialCapital := .ofInt 1000
  feeRatePercent := .finite ⟨1, 1⟩
  slippageBps := none
  stopLossPercent := none
  takeProfitPercent := none
  workerRuntimeVersion := "1"
  workerRuntimeSha256 := "sha"
  startedAt := "2025-01-01T00:00:00.000Z"
  completedAt := "2025-01-01T03:00:00.000Z"

/-- A long reversed at the third open, and a short held to a last close at `lastClose`. -/
def reversalInput (lastClose : Int) : SimulationInput :=
  exampleInput
    [exampleCandle "2025-01-01T00:00:00.000Z" 100 102 99 101,
      exampleCandle "2025-01-01T01:00:00.000Z" 102 106 101 105,
      exampleCandle "2025-01-01T02:00:00.000Z" 106 111 105 110,
      exampleCandle "2025-01-01T03:00:00.000Z" 110 500 90 lastClose]
    ["BUY", "SELL"]

end Cryptox.Backtesting
