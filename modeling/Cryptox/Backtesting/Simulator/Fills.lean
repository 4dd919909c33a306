import Cryptox.Backtesting.Simulator.Exits

/-!
# Fills inside the market, exits at the first touch

What the history of the loop says of the trades of a result, in terms of the trade and its two
candles.
-/
namespace Cryptox.Backtesting.Simulation

open Cryptox.Library (bind_eq_ok pure_eq_ok exists_ok roundTo roundTo_nonneg OnGrid onGrid_roundTo)

variable {sim : Simulation} {position : Position} {index : Nat} {candle : Candle} {price : Decimal}
  {reason : ExitReason} {trade : Trade} {calendar : Calendar} {input : SimulationInput}

/-- Where a played trade begins and ends, and what it takes over from its position. -/
structure Placed (sim : Simulation) (position : Position) (index : Nat) (price : Decimal)
    (reason : ExitReason) (trade : Trade) : Prop where
  entryIndex : sim.entryIndex trade = position.entryIndex
  exitIndex : sim.exitIndex trade = index
  exitReason : trade.exitReason = reason
  closes : ClosesPosition position trade
  marketExitPrice : trade.marketExitPrice = price
  exitPrice : trade.exitPrice.toRat = sim.exitPriceAt position price.toRat

theorem Played.placed (h : Played sim position index candle price reason trade)
    (hsim : Accepted calendar input sim) : Placed sim position index price reason trade := by
  obtain ⟨sequence, time, htrade, htime⟩ := h.closing
  have hstored := closingTrade_stored htrade
  obtain ⟨entry, hentry, hentryTime, -⟩ := h.entered.entry
  refine ⟨?_, ?_, hstored.exitReason, hstored.closes, ?_, ?_⟩
  · rw [Simulation.entryIndex, hstored.closes.entryTime, hentryTime, candleIndex_of_getElem hsim hentry]
  · rw [Simulation.exitIndex, hstored.exitReason]
    split
    · rename_i hend
      have := (h.leaves.rangeEnd hend).1
      omega
    · rename_i hreason
      rw [hstored.exitTime, htime hreason, candleIndex_of_getElem hsim h.exit]
  · simp only [closingTrade, bind_eq_ok, pure_eq_ok] at htrade
    obtain ⟨_, -, rfl⟩ := htrade
    rfl
  · exact closingTrade_exitPrice htrade

/-! ## Slippage -/

/-- What the buyer of a price on the grid pays after slippage. -/
theorem le_slipped {market rate : ℚ} (hgrid : OnGrid 8 market) (hmarket : 0 ≤ market)
    (hrate : 0 ≤ rate) : market ≤ roundTo 8 (market * (1 + rate)) :=
  hgrid.le_roundTo (le_mul_of_one_le_right hmarket (by linarith))

/-- What the seller receives. -/
theorem slipped_le {market rate : ℚ} (hgrid : OnGrid 8 market) (hmarket : 0 ≤ market)
    (hrate : 0 ≤ rate) : roundTo 8 (market * (1 - rate)) ≤ market :=
  hgrid.roundTo_le (mul_le_of_le_one_right hmarket (by linarith))

/-- Slippage moves both executed prices against the side. -/
structure Slipped (signal : Signal) (marketEntry entry marketExit exit : ℚ) : Prop where
  long : signal = .long → marketEntry ≤ entry ∧ exit ≤ marketExit
  short : signal = .short → entry ≤ marketEntry ∧ marketExit ≤ exit

theorem Entered.slipped (h : Entered sim position) (hsim : Accepted calendar input sim)
    (hvalid : ∀ candle ∈ sim.candles, ValidCandle calendar candle) {market : ℚ}
    (hgrid : OnGrid 8 market) (hmarket : 0 ≤ market) :
    Slipped position.signal position.marketEntryPrice.toRat position.entryPrice.toRat market
      (sim.exitPriceAt position market) := by
  obtain ⟨entry, hentry, -, hopen⟩ := h.entry
  have hentryGrid : OnGrid 8 position.marketEntryPrice.toRat := hopen ▸ onGrid_roundTo 8 _
  have hentryPos : 0 ≤ position.marketEntryPrice.toRat :=
    hopen ▸ roundTo_nonneg (hvalid entry (List.mem_of_getElem? hentry)).open_pos.le
  rw [h.entryPrice, entryPriceAt, exitPriceAt]
  constructor
  · intro hlong
    rw [hlong, signOf, one_mul]
    exact ⟨le_slipped hentryGrid hentryPos hsim.slippageRate,
      slipped_le hgrid hmarket hsim.slippageRate⟩
  · intro hshort
    rw [hshort, signOf, neg_one_mul, ← sub_eq_add_neg, sub_neg_eq_add]
    exact ⟨slipped_le hentryGrid hentryPos hsim.slippageRate,
      le_slipped hgrid hmarket hsim.slippageRate⟩

theorem Played.slipped (h : Played sim position index candle price reason trade)
    (hsim : Accepted calendar input sim)
    (hvalid : ∀ candle ∈ sim.candles, ValidCandle calendar candle) :
    Slipped trade.signal trade.marketEntryPrice.toRat trade.entryPrice.toRat
      trade.marketExitPrice.toRat trade.exitPrice.toRat := by
  obtain ⟨-, -, -, hcloses, hprice, hexitPrice⟩ := h.placed hsim
  have hexitGrid : OnGrid 8 price.toRat := ⟨price.units, by rw [Decimal.toRat, h.leaves.scale]⟩
  have hexitPos : 0 ≤ price.toRat :=
    (roundTo_nonneg (hvalid candle (List.mem_of_getElem? h.exit)).low_pos.le).trans h.leaves.low_le
  rw [hcloses.signal, hcloses.marketEntryPrice, hcloses.entryPrice, hprice, hexitPrice]
  exact h.entered.slipped hsim hvalid hexitGrid hexitPos

/-! ## The two candles of a trade -/

/-- Every price of the trade is one that its candles offered, and slippage only takes. -/
structure FillsInMarket (sim : Simulation) (trade : Trade) (entry exit : Candle) : Prop where
  entryCandle : sim.candles[sim.entryIndex trade]? = some entry
  exitCandle : sim.candles[sim.exitIndex trade]? = some exit
  marketEntry : trade.marketEntryPrice.toRat = roundTo 8 entry.openPrice.toRat
  low_le : roundTo 8 exit.low.toRat ≤ trade.marketExitPrice.toRat
  le_high : trade.marketExitPrice.toRat ≤ roundTo 8 exit.high.toRat
  stopLoss : trade.exitReason = .stopLoss → ∃ stop ∈ trade.stopLoss,
    AtOrWorse trade.signal stop.toRat trade.marketExitPrice.toRat
  takeProfit : trade.exitReason = .takeProfit → ∃ take ∈ trade.takeProfit,
    AtOrBetter trade.signal take.toRat trade.marketExitPrice.toRat
  slipped : Slipped trade.signal trade.marketEntryPrice.toRat trade.entryPrice.toRat
    trade.marketExitPrice.toRat trade.exitPrice.toRat

/-- The trade left at the first candle after its entry that gave a reason to. -/
structure FirstTouch (sim : Simulation) (trade : Trade) (exit : Candle) : Prop where
  exitCandle : sim.candles[sim.exitIndex trade]? = some exit
  quiet : ∀ passed between, sim.entryIndex trade < passed → passed < sim.exitIndex trade →
    sim.candles[passed]? = some between →
      ¬ TouchesStop trade.signal trade.stopLoss between ∧
        ¬ TouchesTake trade.signal trade.takeProfit between
  stopLoss : trade.exitReason = .stopLoss → TouchesStop trade.signal trade.stopLoss exit
  takeProfit : trade.exitReason = .takeProfit → TouchesTake trade.signal trade.takeProfit exit ∧
    ¬ TouchesStop trade.signal trade.stopLoss exit
  rangeEnd : trade.exitReason = .rangeEnd → sim.exitIndex trade + 1 = sim.candles.length ∧
    (sim.exitIndex trade ≠ sim.entryIndex trade →
      ¬ TouchesStop trade.signal trade.stopLoss exit ∧
        ¬ TouchesTake trade.signal trade.takeProfit exit)
  strategyClose : trade.exitReason = .strategyClose →
    trade.marketExitPrice.toRat = roundTo 8 exit.openPrice.toRat ∧
      ∃ before action, before + 1 = sim.exitIndex trade ∧ Answers sim before action ∧
        side action ≠ trade.signal

theorem Played.fillsInMarket (h : Played sim position index candle price reason trade)
    (hsim : Accepted calendar input sim)
    (hvalid : ∀ candle ∈ sim.candles, ValidCandle calendar candle) :
    ∃ entry, FillsInMarket sim trade entry candle := by
  obtain ⟨hentryIndex, hexitIndex, hreason, hcloses, hprice, -⟩ := h.placed hsim
  obtain ⟨entry, hentry, -, hmarket⟩ := h.entered.entry
  refine ⟨entry, ?_⟩
  constructor
  case entryCandle => rw [hentryIndex, hentry]
  case exitCandle => rw [hexitIndex, h.exit]
  case marketEntry => rw [hcloses.marketEntryPrice, hmarket]
  case low_le => exact hprice ▸ h.leaves.low_le
  case le_high => exact hprice ▸ h.leaves.le_high
  case stopLoss =>
    intro hstop
    rw [hcloses.stopLoss, hcloses.signal, hprice]
    exact (h.leaves.stopLoss (hreason.symm.trans hstop)).2
  case takeProfit =>
    intro htake
    rw [hcloses.takeProfit, hcloses.signal, hprice]
    exact (h.leaves.takeProfit (hreason.symm.trans htake)).2.2
  case slipped => exact h.slipped hsim hvalid

theorem Played.firstTouch (h : Played sim position index candle price reason trade)
    (hsim : Accepted calendar input sim) : FirstTouch sim trade candle := by
  obtain ⟨hentry, hexit, hreason, hcloses, hprice, -⟩ := h.placed hsim
  constructor
  case exitCandle => rw [hexit, h.exit]
  case quiet =>
    intro passed between hlt hgt hpassed
    rw [hentry] at hlt
    rw [hexit] at hgt
    rw [hcloses.signal, hcloses.stopLoss, hcloses.takeProfit, ← not_or]
    exact h.quiet passed between hlt hgt hpassed
  case stopLoss =>
    intro hstop
    rw [hcloses.signal, hcloses.stopLoss]
    exact (h.leaves.stopLoss (hreason.symm.trans hstop)).1
  case takeProfit =>
    intro htake
    rw [hcloses.signal, hcloses.stopLoss, hcloses.takeProfit]
    obtain ⟨htouch, hstop, -⟩ := h.leaves.takeProfit (hreason.symm.trans htake)
    exact ⟨htouch, hstop⟩
  case rangeEnd =>
    intro hend
    obtain ⟨hlast, hquiet⟩ := h.leaves.rangeEnd (hreason.symm.trans hend)
    rw [hexit, hcloses.signal, hcloses.stopLoss, hcloses.takeProfit, ← not_or]
    exact ⟨hlast, fun _ => hquiet⟩
  case strategyClose =>
    intro hclose
    rw [hexit, hcloses.signal, hprice]
    exact h.leaves.strategyClose (hreason.symm.trans hclose)

/-- Every trade of a result is one that the loop played. -/
theorem simulateBacktest_played {result : CompletedBacktestResult}
    (h : simulateBacktest calendar input = .ok result) :
    ∃ sim, prepare calendar input = .ok sim ∧ Accepted calendar input sim ∧
      (∀ candle ∈ sim.candles, ValidCandle calendar candle) ∧
      ∀ trade ∈ result.trades, PlayedTrade sim trade := by
  obtain ⟨sim, state, hprepare, hfinal, htrades⟩ := simulateBacktest_ok h
  have hvalid := prepare_valid hprepare
  refine ⟨sim, hprepare, prepare_accepted hprepare, hvalid, ?_⟩
  rw [htrades]
  exact finalState_played (prepare_accepted hprepare) hvalid hfinal

/-- Fills stay inside the market, on the right side of a protective level, with slippage against
the position. -/
theorem simulateBacktest_fillsInMarket (calendar : Calendar) (input : SimulationInput)
    (result : CompletedBacktestResult) (h : simulateBacktest calendar input = .ok result) :
    ∃ sim, prepare calendar input = .ok sim ∧
      ∀ trade ∈ result.trades, ∃ entry exit, FillsInMarket sim trade entry exit := by
  obtain ⟨sim, hprepare, hsim, hvalid, hplayed⟩ := simulateBacktest_played h
  refine ⟨sim, hprepare, fun trade htrade => ?_⟩
  obtain ⟨position, index, candle, price, reason, hplay⟩ := hplayed trade htrade
  obtain ⟨entry, hfills⟩ := hplay.fillsInMarket hsim hvalid
  exact ⟨entry, candle, hfills⟩

/-- The reversal with a stop two percent away: the short is stopped out at an open beyond it. -/
def protectedInput : SimulationInput :=
  { reversalInput 100 with
    stopLossPercent := some (.ofInt 2)
    takeProfitPercent := some (.ofInt 3) }

theorem protectedInput_exits : (simulateBacktest exampleCalendar protectedInput).toOption.map
    (fun result => result.trades.map (·.exitReason)) = some [.strategyClose, .stopLoss] := by
  decide

theorem simulateBacktest_fillsInMarket_protected :
    ∃ result, simulateBacktest exampleCalendar protectedInput = .ok result ∧
      result.trades.map (·.exitReason) = [.strategyClose, .stopLoss] ∧
      ∃ sim, prepare exampleCalendar protectedInput = .ok sim ∧
        ∀ trade ∈ result.trades, ∃ entry exit, FillsInMarket sim trade entry exit := by
  have hexits := protectedInput_exits
  obtain ⟨result, hrun⟩ := exists_ok (x := simulateBacktest exampleCalendar protectedInput)
    (by decide)
  rw [hrun] at hexits
  exact ⟨result, hrun, Option.some.inj hexits, simulateBacktest_fillsInMarket _ _ _ hrun⟩

/-- A protective exit fires at the first candle after the entry that touches a level; a strategy
close follows the opposite answer at the close before. -/
theorem simulateBacktest_firstTouch (calendar : Calendar) (input : SimulationInput)
    (result : CompletedBacktestResult) (h : simulateBacktest calendar input = .ok result) :
    ∃ sim, prepare calendar input = .ok sim ∧
      ∀ trade ∈ result.trades, ∃ exit, FirstTouch sim trade exit := by
  obtain ⟨sim, hprepare, hsim, -, hplayed⟩ := simulateBacktest_played h
  refine ⟨sim, hprepare, fun trade htrade => ?_⟩
  obtain ⟨position, index, candle, price, reason, hplay⟩ := hplayed trade htrade
  exact ⟨candle, hplay.firstTouch hsim⟩

theorem simulateBacktest_firstTouch_protected :
    ∃ result, simulateBacktest exampleCalendar protectedInput = .ok result ∧
      result.trades.map (·.exitReason) = [.strategyClose, .stopLoss] ∧
      ∃ sim, prepare exampleCalendar protectedInput = .ok sim ∧
        ∀ trade ∈ result.trades, ∃ exit, FirstTouch sim trade exit := by
  have hexits := protectedInput_exits
  obtain ⟨result, hrun⟩ := exists_ok (x := simulateBacktest exampleCalendar protectedInput)
    (by decide)
  rw [hrun] at hexits
  exact ⟨result, hrun, Option.some.inj hexits, simulateBacktest_firstTouch _ _ _ hrun⟩

end Cryptox.Backtesting.Simulation
