import Mathlib.Data.List.Forall2
import Cryptox.Backtesting.Simulator.Steps
import Cryptox.Backtesting.Simulator.Timeline

/-!
# The ledger of a run

One invariant ties the equity, the open position and the stored trades together. Closing,
opening and scheduling keep it, hence the loop and the final close do.
-/
namespace Cryptox.Backtesting.Simulation

open Cryptox.Library (bind_eq_ok pure_eq_ok exists_ok OnGrid)

variable {sim : Simulation} {state next : SimulatorState} {candle : Candle} {index now : Nat}
  {calendar : Calendar} {input : SimulationInput}

/-- The trade carries the position it closes. -/
structure ClosesPosition (position : Position) (trade : Trade) : Prop where
  signal : trade.signal = position.signal
  entryTime : trade.entryTime = position.entryTime
  marketEntryPrice : trade.marketEntryPrice = position.marketEntryPrice
  entryPrice : trade.entryPrice = position.entryPrice
  stopLoss : trade.stopLoss = position.stopLoss
  takeProfit : trade.takeProfit = position.takeProfit
  quantity : trade.quantity = position.quantity
  equityBefore : trade.equityBeforeTrade = position.equityBeforeTrade

/-- The accounting of one trade, at exact values. -/
structure Balanced (trade : Trade) : Prop where
  profit : trade.profit.toRat
    = trade.grossProfit.toRat - trade.slippageAmount.toRat - trade.feeAmount.toRat
  equityAfter : trade.equityAfterTrade.toRat = trade.equityBeforeTrade.toRat + trade.profit.toRat

/-- The trade stored for a position that is closed under this sequence, time and reason. -/
structure StoredFor (position : Position) (sequence : Nat) (exitTime : String)
    (exitReason : ExitReason) (trade : Trade) : Prop where
  sequence : trade.sequence = sequence
  exitTime : trade.exitTime = exitTime
  exitReason : trade.exitReason = exitReason
  closes : ClosesPosition position trade
  balanced : OnGrid 2 position.equityBeforeTrade.toRat → Balanced trade
  onGrid : OnGrid 2 trade.equityAfterTrade.toRat

theorem closingTrade_stored {position : Position} {sequence : Nat} {price : Decimal}
    {time : String} {reason : ExitReason} {trade : Trade}
    (h : sim.closingTrade position sequence price time reason = .ok trade) :
    StoredFor position sequence time reason trade := by
  simp only [closingTrade, bind_eq_ok, pure_eq_ok] at h
  obtain ⟨resultPercent, -, rfl⟩ := h
  refine ⟨rfl, rfl, rfl, ⟨rfl, rfl, rfl, rfl, rfl, rfl, rfl, rfl⟩, fun hgrid => ⟨?_, ?_⟩,
    Decimal.round_onGrid _ 2⟩
  · dsimp only
    rw [Decimal.round_subtract_subtract_toRat (Decimal.round_onGrid _ 2) (Decimal.round_onGrid _ 2)
      (Decimal.round_onGrid _ 2)]
  · dsimp only
    rw [Decimal.round_add_toRat hgrid (Decimal.round_onGrid _ 2)]

/-- The ledger after `now` candles: `earlier` are the positions already closed, one by each
trade in order, and the open position is the next one. -/
structure Ledger (sim : Simulation) (now : Nat) (state : SimulatorState) : Prop where
  onGrid : OnGrid 2 state.equity.toRat
  sequence : state.sequence = state.trades.length
  sequences : state.trades.map (·.sequence) = List.range' 1 state.trades.length
  head : ∀ trade ∈ state.trades.head?, trade.equityBeforeTrade = sim.startingEquity
  equity : state.equity = (state.trades.getLast?.map (·.equityAfterTrade)).getD sim.startingEquity
  chain : state.trades.IsChain fun earlier later =>
    later.equityBeforeTrade = earlier.equityAfterTrade
  balanced : ∀ trade ∈ state.trades, Balanced trade
  closes : ∃ earlier, List.Forall₂ ClosesPosition earlier state.trades ∧
    state.opened = earlier ++ state.position.toList
  span : ∀ trade ∈ state.trades, sim.entryIndex trade ≤ sim.exitIndex trade ∧
    sim.exitIndex trade ≤ now ∧ sim.exitIndex trade < sim.candles.length
  apart : state.trades.IsChain fun earlier later => sim.exitIndex earlier ≤ sim.entryIndex later
  held : ∀ position ∈ state.position, position.equityBeforeTrade = state.equity ∧
    sim.candleIndex position.entryTime ≤ now ∧
    sim.candleIndex position.entryTime < sim.candles.length ∧
    ∀ trade ∈ state.trades.getLast?, sim.exitIndex trade ≤ sim.candleIndex position.entryTime

theorem Ledger.start (hsim : Accepted calendar input sim) : Ledger sim 0 sim.initial where
  onGrid := by
    obtain ⟨capital, -, heq⟩ := hsim.startingEquity
    simp only [initial, heq]
    exact Decimal.round_onGrid capital 2
  sequence := rfl
  sequences := rfl
  head := by simp [initial]
  equity := rfl
  chain := .nil
  balanced := by simp [initial]
  closes := ⟨[], .nil, rfl⟩
  span := by simp [initial]
  apart := .nil
  held := by simp [initial]

theorem Ledger.later (h : Ledger sim now state) : Ledger sim (now + 1) state where
  onGrid := h.onGrid
  sequence := h.sequence
  sequences := h.sequences
  head := h.head
  equity := h.equity
  chain := h.chain
  balanced := h.balanced
  closes := h.closes
  span trade htrade := by
    have := h.span trade htrade
    omega
  apart := h.apart
  held position hposition := by
    obtain ⟨hequity, hnow, hlength, hlast⟩ := h.held position hposition
    exact ⟨hequity, by omega, hlength, hlast⟩

theorem Ledger.schedule (h : Ledger sim now state) (scheduled : Option Action) :
    Ledger sim now { state with scheduled } where
  onGrid := h.onGrid
  sequence := h.sequence
  sequences := h.sequences
  head := h.head
  equity := h.equity
  chain := h.chain
  balanced := h.balanced
  closes := h.closes
  span := h.span
  apart := h.apart
  held := h.held

/-- Storing the trade of the open position keeps the ledger. -/
theorem Ledger.record (h : Ledger sim now state) {position : Position} {time : String}
    {reason : ExitReason} {trade : Trade} (hposition : state.position = some position)
    (hstored : StoredFor position (state.sequence + 1) time reason trade)
    (hexit : sim.exitIndex trade ≤ now ∧ sim.exitIndex trade < sim.candles.length ∧
      sim.candleIndex position.entryTime ≤ sim.exitIndex trade) :
    Ledger sim now (state.record trade) := by
  obtain ⟨hequity, -, -, hlast⟩ := h.held position hposition
  have hbefore : trade.equityBeforeTrade = state.equity := hstored.closes.equityBefore.trans hequity
  have hentry : sim.entryIndex trade = sim.candleIndex position.entryTime := by
    rw [entryIndex, hstored.closes.entryTime]
  constructor
  case onGrid => exact hstored.onGrid
  case sequence => simp [h.sequence]
  case sequences =>
    simp only [record_trades, List.map_append, List.map_singleton, List.length_append,
      List.length_singleton, List.range'_1_concat, h.sequences, hstored.sequence, h.sequence]
    rw [Nat.add_comm]
  case head =>
    intro first hfirst
    cases htrades : state.trades with
    | nil =>
      simp only [record_trades, htrades, List.nil_append, List.head?_cons, Option.mem_def,
        Option.some.injEq] at hfirst
      subst hfirst
      rw [hbefore, h.equity, htrades]
      rfl
    | cons oldest rest =>
      simp only [record_trades, htrades, List.cons_append, List.head?_cons] at hfirst
      exact h.head first (by rw [htrades]; exact hfirst)
  case equity => simp
  case chain =>
    refine h.chain.append (.singleton trade) ?_
    intro latest hlatest later hlater
    cases hlater
    rw [hbefore, h.equity, Option.mem_def.mp hlatest]
    rfl
  case balanced =>
    intro other hother
    rcases List.mem_append.mp hother with hold | hnew
    · exact h.balanced other hold
    · cases List.mem_singleton.mp hnew
      exact hstored.balanced (by rw [hequity]; exact h.onGrid)
  case closes =>
    obtain ⟨earlier, hpairs, hopened⟩ := h.closes
    refine ⟨earlier ++ [position], List.rel_append hpairs (.cons hstored.closes .nil), ?_⟩
    simp [hopened, hposition]
  case span =>
    intro other hother
    rcases List.mem_append.mp hother with hold | hnew
    · exact h.span other hold
    · cases List.mem_singleton.mp hnew
      exact ⟨by rw [hentry]; exact hexit.2.2, hexit.1, hexit.2.1⟩
  case apart =>
    refine h.apart.append (.singleton trade) ?_
    intro latest hlatest later hlater
    cases hlater
    rw [hentry]
    exact hlast latest hlatest
  case held => simp

/-- Opening a position at the current candle keeps the ledger. -/
theorem Ledger.enter (h : Ledger sim now state) {action : Action} {position : Position}
    (hsim : Accepted calendar input sim) (hcandle : sim.candles[now]? = some candle)
    (hnone : state.position = none) (hopens : Opens sim state.equity action candle now position) :
    Ledger sim now (state.enter position) := by
  have hindex : sim.candleIndex position.entryTime = now := by
    rw [hopens.entryTime, candleIndex_of_getElem hsim hcandle]
  constructor
  case closes =>
    obtain ⟨earlier, hpairs, hopened⟩ := h.closes
    exact ⟨earlier, hpairs, by simp [hopened, hnone]⟩
  case held =>
    intro other hother
    cases hother
    rw [hindex]
    refine ⟨hopens.equityBefore, le_rfl, (List.getElem?_eq_some_iff.mp hcandle).1, ?_⟩
    intro trade htrade
    exact (h.span trade (List.mem_of_getLast? htrade)).2.1
  case onGrid => exact h.onGrid
  case sequence => exact h.sequence
  case sequences => exact h.sequences
  case head => exact h.head
  case equity => exact h.equity
  case chain => exact h.chain
  case balanced => exact h.balanced
  case span => exact h.span
  case apart => exact h.apart

/-- One candle keeps the ledger. -/
theorem Ledger.step (h : Ledger sim index state) (hsim : Accepted calendar input sim)
    (hcandle : sim.candles[index]? = some candle)
    (hstep : sim.candleStep state candle index = .ok next) : Ledger sim (index + 1) next := by
  obtain ⟨closed, entered, scheduled, hcloses, henters, rfl, -⟩ := candleStep_cases hstep
  have hclosed : Ledger sim index closed := by
    rcases hcloses with ⟨-, rfl⟩ | ⟨position, price, reason, trade, -, hposition, hreason, htrade, rfl⟩
    · exact h
    · have hstored := closingTrade_stored htrade
      have hexit : sim.exitIndex trade = index := by
        rw [exitIndex, if_neg (hstored.exitReason ▸ hreason), hstored.exitTime,
          candleIndex_of_getElem hsim hcandle]
      refine h.record hposition hstored ?_
      rw [hexit]
      exact ⟨le_rfl, (List.getElem?_eq_some_iff.mp hcandle).1, (h.held position hposition).2.1⟩
  have hentered : Ledger sim index entered := by
    rcases henters with rfl | ⟨action, position, -, hnone, -, -, hopens, rfl⟩
    · exact hclosed
    · exact hclosed.enter hsim hcandle hnone hopens
  exact (hentered.schedule scheduled).later

theorem loopUpTo_ledger (hsim : Accepted calendar input sim) (count : Nat)
    (h : sim.loopUpTo count = .ok state) : Ledger sim count state := by
  induction count generalizing state with
  | zero =>
    cases h
    exact .start hsim
  | succ index ih =>
    simp only [loopUpTo, bind_eq_ok] at h
    obtain ⟨before, hbefore, h⟩ := h
    split at h
    · cases h
      exact (ih hbefore).later
    · rename_i candle hcandle
      exact (ih hbefore).step hsim hcandle h

/-- The finished walk has a ledger with no open position. -/
theorem finalState_ledger (hsim : Accepted calendar input sim) (h : sim.finalState = .ok state) :
    Ledger sim sim.candles.length state ∧ state.position = none := by
  simp only [finalState, bind_eq_ok] at h
  obtain ⟨before, hbefore, h⟩ := h
  have hledger := loopUpTo_ledger hsim _ hbefore
  rcases closeAtRangeEnd_cases h with ⟨rfl, hnone | hempty⟩ |
    ⟨position, finalCandle, marketClose, exitTime, trade, hposition, -, -, htrade, rfl⟩
  · exact ⟨hledger, hnone⟩
  · refine ⟨hledger, Option.eq_none_iff_forall_not_mem.mpr fun position hposition => ?_⟩
    have := (hledger.held position hposition).2.2.1
    simp [hempty] at this
  · have hstored := closingTrade_stored htrade
    have hexit : sim.exitIndex trade = sim.candles.length - 1 := by
      rw [exitIndex, if_pos hstored.exitReason]
    have hentry := (hledger.held position hposition).2.2.1
    refine ⟨hledger.record hposition hstored ?_, rfl⟩
    rw [hexit]
    omega

/-- The chain of a result's trades, with the positions opened during the run. -/
structure LedgerChain (sim : Simulation) (opened : List Position) (trades : List Trade) : Prop where
  sequences : trades.map (·.sequence) = List.range' 1 trades.length
  firstEquity : ∀ trade ∈ trades.head?, ∃ capital,
    decimal sim.input.initialCapital = .ok capital ∧ trade.equityBeforeTrade = capital.round 2
  profit : ∀ trade ∈ trades, trade.profit.toRat
    = trade.grossProfit.toRat - trade.slippageAmount.toRat - trade.feeAmount.toRat
  equityAfter : ∀ trade ∈ trades,
    trade.equityAfterTrade.toRat = trade.equityBeforeTrade.toRat + trade.profit.toRat
  equityChain : trades.IsChain fun earlier later =>
    later.equityBeforeTrade = earlier.equityAfterTrade
  span : ∀ trade ∈ trades, sim.entryIndex trade ≤ sim.exitIndex trade ∧
    sim.exitIndex trade < sim.candles.length
  apart : trades.IsChain fun earlier later => sim.exitIndex earlier ≤ sim.entryIndex later
  closes : List.Forall₂ ClosesPosition opened trades

/-- Every finished backtest leaves a chain: the trades account for the equity step by step, hold
one position at a time, and close each opened position once. -/
theorem simulateBacktest_ledgerChain (calendar : Calendar) (input : SimulationInput)
    (result : CompletedBacktestResult) (h : simulateBacktest calendar input = .ok result) :
    ∃ sim state, prepare calendar input = .ok sim ∧ sim.finalState = .ok state ∧
      result.trades = state.trades ∧ LedgerChain sim state.opened result.trades := by
  obtain ⟨sim, state, hprepare, hfinal, htrades⟩ := simulateBacktest_ok h
  have hsim := prepare_accepted hprepare
  obtain ⟨hledger, hflat⟩ := finalState_ledger hsim hfinal
  obtain ⟨capital, hcapital, hstart⟩ := hsim.startingEquity
  refine ⟨sim, state, hprepare, hfinal, htrades, ?_⟩
  rw [htrades]
  constructor
  case sequences => exact hledger.sequences
  case firstEquity =>
    intro trade htrade
    rw [hsim.input_eq]
    exact ⟨capital, hcapital, (hledger.head trade htrade).trans hstart⟩
  case profit => exact fun trade htrade => (hledger.balanced trade htrade).profit
  case equityAfter => exact fun trade htrade => (hledger.balanced trade htrade).equityAfter
  case equityChain => exact hledger.chain
  case span => exact fun trade htrade =>
    ⟨(hledger.span trade htrade).1, (hledger.span trade htrade).2.2⟩
  case apart => exact hledger.apart
  case closes =>
    obtain ⟨earlier, hpairs, hopened⟩ := hledger.closes
    rw [hflat] at hopened
    simpa [hopened] using hpairs

theorem simulateBacktest_ledgerChain_reversal :
    ∃ result, simulateBacktest exampleCalendar (reversalInput 100) = .ok result ∧
      result.trades.length = 2 ∧
      ∃ sim state, prepare exampleCalendar (reversalInput 100) = .ok sim ∧
        sim.finalState = .ok state ∧ result.trades = state.trades ∧
        LedgerChain sim state.opened result.trades := by
  have hcount : (simulateBacktest exampleCalendar (reversalInput 100)).toOption.map
      (fun result => result.trades.length) = some 2 := by decide
  obtain ⟨result, hrun⟩ := exists_ok (x := simulateBacktest exampleCalendar (reversalInput 100))
    (by decide)
  rw [hrun] at hcount
  exact ⟨result, hrun, Option.some.inj hcount, simulateBacktest_ledgerChain _ _ _ hrun⟩

end Cryptox.Backtesting.Simulation
