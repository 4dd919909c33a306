import Cryptox.Backtesting.Simulator.NoLookAhead

/-!
# When equity stays nonnegative

A close debits the position's equity by `lossAt`. Nothing bounds that loss: the price of a short
can rise without limit, and costs are charged on top. Along a run the trades are solvent as long as
every close is funded.
-/
namespace Cryptox.Backtesting.Simulation

open Cryptox.Library (bind_eq_ok pure_eq_ok toOption_eq_some roundTo roundTo_nonpos OnGrid)

variable {sim : Simulation} {state next : SimulatorState} {candle : Candle} {index : Nat}
  {calendar : Calendar} {input : SimulationInput}

def signOf : Signal → ℚ
  | .long => 1
  | .short => -1

@[simp] theorem direction_toRat (signal : Signal) : (direction signal).toRat = signOf signal := by
  cases signal <;> simp [direction, signOf]

/-- The price received when the market is at `price`, after slippage. -/
def exitPriceAt (sim : Simulation) (position : Position) (price : ℚ) : ℚ :=
  roundTo 8 (price * (1 - signOf position.signal * sim.slippageRate.toRat))

/-- What closing at the market price costs: entry and exit slippage, entry and exit fee, less
the gross profit, each rounded to cents. -/
def lossAt (sim : Simulation) (position : Position) (price : ℚ) : ℚ :=
  let quantity := position.quantity.toRat
  let entryPrice := position.entryPrice.toRat
  let exitPrice := sim.exitPriceAt position price
  let slippage := roundTo 2 (|entryPrice - position.marketEntryPrice.toRat| * quantity)
    + roundTo 2 (|exitPrice - price| * quantity)
  let fees := roundTo 2 (sim.feeRate.toRat * roundTo 2 (entryPrice * quantity))
    + roundTo 2 (sim.feeRate.toRat * roundTo 2 (exitPrice * quantity))
  let gross := roundTo 2
    (signOf position.signal * ((price - position.marketEntryPrice.toRat) * quantity))
  slippage + fees - gross

def FundsClose (sim : Simulation) (position : Position) (price : ℚ) : Prop :=
  sim.lossAt position price ≤ position.equityBeforeTrade.toRat

/-- What every close of the run satisfies: those in the loop, and the one at the end. -/
structure EveryClose (sim : Simulation) (Q : Position → ℚ → Prop) : Prop where
  loop : ∀ index state candle, sim.loopUpTo index = .ok state → sim.candles[index]? = some candle →
    ∀ position price reason, sim.exitAt state candle index = .ok (some (position, price, reason)) →
      Q position price.toRat
  rangeEnd : ∀ state position finalCandle marketClose,
    sim.loopUpTo sim.candles.length = .ok state → state.position = some position →
    sim.candles.getLast? = some finalCandle → decimal finalCandle.close = .ok marketClose →
      Q position (marketClose.round 8).toRat

theorem EveryClose.mono {Q R : Position → ℚ → Prop} (h : EveryClose sim Q)
    (himp : ∀ position price, Q position price → R position price) : EveryClose sim R where
  loop index state candle hstate hcandle position price reason hexit :=
    himp _ _ (h.loop index state candle hstate hcandle position price reason hexit)
  rangeEnd state position finalCandle marketClose hstate hposition hlast hclose :=
    himp _ _ (h.rangeEnd state position finalCandle marketClose hstate hposition hlast hclose)

theorem EveryClose.and {Q R : Position → ℚ → Prop} (h : EveryClose sim Q) (h' : EveryClose sim R) :
    EveryClose sim fun position price => Q position price ∧ R position price where
  loop index state candle hstate hcandle position price reason hexit :=
    ⟨h.loop index state candle hstate hcandle position price reason hexit,
      h'.loop index state candle hstate hcandle position price reason hexit⟩
  rangeEnd state position finalCandle marketClose hstate hposition hlast hclose :=
    ⟨h.rangeEnd state position finalCandle marketClose hstate hposition hlast hclose,
      h'.rangeEnd state position finalCandle marketClose hstate hposition hlast hclose⟩

/-- The position that candle `index` closes, and the market price. -/
def closeOf (sim : Simulation) (index : Nat) : Option (Position × Decimal) := do
  let state ← (sim.loopUpTo index).toOption
  let candle ← sim.candles[index]?
  let exit ← (← (sim.exitAt state candle index).toOption)
  return (exit.1, exit.2.1)

/-- The position that is left at the end, and the last price. -/
def lastCloseOf (sim : Simulation) : Option (Position × Decimal) := do
  let state ← (sim.loopUpTo sim.candles.length).toOption
  let position ← state.position
  let finalCandle ← sim.candles.getLast?
  let marketClose ← (decimal finalCandle.close).toOption
  return (position, marketClose.round 8)

/-- The closes of a run can be gone through one after the other. -/
theorem everyClose_iff {Q : Position → ℚ → Prop} : EveryClose sim Q ↔
    (∀ index < sim.candles.length, ∀ close ∈ sim.closeOf index, Q close.1 close.2.toRat) ∧
      ∀ close ∈ sim.lastCloseOf, Q close.1 close.2.toRat := by
  constructor
  · intro h
    refine ⟨fun index _ close hclose => ?_, fun close hclose => ?_⟩
    · simp only [closeOf, Option.bind_eq_bind, Option.mem_def, Option.bind_eq_some_iff,
        toOption_eq_some, Option.pure_def, Option.some.injEq] at hclose
      obtain ⟨state, hstate, candle, hcandle, exit, hexit, found, rfl, rfl⟩ := hclose
      exact h.loop index state candle hstate hcandle _ _ _ hexit
    · simp only [lastCloseOf, Option.bind_eq_bind, Option.mem_def, Option.bind_eq_some_iff,
        toOption_eq_some, Option.pure_def, Option.some.injEq] at hclose
      obtain ⟨state, hstate, position, hposition, finalCandle, hlast, marketClose, hclose, rfl⟩ :=
        hclose
      exact h.rangeEnd state position finalCandle marketClose hstate hposition hlast hclose
  · rintro ⟨hloop, hend⟩
    refine ⟨fun index state candle hstate hcandle position price reason hexit => ?_,
      fun state position finalCandle marketClose hstate hposition hlast hclose => ?_⟩
    · refine hloop index (List.getElem?_eq_some_iff.mp hcandle).1 (position, price) ?_
      simp [closeOf, hstate, hcandle, hexit, Except.toOption]
    · refine hend (position, marketClose.round 8) ?_
      simp [lastCloseOf, hstate, hposition, hlast, hclose, Except.toOption]

instance {Q : Position → ℚ → Prop} [∀ position price, Decidable (Q position price)] :
    Decidable (EveryClose sim Q) :=
  decidable_of_iff _ everyClose_iff.symm

/-- A trade on positive quantity, price and equity that leaves no debt. -/
structure Solvent (trade : Trade) : Prop where
  quantity : 0 < trade.quantity.toRat
  entryPrice : 0 < trade.entryPrice.toRat
  equityBefore : 0 < trade.equityBeforeTrade.toRat
  equityAfter : 0 ≤ trade.equityAfterTrade.toRat

section Amounts

variable {position : Position} {sequence : Nat} {price : Decimal} {time : String}
  {reason : ExitReason} {trade : Trade}
  (h : sim.closingTrade position sequence price time reason = .ok trade)

include h

theorem closingTrade_slippageAmount : trade.slippageAmount.toRat
    = roundTo 2 (|position.entryPrice.toRat - position.marketEntryPrice.toRat|
        * position.quantity.toRat)
      + roundTo 2 (|sim.exitPriceAt position price.toRat - price.toRat|
        * position.quantity.toRat) := by
  simp only [closingTrade, bind_eq_ok, pure_eq_ok] at h
  obtain ⟨resultPercent, -, rfl⟩ := h
  rw [Decimal.round_add_toRat (Decimal.round_onGrid _ 2) (Decimal.round_onGrid _ 2)]
  simp [exitPriceAt]

theorem closingTrade_feeAmount : trade.feeAmount.toRat
    = roundTo 2 (sim.feeRate.toRat
        * roundTo 2 (position.entryPrice.toRat * position.quantity.toRat))
      + roundTo 2 (sim.feeRate.toRat
        * roundTo 2 (sim.exitPriceAt position price.toRat * position.quantity.toRat)) := by
  simp only [closingTrade, bind_eq_ok, pure_eq_ok] at h
  obtain ⟨resultPercent, -, rfl⟩ := h
  rw [Decimal.round_add_toRat (Decimal.round_onGrid _ 2) (Decimal.round_onGrid _ 2)]
  simp [exitPriceAt]

theorem closingTrade_grossProfit : trade.grossProfit.toRat = roundTo 2 (signOf position.signal
    * ((price.toRat - position.marketEntryPrice.toRat) * position.quantity.toRat)) := by
  simp only [closingTrade, bind_eq_ok, pure_eq_ok] at h
  obtain ⟨resultPercent, -, rfl⟩ := h
  simp

theorem closingTrade_profit : trade.profit.toRat
    = trade.grossProfit.toRat - trade.slippageAmount.toRat - trade.feeAmount.toRat := by
  simp only [closingTrade, bind_eq_ok, pure_eq_ok] at h
  obtain ⟨resultPercent, -, rfl⟩ := h
  dsimp only
  rw [Decimal.round_subtract_subtract_toRat (Decimal.round_onGrid _ 2) (Decimal.round_onGrid _ 2)
    (Decimal.round_onGrid _ 2)]

theorem closingTrade_exitPrice :
    trade.exitPrice.toRat = sim.exitPriceAt position price.toRat := by
  simp only [closingTrade, bind_eq_ok, pure_eq_ok] at h
  obtain ⟨resultPercent, -, rfl⟩ := h
  simp [exitPriceAt]

theorem closingTrade_notional : trade.notionalEntryValue.toRat
    = roundTo 2 (position.entryPrice.toRat * position.quantity.toRat) := by
  simp only [closingTrade, bind_eq_ok, pure_eq_ok] at h
  obtain ⟨resultPercent, -, rfl⟩ := h
  simp

end Amounts

/-- Closing moves the position's equity by exactly its loss. -/
theorem closingTrade_equityAfter {position : Position} {sequence : Nat} {price : Decimal}
    {time : String} {reason : ExitReason} {trade : Trade}
    (hgrid : OnGrid 2 position.equityBeforeTrade.toRat)
    (h : sim.closingTrade position sequence price time reason = .ok trade) :
    trade.equityAfterTrade.toRat
      = position.equityBeforeTrade.toRat - sim.lossAt position price.toRat := by
  have hstored := closingTrade_stored h
  rw [(hstored.balanced hgrid).equityAfter, closingTrade_profit h, hstored.closes.equityBefore,
    closingTrade_slippageAmount h, closingTrade_feeAmount h, closingTrade_grossProfit h, lossAt]
  ring

/-- A positive quantity bought with nonnegative equity needs positive equity and price. -/
theorem Opens.positive {equity : Decimal} {action : Action} {position : Position}
    (h : Opens sim equity action candle index position) (hsim : Accepted calendar input sim)
    (hequity : 0 ≤ equity.toRat) : 0 < equity.toRat ∧ 0 < position.entryPrice.toRat := by
  have hquantity := (Decimal.toRat_pos _).mpr h.quantity_pos
  rw [h.quantity] at hquantity
  have hratio : 0 < equity.toRat / (position.entryPrice.toRat * (1 + sim.feeRate.toRat)) := by
    by_contra hneg
    exact absurd (roundTo_nonpos (not_lt.mp hneg)) (not_le.mpr hquantity)
  have hfee : 0 < 1 + sim.feeRate.toRat := by
    have := hsim.feeRate
    linarith
  rcases div_pos_iff.mp hratio with ⟨hpos, hprice⟩ | ⟨hneg, -⟩
  · exact ⟨hpos, (mul_pos_iff_of_pos_right hfee).mp hprice⟩
  · exact absurd hequity (not_le.mpr hneg)

/-- What funded closes preserve. -/
structure SolventState (state : SimulatorState) : Prop where
  equity : 0 ≤ state.equity.toRat
  held : ∀ position ∈ state.position, 0 < position.quantity.toRat ∧
    0 < position.entryPrice.toRat ∧ 0 < position.equityBeforeTrade.toRat
  trades : ∀ trade ∈ state.trades, Solvent trade

theorem SolventState.record (h : SolventState state) (hledger : Ledger sim index state)
    {position : Position} {sequence : Nat} {price : Decimal} {time : String} {reason : ExitReason}
    {trade : Trade} (hposition : state.position = some position)
    (htrade : sim.closingTrade position sequence price time reason = .ok trade)
    (hfunds : FundsClose sim position price.toRat) : SolventState (state.record trade) := by
  have hgrid : OnGrid 2 position.equityBeforeTrade.toRat := by
    rw [(hledger.held position hposition).1]
    exact hledger.onGrid
  have hafter : 0 ≤ trade.equityAfterTrade.toRat := by
    rw [closingTrade_equityAfter hgrid htrade]
    exact sub_nonneg.mpr hfunds
  have hcloses := (closingTrade_stored htrade).closes
  obtain ⟨hquantity, hprice, hequity⟩ := h.held position hposition
  refine ⟨hafter, by simp, fun other hother => ?_⟩
  rcases List.mem_append.mp hother with hold | hnew
  · exact h.trades other hold
  · cases List.mem_singleton.mp hnew
    exact ⟨by rwa [hcloses.quantity], by rwa [hcloses.entryPrice], by rwa [hcloses.equityBefore],
      hafter⟩

theorem SolventState.step (h : SolventState state) (hledger : Ledger sim index state)
    (hsim : Accepted calendar input sim)
    (hfunds : ∀ position price reason,
      sim.exitAt state candle index = .ok (some (position, price, reason)) →
      FundsClose sim position price.toRat)
    (hstep : sim.candleStep state candle index = .ok next) : SolventState next := by
  obtain ⟨closed, entered, scheduled, hcloses, henters, rfl, -⟩ := candleStep_cases hstep
  have hclosed : SolventState closed := by
    rcases hcloses with ⟨-, rfl⟩ |
      ⟨position, price, reason, trade, hexit, hposition, -, htrade, rfl⟩
    · exact h
    · exact h.record hledger hposition htrade (hfunds position price reason hexit)
  rcases henters with rfl | ⟨action, position, -, -, -, -, hopens, rfl⟩
  · exact ⟨hclosed.equity, hclosed.held, hclosed.trades⟩
  · obtain ⟨hequity, hprice⟩ := hopens.positive hsim hclosed.equity
    refine ⟨hclosed.equity, fun other hother => ?_, hclosed.trades⟩
    cases hother
    exact ⟨(Decimal.toRat_pos _).mpr hopens.quantity_pos, hprice, by rwa [hopens.equityBefore]⟩

theorem loopUpTo_solvent (hsim : Accepted calendar input sim)
    (hfunded : EveryClose sim sim.FundsClose) (count : Nat) (h : sim.loopUpTo count = .ok state) :
    SolventState state := by
  induction count generalizing state with
  | zero =>
    cases h
    exact ⟨hsim.equity_nonneg, by simp [initial], by simp [initial]⟩
  | succ index ih =>
    simp only [loopUpTo, bind_eq_ok] at h
    obtain ⟨before, hbefore, h⟩ := h
    split at h
    · cases h
      exact ih hbefore
    · rename_i candle hcandle
      exact (ih hbefore).step (loopUpTo_ledger hsim index hbefore) hsim
        (hfunded.loop index before candle hbefore hcandle) h

/-- In a run whose closes are all funded, every trade is solvent. -/
theorem finalState_solvent (hsim : Accepted calendar input sim)
    (hfunded : EveryClose sim sim.FundsClose) (h : sim.finalState = .ok state) :
    ∀ trade ∈ state.trades, Solvent trade := by
  simp only [finalState, bind_eq_ok] at h
  obtain ⟨ended, hended, h⟩ := h
  have hsolvent := loopUpTo_solvent hsim hfunded _ hended
  rcases closeAtRangeEnd_cases h with ⟨rfl, -⟩ |
    ⟨position, finalCandle, marketClose, exitTime, trade, hposition, hlast, hclose, htrade, rfl⟩
  · exact hsolvent.trades
  · exact (hsolvent.record (loopUpTo_ledger hsim _ hended) hposition htrade
      (hfunded.rangeEnd ended position finalCandle marketClose hended hposition hlast hclose)).trades

/-- A close whose trade is solvent was funded. -/
theorem fundsClose_of_solvent {position : Position} {sequence : Nat} {price : Decimal}
    {time : String} {reason : ExitReason} {trade : Trade} (hledger : Ledger sim index state)
    (hposition : state.position = some position)
    (htrade : sim.closingTrade position sequence price time reason = .ok trade)
    (hsolvent : Solvent trade) : FundsClose sim position price.toRat := by
  have hgrid : OnGrid 2 position.equityBeforeTrade.toRat := by
    rw [(hledger.held position hposition).1]
    exact hledger.onGrid
  have hafter := hsolvent.equityAfter
  rw [closingTrade_equityAfter hgrid htrade] at hafter
  exact sub_nonneg.mp hafter

/-- Every trade of the loop is among the trades of the finished walk. -/
theorem finalState_funded (hsim : Accepted calendar input sim) (h : sim.finalState = .ok state)
    (hsolvent : ∀ trade ∈ state.trades, Solvent trade) : EveryClose sim sim.FundsClose := by
  simp only [finalState, bind_eq_ok] at h
  obtain ⟨ended, hended, h⟩ := h
  have hkept : ∀ trade ∈ ended.trades, trade ∈ state.trades := by
    rcases closeAtRangeEnd_cases h with ⟨rfl, -⟩ |
      ⟨position, candle, close, time, trade, -, -, -, -, rfl⟩
    · exact fun trade htrade => htrade
    · exact fun other hother => List.mem_append_left _ hother
  constructor
  · intro index before candle hbefore hcandle position price reason hexit
    have hlt := (List.getElem?_eq_some_iff.mp hcandle).1
    have hlength : sim.candles.length = index + 1 + (sim.candles.length - (index + 1)) := by omega
    rw [hlength] at hended
    obtain ⟨after, new, hafter, htrades, -⟩ := loopUpTo_trades hsim (index + 1) _ hended
    simp only [loopUpTo, bind_eq_ok, hbefore, hcandle] at hafter
    obtain ⟨_, hok, hstep⟩ := hafter
    cases hok
    obtain ⟨closed, entered, scheduled, hcloses, henters, rfl, -⟩ := candleStep_cases hstep
    have hentered : entered.trades = closed.trades := by
      rcases henters with rfl | ⟨action, opened, -, -, -, -, -, rfl⟩ <;> rfl
    rcases hcloses with ⟨hnone, -⟩ |
      ⟨position', price', reason', trade, hsome, hposition, -, htrade, rfl⟩
    · rw [hexit] at hnone
      cases hnone
    · rw [hexit] at hsome
      cases hsome
      refine fundsClose_of_solvent (loopUpTo_ledger hsim index hbefore) hposition htrade
        (hsolvent trade (hkept trade ?_))
      rw [htrades]
      exact List.mem_append_left _ (by rw [hentered]; simp)
  · intro before position finalCandle marketClose hbefore hposition hlast hclose
    rw [hended] at hbefore
    cases hbefore
    rcases closeAtRangeEnd_cases h with ⟨-, hnone | hempty⟩ |
      ⟨position', finalCandle', marketClose', exitTime, trade, hposition', hlast', hclose', htrade,
        rfl⟩
    · rw [hposition] at hnone
      cases hnone
    · rw [hempty] at hlast
      cases hlast
    · cases hposition.symm.trans hposition'
      cases hlast.symm.trans hlast'
      cases hclose.symm.trans hclose'
      exact fundsClose_of_solvent (loopUpTo_ledger hsim _ hended) hposition htrade
        (hsolvent trade (by simp))

end Cryptox.Backtesting.Simulation
