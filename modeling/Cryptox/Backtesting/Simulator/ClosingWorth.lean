import Cryptox.Backtesting.Simulator.Accounting

/-!
# What a position is worth at its close

A long is sold at the exit price; a short is bought back out of twice its entry price. What a unit
fetches after the fee depends on the two prices, the side and the rates alone, and but for the
rounding of five amounts to cents it is what is left of the equity.
-/
namespace Cryptox.Backtesting.Simulation

open Cryptox.Library

variable {sim : Simulation} {position : Position} {price : ℚ} {state : SimulatorState}
  {calendar : Calendar} {input : SimulationInput}

/-- What a unit of the position fetches when the market is at `price`, after slippage and fee. -/
def unitWorth (sim : Simulation) (position : Position) (price : ℚ) : ℚ :=
  match position.signal with
  | .long => sim.exitPriceAt position price * (1 - sim.feeRate.toRat)
  | .short => 2 * position.entryPrice.toRat
      - sim.exitPriceAt position price * (1 + sim.feeRate.toRat)

/-- The most that rounding takes from a position: half a cent for each of five amounts and for the
two notionals under the fees, and half the last place of the quantity at its price. -/
def roundings (sim : Simulation) (position : Position) : ℚ :=
  (5 + 2 * sim.feeRate.toRat) / 200
    + |position.entryPrice.toRat| * (1 + sim.feeRate.toRat) / (2 * 10 ^ 8)

/-- The close fetches more than the roundings can take; the last cent of them is not needed, as
equity is in whole cents. -/
def WorthClosing (sim : Simulation) (position : Position) (price : ℚ) : Prop :=
  sim.roundings position - 1 / 100 < position.quantity.toRat * sim.unitWorth position price

instance (position : Position) (price : ℚ) : Decidable (sim.WorthClosing position price) :=
  inferInstanceAs (Decidable (_ < _))

/-- The close costs more than the equity, by more than the roundings can hide. -/
def Ruinous (sim : Simulation) (position : Position) (price : ℚ) : Prop :=
  position.quantity.toRat * sim.unitWorth position price < -sim.roundings position

/-! ## The legs of one close -/

/-- The quantity is bought for the equity, but for its last place. -/
theorem Entered.equity_near (h : Entered sim position) (hfee : 0 ≤ sim.feeRate.toRat) :
    |position.equityBeforeTrade.toRat
      - position.quantity.toRat * (position.entryPrice.toRat * (1 + sim.feeRate.toRat))|
      ≤ |position.entryPrice.toRat| * (1 + sim.feeRate.toRat) / (2 * 10 ^ 8) := by
  have hrate : 0 < 1 + sim.feeRate.toRat := by linarith
  have hcost : position.entryPrice.toRat * (1 + sim.feeRate.toRat) ≠ 0 := by
    intro hzero
    have hpos := (Decimal.toRat_pos _).mpr h.quantity_pos
    rw [h.quantity, hzero, div_zero] at hpos
    exact absurd (roundTo_nonpos le_rfl) (not_le.mpr hpos)
  generalize hunit : position.entryPrice.toRat * (1 + sim.feeRate.toRat) = unit at hcost
  have hexact : position.equityBeforeTrade.toRat
      = position.equityBeforeTrade.toRat / unit * unit := (div_mul_cancel₀ _ hcost).symm
  have hround := abs_roundTo_sub_le 8 (position.equityBeforeTrade.toRat / unit)
  rw [abs_sub_comm] at hround
  have habs : |unit| = |position.entryPrice.toRat| * (1 + sim.feeRate.toRat) := by
    rw [← hunit, abs_mul, abs_of_pos hrate]
  have hquantity : position.quantity.toRat
      = roundTo 8 (position.equityBeforeTrade.toRat / unit) := by
    rw [h.quantity, hunit]
  calc |position.equityBeforeTrade.toRat - position.quantity.toRat * unit|
      = |position.equityBeforeTrade.toRat / unit
          - roundTo 8 (position.equityBeforeTrade.toRat / unit)| * |unit| := by
        rw [← abs_mul, sub_mul, ← hexact, hquantity]
    _ ≤ 1 / 2 / 10 ^ 8 * |unit| := mul_le_mul_of_nonneg_right hround (abs_nonneg _)
    _ = |position.entryPrice.toRat| * (1 + sim.feeRate.toRat) / (2 * 10 ^ 8) := by
        rw [habs]
        ring

/-- A fee on a rounded notional, rounded again. -/
theorem fee_near {rate : ℚ} (hrate : 0 ≤ rate) (notional : ℚ) :
    |roundTo 2 (rate * roundTo 2 notional) - rate * notional| ≤ (1 + rate) / 200 := by
  have houter := abs_roundTo_sub_le 2 (rate * roundTo 2 notional)
  have hinner : |rate * roundTo 2 notional - rate * notional| ≤ rate * (1 / 2 / 10 ^ 2) := by
    rw [← mul_sub, abs_mul, abs_of_nonneg hrate]
    exact mul_le_mul_of_nonneg_left (abs_roundTo_sub_le 2 notional) hrate
  refine (abs_sub_le _ (rate * roundTo 2 notional) _).trans ?_
  linarith

/-- The side, the prices and the fee decide what is left, but for the roundings. -/
theorem equity_near_worth (h : Entered sim position) (hfee : 0 ≤ sim.feeRate.toRat)
    (hslipped : Slipped position.signal position.marketEntryPrice.toRat position.entryPrice.toRat
      price (sim.exitPriceAt position price)) :
    |position.equityBeforeTrade.toRat - sim.lossAt position price
      - position.quantity.toRat * sim.unitWorth position price| ≤ sim.roundings position := by
  have hequity := abs_le.mp (h.equity_near hfee)
  have hmove := hslipped.move position.quantity.toRat
  have hgross := abs_le.mp (abs_roundTo_sub_le 2 (signOf position.signal
    * ((price - position.marketEntryPrice.toRat) * position.quantity.toRat)))
  have hentrySlip := abs_le.mp (abs_roundTo_sub_le 2
    (|position.entryPrice.toRat - position.marketEntryPrice.toRat| * position.quantity.toRat))
  have hexitSlip := abs_le.mp (abs_roundTo_sub_le 2
    (|sim.exitPriceAt position price - price| * position.quantity.toRat))
  have hentryFee := abs_le.mp
    (fee_near hfee (position.entryPrice.toRat * position.quantity.toRat))
  have hexitFee := abs_le.mp
    (fee_near hfee (sim.exitPriceAt position price * position.quantity.toRat))
  have hworth : position.quantity.toRat * sim.unitWorth position price
      = position.quantity.toRat * (position.entryPrice.toRat * (1 + sim.feeRate.toRat))
        + signOf position.signal * (sim.exitPriceAt position price * position.quantity.toRat
          - position.entryPrice.toRat * position.quantity.toRat)
        - sim.feeRate.toRat * (position.entryPrice.toRat * position.quantity.toRat)
        - sim.feeRate.toRat * (sim.exitPriceAt position price * position.quantity.toRat) := by
    unfold unitWorth
    cases position.signal <;> simp only [signOf] <;> ring
  rw [hworth, lossAt, roundings, abs_le]
  constructor <;> linarith

theorem lossAt_onGrid (sim : Simulation) (position : Position) (price : ℚ) :
    OnGrid 2 (sim.lossAt position price) :=
  (((onGrid_roundTo 2 _).add (onGrid_roundTo 2 _)).add
    ((onGrid_roundTo 2 _).add (onGrid_roundTo 2 _))).sub (onGrid_roundTo 2 _)

/-- More than minus one cent, in whole cents, is no debt. -/
theorem nonneg_of_cents {x : ℚ} (h : OnGrid 2 x) (hx : -(1 / 100) < x) : 0 ≤ x := by
  obtain ⟨cents, rfl⟩ := h
  have hcents : (-1 : ℚ) < cents := by
    rw [lt_div_iff₀ (by norm_num)] at hx
    linarith
  have hint : -1 < cents := by exact_mod_cast hcents
  exact div_nonneg (by exact_mod_cast Int.le_of_lt_add_one (by omega)) (by norm_num)

/-! ## The closes of a run -/

theorem exitAt_market {index : Nat} {candle : Candle} {price : Decimal} {reason : ExitReason}
    (hentered : ∀ position ∈ state.position, Entered sim position)
    (hvalid : ValidCandle calendar candle)
    (h : sim.exitAt state candle index = .ok (some (position, price, reason))) :
    Entered sim position ∧ OnGrid 8 price.toRat ∧ 0 ≤ price.toRat := by
  unfold exitAt at h
  split at h
  · cases h
  · rename_i held hheld
    have hposition := hentered held hheld
    split at h
    · simp only [bind_eq_ok, pure_eq_ok, Option.some.injEq, Prod.mk.injEq] at h
      obtain ⟨marketOpen, hopen, rfl, rfl, rfl⟩ := h
      rw [Decimal.round_toRat, decimal_toRat hopen]
      exact ⟨hposition, onGrid_roundTo 8 _, roundTo_nonneg hvalid.open_pos.le⟩
    · split at h
      · simp only [bind_eq_ok, pure_eq_ok, Option.map_eq_some_iff, Prod.mk.injEq] at h
        obtain ⟨marketOpen, hopen, marketHigh, hhigh, marketLow, hlow, exit, hexit, rfl, rfl, rfl⟩ := h
        have hleaves : Leaves sim held index candle exit.1 exit.2 := protectiveExit_leaves
          ⟨Decimal.round_scale _ _, by rw [Decimal.round_toRat, decimal_toRat hopen]⟩
          ⟨Decimal.round_scale _ _, by rw [Decimal.round_toRat, decimal_toRat hhigh]⟩
          ⟨Decimal.round_scale _ _, by rw [Decimal.round_toRat, decimal_toRat hlow]⟩
          hposition hvalid hexit
        exact ⟨hposition, ⟨exit.1.units, by rw [Decimal.toRat, hleaves.scale]⟩,
          (roundTo_nonneg hvalid.low_pos.le).trans hleaves.low_le⟩
      · cases h

/-- Whatever closes a position of the run, its equity is near what the close fetches. -/
theorem everyClose_near (hsim : Accepted calendar input sim)
    (hvalid : ∀ candle ∈ sim.candles, ValidCandle calendar candle) :
    EveryClose sim fun position price => OnGrid 2 position.equityBeforeTrade.toRat ∧
      |position.equityBeforeTrade.toRat - sim.lossAt position price
        - position.quantity.toRat * sim.unitWorth position price| ≤ sim.roundings position where
  loop index state candle hstate hcandle position price reason hexit := by
    have hlength := (List.getElem?_eq_some_iff.mp hcandle).1
    have hhistory := loopUpTo_history hsim hvalid index hstate hlength.le
    obtain ⟨hentered, hgrid, hmarket⟩ := exitAt_market hhistory.entered
      (hvalid candle (List.mem_of_getElem? hcandle)) hexit
    exact ⟨hentered.equity_onGrid,
      equity_near_worth hentered hsim.feeRate (hentered.slipped hsim hvalid hgrid hmarket)⟩
  rangeEnd state position finalCandle marketClose hstate hposition hlast hclose := by
    have hhistory := loopUpTo_history hsim hvalid _ hstate le_rfl
    have hentered := hhistory.entered position hposition
    have hfinal := hvalid finalCandle (List.mem_of_getLast? hlast)
    have hmarket : 0 ≤ (marketClose.round 8).toRat := by
      rw [Decimal.round_toRat, decimal_toRat hclose]
      exact roundTo_nonneg (hfinal.low_pos.le.trans hfinal.low_le_close)
    exact ⟨hentered.equity_onGrid, equity_near_worth hentered hsim.feeRate
      (hentered.slipped hsim hvalid (Decimal.round_onGrid _ 8) hmarket)⟩

/-- A run whose closes all fetch more than the roundings leaves no debt, and a run that leaves none
has no close that costs more than the equity and the roundings. -/
theorem simulateBacktest_solvent_of_worth (calendar : Calendar) (input : SimulationInput)
    (result : CompletedBacktestResult) (h : simulateBacktest calendar input = .ok result) :
    ∃ sim, prepare calendar input = .ok sim ∧
      (EveryClose sim sim.WorthClosing → ∀ trade ∈ result.trades, Solvent trade) ∧
      ((∀ trade ∈ result.trades, Solvent trade) →
        EveryClose sim fun position price => ¬ sim.Ruinous position price) := by
  obtain ⟨sim, state, hprepare, hfinal, htrades⟩ := simulateBacktest_ok h
  have hsim := prepare_accepted hprepare
  have hnear := everyClose_near hsim (prepare_valid hprepare)
  rw [htrades]
  refine ⟨sim, hprepare, fun hworth => finalState_solvent hsim ?_ hfinal, fun hsolvent => ?_⟩
  · refine (hworth.and hnear).mono fun position price ⟨hclose, hgrid, hequity⟩ => ?_
    have hlow := (abs_le.mp hequity).1
    unfold WorthClosing at hclose
    exact sub_nonneg.mp (nonneg_of_cents (hgrid.sub (sim.lossAt_onGrid position price)) (by linarith))
  · refine ((finalState_funded hsim hfinal hsolvent).and hnear).mono
      fun position price ⟨hfunds, _, hequity⟩ hruinous => ?_
    have hhigh := (abs_le.mp hequity).2
    unfold FundsClose at hfunds
    unfold Ruinous at hruinous
    linarith

/-- A long sold at 110 and a short bought back at 100: both closes fetch more than the roundings. -/
theorem simulateBacktest_solvent_of_worth_reversal :
    ∃ result, simulateBacktest exampleCalendar (reversalInput 100) = .ok result ∧
      result.trades.map (·.equityAfterTrade) = [⟨103610, 2⟩, ⟨109169, 2⟩] ∧
      ∀ trade ∈ result.trades, Solvent trade := by
  have hequity : (simulateBacktest exampleCalendar (reversalInput 100)).toOption.map
      (fun result => result.trades.map (·.equityAfterTrade))
      = some [⟨103610, 2⟩, ⟨109169, 2⟩] := by decide
  have hworth : ((prepare exampleCalendar (reversalInput 100)).toOption.all
      fun sim => decide (EveryClose sim sim.WorthClosing)) = true := by decide +kernel
  obtain ⟨result, hrun⟩ := exists_ok (x := simulateBacktest exampleCalendar (reversalInput 100))
    (by decide)
  obtain ⟨sim, hprepare, hsolvent, -⟩ := simulateBacktest_solvent_of_worth _ _ result hrun
  rw [hrun] at hequity
  rw [hprepare] at hworth
  exact ⟨result, hrun, Option.some.inj hequity, hsolvent (of_decide_eq_true hworth)⟩

/-- A short from 106 that is closed at 400 loses more than its equity. -/
theorem simulateBacktest_debt :
    ¬ ∀ (calendar : Calendar) (input : SimulationInput) (result : CompletedBacktestResult),
      simulateBacktest calendar input = .ok result → ∀ trade ∈ result.trades, Solvent trade := by
  intro hsolvent
  have hdebt : (simulateBacktest exampleCalendar (reversalInput 400)).toOption.map
      (fun result => result.trades.all fun trade => 0 ≤ trade.equityAfterTrade.units)
      = some false := by decide
  obtain ⟨result, hrun⟩ := exists_ok (x := simulateBacktest exampleCalendar (reversalInput 400))
    (by decide)
  rw [hrun] at hdebt
  have hall : (result.trades.all fun trade => 0 ≤ trade.equityAfterTrade.units) = true := by
    refine List.all_eq_true.mpr fun trade htrade => decide_eq_true ?_
    exact (Decimal.toRat_nonneg _).mp (hsolvent _ _ result hrun trade htrade).equityAfter
  exact Bool.noConfusion (hall.symm.trans (Option.some.inj hdebt))

end Cryptox.Backtesting.Simulation
