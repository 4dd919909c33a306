import Cryptox.Backtesting.Simulator.Fills

/-!
# The two accounts of a trade

The simulator takes slippage out of the move of the market; the executed notionals already contain
it. As slippage is never favourable, the two agree but for the rounding of their five legs.
-/
namespace Cryptox.Backtesting.Simulation

open Cryptox.Library

variable {sim : Simulation} {position : Position} {index : Nat} {candle : Candle} {price : Decimal}
  {reason : ExitReason} {trade : Trade} {calendar : Calendar} {input : SimulationInput}

theorem signOf_mul_roundTo_onGrid (signal : Signal) {k : Nat} {x : ℚ} (h : OnGrid k x) :
    OnGrid k (signOf signal * x) := by
  obtain ⟨m, rfl⟩ := h
  cases signal with
  | long => exact ⟨m, by rw [signOf, one_mul]⟩
  | short => exact ⟨-m, by rw [signOf]; push_cast; ring⟩

/-- The market's move less the slippage of both fills is the move of the executed prices. -/
theorem Slipped.move {signal : Signal} {marketEntry entry marketExit exit : ℚ}
    (h : Slipped signal marketEntry entry marketExit exit) (quantity : ℚ) :
    signOf signal * ((marketExit - marketEntry) * quantity) - |entry - marketEntry| * quantity
      - |exit - marketExit| * quantity = signOf signal * (exit * quantity - entry * quantity) := by
  cases signal with
  | long =>
    obtain ⟨hentry, hexit⟩ := h.long rfl
    rw [abs_of_nonneg (sub_nonneg.mpr hentry), abs_of_nonpos (sub_nonpos.mpr hexit), signOf]
    ring
  | short =>
    obtain ⟨hentry, hexit⟩ := h.short rfl
    rw [abs_of_nonpos (sub_nonpos.mpr hentry), abs_of_nonneg (sub_nonneg.mpr hexit), signOf]
    ring

/-- Five legs, each rounded to cents, are within two cents of their unrounded balance. -/
theorem five_legs {signal : Signal} {gross entrySlip exitSlip entry exit : ℚ}
    (h : gross - entrySlip - exitSlip = signOf signal * (exit - entry)) :
    |roundTo 2 gross - roundTo 2 entrySlip - roundTo 2 exitSlip
      - signOf signal * (roundTo 2 exit - roundTo 2 entry)| ≤ 2 / 100 := by
  have hgrid : OnGrid 2 (roundTo 2 gross - roundTo 2 entrySlip - roundTo 2 exitSlip
      - signOf signal * (roundTo 2 exit - roundTo 2 entry)) :=
    (((onGrid_roundTo 2 gross).sub (onGrid_roundTo 2 entrySlip)).sub (onGrid_roundTo 2 exitSlip)).sub
      (signOf_mul_roundTo_onGrid signal ((onGrid_roundTo 2 exit).sub (onGrid_roundTo 2 entry)))
  have hgross := abs_le.mp (abs_roundTo_sub_le 2 gross)
  have hentrySlip := abs_le.mp (abs_roundTo_sub_le 2 entrySlip)
  have hexitSlip := abs_le.mp (abs_roundTo_sub_le 2 exitSlip)
  have hentry := abs_le.mp (abs_roundTo_sub_le 2 entry)
  have hexit := abs_le.mp (abs_roundTo_sub_le 2 exit)
  -- five half cents are less than three cents, and the difference is in whole cents
  have hlt : |roundTo 2 gross - roundTo 2 entrySlip - roundTo 2 exitSlip
      - signOf signal * (roundTo 2 exit - roundTo 2 entry)| < ((2 : ℤ) + 1) / 10 ^ 2 := by
    rw [abs_lt]
    push_cast
    cases signal <;> simp only [signOf] at h ⊢ <;> constructor <;> linarith
  have hle := hgrid.abs_le hlt
  norm_num at hle ⊢
  exact hle

/-- What the trade earned by its executed notionals, each in cents. -/
def executedProfit (trade : Trade) : ℚ :=
  signOf trade.signal * (roundTo 2 (trade.exitPrice.toRat * trade.quantity.toRat)
    - roundTo 2 (trade.entryPrice.toRat * trade.quantity.toRat)) - trade.feeAmount.toRat

theorem Played.accounts (h : Played sim position index candle price reason trade)
    (hsim : Accepted calendar input sim)
    (hvalid : ∀ candle ∈ sim.candles, ValidCandle calendar candle) :
    |trade.profit.toRat - executedProfit trade| ≤ 2 / 100 := by
  have hslipped := h.slipped hsim hvalid
  obtain ⟨-, -, -, hcloses, hprice, hexitPrice⟩ := h.placed hsim
  obtain ⟨sequence, time, htrade, -⟩ := h.closing
  have hlegs := five_legs (hslipped.move trade.quantity.toRat)
  have hprofit : trade.profit.toRat - executedProfit trade
      = roundTo 2 (signOf trade.signal * ((trade.marketExitPrice.toRat
          - trade.marketEntryPrice.toRat) * trade.quantity.toRat))
        - roundTo 2 (|trade.entryPrice.toRat - trade.marketEntryPrice.toRat| * trade.quantity.toRat)
        - roundTo 2 (|trade.exitPrice.toRat - trade.marketExitPrice.toRat| * trade.quantity.toRat)
        - signOf trade.signal * (roundTo 2 (trade.exitPrice.toRat * trade.quantity.toRat)
          - roundTo 2 (trade.entryPrice.toRat * trade.quantity.toRat)) := by
    rw [executedProfit, closingTrade_profit htrade, closingTrade_grossProfit htrade,
      closingTrade_slippageAmount htrade, hexitPrice, hprice, hcloses.signal, hcloses.quantity,
      hcloses.entryPrice, hcloses.marketEntryPrice]
    ring
  rw [hprofit]
  exact hlegs

/-- The recorded profit and the executed notionals less the fee differ by two cents at most. -/
theorem simulateBacktest_accounts (calendar : Calendar) (input : SimulationInput)
    (result : CompletedBacktestResult) (h : simulateBacktest calendar input = .ok result) :
    ∀ trade ∈ result.trades, |trade.profit.toRat - executedProfit trade| ≤ 2 / 100 := by
  obtain ⟨sim, -, hsim, hvalid, hplayed⟩ := simulateBacktest_played h
  intro trade htrade
  obtain ⟨position, index, candle, price, reason, hplay⟩ := hplayed trade htrade
  exact hplay.accounts hsim hvalid

theorem simulateBacktest_accounts_protected :
    ∃ result, simulateBacktest exampleCalendar protectedInput = .ok result ∧
      result.trades.map (·.exitReason) = [.strategyClose, .stopLoss] ∧
      ∀ trade ∈ result.trades, |trade.profit.toRat - executedProfit trade| ≤ 2 / 100 := by
  have hexits := protectedInput_exits
  obtain ⟨result, hrun⟩ := exists_ok (x := simulateBacktest exampleCalendar protectedInput)
    (by decide)
  rw [hrun] at hexits
  exact ⟨result, hrun, Option.some.inj hexits, simulateBacktest_accounts _ _ _ hrun⟩

end Cryptox.Backtesting.Simulation
