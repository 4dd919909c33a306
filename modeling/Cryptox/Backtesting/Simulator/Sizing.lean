import Cryptox.Backtesting.Simulator.Fills

/-!
# When the size of a position is covered

The quantity is rounded half up, and so are its notional and the fee on that. Whether their sum
stays within the equity is decided by how far the exact quantity lies from the last one the equity
covers.
-/
namespace Cryptox.Backtesting.Simulation

open Cryptox.Library

/-- What entering costs: the notional in cents and the fee on it in cents. -/
def entryCost (feeRate price quantity : ℚ) : ℚ :=
  roundTo 2 (price * quantity) + roundTo 2 (feeRate * roundTo 2 (price * quantity))

/-- The cents of the dearest notional whose cost still rounds to no more than the equity. -/
def dearestNotional (equity feeRate : ℚ) : ℤ :=
  if 0 ≤ equity then ⌈(equity * 100 + 1 / 2) / (1 + feeRate)⌉ - 1
  else ⌊(equity * 100 + 1 / 2) / (1 + feeRate)⌋

/-- In units of the eighth decimal: the quantity at which the notional begins to round to more than
the dearest one. A negative price turns the order around. -/
def quantityLimit (equity price feeRate : ℚ) : ℤ :=
  ⌈(dearestNotional equity feeRate + 1 / 2) * 10 ^ 6 / price⌉

/-- The exact quantity is rounded to one that the equity covers. -/
def Covers (equity price feeRate : ℚ) : Prop :=
  if 0 < price then
    equity / (price * (1 + feeRate)) * 10 ^ 8 < quantityLimit equity price feeRate - 1 / 2
  else quantityLimit equity price feeRate - 1 / 2 ≤ equity / (price * (1 + feeRate)) * 10 ^ 8

section Thresholds

variable {equity price feeRate : ℚ} {cents notional units : ℤ}

/-- Notional and fee are one rounding of the notional with the fee on it. -/
theorem entryCost_eq (hfee : 0 ≤ feeRate) (quantity : ℚ) :
    entryCost feeRate price quantity
      = halfAway ((1 + feeRate) * halfAway (price * quantity * 100)) / 100 := by
  have hsign : 0 ≤ halfAway (price * quantity * 100) ∧
      0 ≤ feeRate * halfAway (price * quantity * 100) ∨
      halfAway (price * quantity * 100) ≤ 0 ∧
        feeRate * halfAway (price * quantity * 100) ≤ 0 := by
    rcases le_total 0 (halfAway (price * quantity * 100)) with h | h
    · exact .inl ⟨h, mul_nonneg hfee (by exact_mod_cast h)⟩
    · exact .inr ⟨h, mul_nonpos_of_nonneg_of_nonpos hfee (by exact_mod_cast h)⟩
  have hcents : feeRate * ((halfAway (price * quantity * 10 ^ 2) : ℚ) / 10 ^ 2) * 10 ^ 2
      = feeRate * halfAway (price * quantity * 10 ^ 2) := by
    rw [mul_assoc, div_mul_cancel₀ _ (by norm_num : (10 : ℚ) ^ 2 ≠ 0)]
  have hhundred : (10 : ℚ) ^ 2 = 100 := by norm_num
  rw [entryCost, roundTo, roundTo, hcents, hhundred, ← add_div, ← Int.cast_add,
    ← halfAway_intCast_add hsign, add_mul, one_mul]

theorem dearestNotional_nonneg (hfee : 0 ≤ feeRate) (hequity : 0 ≤ equity) :
    0 ≤ dearestNotional equity feeRate := by
  have hpos : 0 < (equity * 100 + 1 / 2) / (1 + feeRate) := by positivity
  rw [dearestNotional, if_pos hequity]
  have := Int.ceil_pos.mpr hpos
  omega

theorem dearestNotional_neg (hfee : 0 ≤ feeRate) (hequity : equity * 100 ≤ -1) :
    dearestNotional equity feeRate < 0 := by
  have hneg : (equity * 100 + 1 / 2) / (1 + feeRate) < 0 :=
    div_neg_of_neg_of_pos (by linarith) (by linarith)
  rw [dearestNotional, if_neg (by linarith)]
  exact Int.floor_lt.mpr (by exact_mod_cast hneg)

/-- The notionals that the equity covers are those up to the dearest. -/
theorem cost_le_iff (hfee : 0 ≤ feeRate) (hequity : equity * 100 = cents) :
    halfAway ((1 + feeRate) * notional) ≤ cents ↔ notional ≤ dearestNotional equity feeRate := by
  have hrate : 0 < 1 + feeRate := by linarith
  by_cases hsign : 0 ≤ equity
  · have hcents : 0 ≤ cents := by
      have hcast : (0 : ℚ) ≤ cents := by linarith
      exact_mod_cast hcast
    rw [halfAway_le_iff hcents, dearestNotional, if_pos hsign, Int.le_sub_one_iff, Int.lt_ceil,
      lt_div_iff₀ hrate, hequity, mul_comm]
  · have hcents : cents < 0 := by
      have hcast : (cents : ℚ) < 0 := by linarith
      exact_mod_cast hcast
    rw [halfAway_le_iff_of_neg hcents, dearestNotional, if_neg hsign, Int.le_floor,
      le_div_iff₀ hrate, hequity, mul_comm]

/-- At a positive price the quantities below the limit are covered. -/
theorem notional_le_iff_of_pos (hprice : 0 < price) (hdearest : 0 ≤ dearestNotional equity feeRate) :
    halfAway (price * (units / 10 ^ 8) * 100) ≤ dearestNotional equity feeRate ↔
      units < quantityLimit equity price feeRate := by
  have hscale : price * ((units : ℚ) / 10 ^ 8) * 100 = units * price / 10 ^ 6 := by ring
  rw [halfAway_le_iff hdearest, quantityLimit, Int.lt_ceil, lt_div_iff₀ hprice, hscale,
    div_lt_iff₀ (by norm_num)]

/-- At a negative price those from the limit on. -/
theorem notional_le_iff_of_neg (hprice : price < 0) (hdearest : dearestNotional equity feeRate < 0) :
    halfAway (price * (units / 10 ^ 8) * 100) ≤ dearestNotional equity feeRate ↔
      quantityLimit equity price feeRate ≤ units := by
  have hscale : price * ((units : ℚ) / 10 ^ 8) * 100 = units * price / 10 ^ 6 := by ring
  rw [halfAway_le_iff_of_neg hdearest, quantityLimit, Int.ceil_le, div_le_iff_of_neg hprice, hscale,
    div_le_iff₀ (by norm_num)]

/-- A position of positive quantity is covered exactly when its exact quantity is. -/
theorem entryCost_le_iff (hfee : 0 ≤ feeRate) (hgrid : OnGrid 2 equity)
    (hquantity : 0 < roundTo 8 (equity / (price * (1 + feeRate)))) :
    entryCost feeRate price (roundTo 8 (equity / (price * (1 + feeRate)))) ≤ equity ↔
      Covers equity price feeRate := by
  obtain ⟨cents, hcents⟩ := hgrid
  have hhundred : equity * 100 = cents := by
    rw [hcents]
    norm_num
  have hrate : 0 < 1 + feeRate := by linarith
  have hexact : 0 < equity / (price * (1 + feeRate)) := by
    by_contra hneg
    exact absurd (roundTo_nonpos (not_lt.mp hneg)) (not_le.mpr hquantity)
  have hcost : entryCost feeRate price (roundTo 8 (equity / (price * (1 + feeRate)))) ≤ equity ↔
      halfAway ((1 + feeRate) * halfAway (price * roundTo 8 (equity / (price * (1 + feeRate))) * 100))
        ≤ cents := by
    rw [entryCost_eq hfee, div_le_iff₀ (by norm_num), hhundred, Int.cast_le]
  rw [hcost, cost_le_iff hfee hhundred, roundTo, Covers]
  rcases div_pos_iff.mp hexact with ⟨hequity, hvalue⟩ | ⟨hequity, hvalue⟩
  · have hprice : 0 < price := (mul_pos_iff_of_pos_right hrate).mp hvalue
    have hdearest := dearestNotional_nonneg hfee hequity.le
    have hlimit : 0 < quantityLimit equity price feeRate :=
      Int.ceil_pos.mpr (div_pos (by positivity) hprice)
    rw [notional_le_iff_of_pos hprice hdearest, if_pos hprice, ← Int.le_sub_one_iff,
      halfAway_le_iff (by omega)]
    push_cast
    constructor <;> intro h <;> linarith
  · have hprice : price < 0 := by
      by_contra hpos
      exact absurd (mul_nonneg (not_lt.mp hpos) hrate.le) (not_le.mpr hvalue)
    have hdebt : equity * 100 ≤ -1 := by
      have hcast : (cents : ℚ) < 0 := by linarith
      rw [hhundred]
      exact_mod_cast Int.le_sub_one_of_lt (by exact_mod_cast hcast : cents < 0)
    have hdearest := dearestNotional_neg hfee hdebt
    have hbelow : ((dearestNotional equity feeRate : ℤ) : ℚ) ≤ -1 := by
      exact_mod_cast Int.le_sub_one_of_lt hdearest
    have hlimit : 0 < quantityLimit equity price feeRate :=
      Int.ceil_pos.mpr (div_pos_of_neg_of_neg (by linarith) hprice)
    rw [notional_le_iff_of_neg hprice hdearest, if_neg (not_lt.mpr hprice.le), le_halfAway_iff hlimit]

end Thresholds

variable {sim : Simulation} {position : Position} {index : Nat} {candle : Candle} {price : Decimal}
  {reason : ExitReason} {trade : Trade} {calendar : Calendar} {input : SimulationInput}

/-- The run reaches the candle with an action scheduled, closes what is held on the other side, and
opens the position with what is left. -/
structure Opening (sim : Simulation) (index : Nat) (action : Action) (candle : Candle)
    (closed : SimulatorState) (position : Position) : Prop where
  reached : ∃ state, sim.loopUpTo index = .ok state ∧ state.scheduled = some action ∧
    sim.warmupCandles ≤ index ∧ sim.closeReversed state action candle = .ok closed
  atCandle : sim.candles[index]? = some candle
  notLast : index + 1 < sim.candles.length
  flat : closed.position = none
  opens : sim.openPosition closed action candle index = .ok (closed.enter position)

/-- An opened position costs no more than the equity exactly when its exact quantity is covered. -/
theorem Entered.cost_le_iff (h : Entered sim position) (hsim : Accepted calendar input sim) :
    entryCost sim.feeRate.toRat position.entryPrice.toRat position.quantity.toRat
        ≤ position.equityBeforeTrade.toRat ↔
      Covers position.equityBeforeTrade.toRat position.entryPrice.toRat sim.feeRate.toRat := by
  have hquantity := (Decimal.toRat_pos _).mpr h.quantity_pos
  rw [h.quantity] at hquantity ⊢
  exact entryCost_le_iff hsim.feeRate h.equity_onGrid hquantity

theorem Opening.entered {action : Action} {closed : SimulatorState}
    (h : Opening sim index action candle closed position) (hsim : Accepted calendar input sim) :
    Entered sim position ∧ position.equityBeforeTrade = closed.equity ∧
      position.signal = side action ∧
      position.marketEntryPrice.toRat = roundTo 8 candle.openPrice.toRat := by
  obtain ⟨state, hloop, haction, hwarm, hclosed⟩ := h.reached
  have hgrid : OnGrid 2 closed.equity.toRat := by
    rcases closeReversed_cases haction hwarm hclosed with ⟨rfl, -, -⟩ | ⟨⟨-, rfl⟩ | hcloses, -, -⟩
    · exact (loopUpTo_ledger hsim index hloop).onGrid
    · exact (loopUpTo_ledger hsim index hloop).onGrid
    · obtain ⟨held, price, reason, trade, -, -, -, htrade, rfl⟩ := hcloses
      exact (closingTrade_stored htrade).onGrid
  rcases openPosition_entered h.atCandle h.notLast hgrid h.opens with
    heq | ⟨opened, heq, hentered, hindex, hequity⟩
  · have hposition := congrArg SimulatorState.position heq
    rw [h.flat] at hposition
    cases hposition
  · obtain rfl : position = opened := Option.some.inj (congrArg SimulatorState.position heq)
    obtain ⟨entry, hentry, -, hmarket⟩ := hentered.entry
    rw [hindex, h.atCandle] at hentry
    cases hentry
    refine ⟨hentered, hequity, ?_, hmarket⟩
    rcases openPosition_cases h.opens with hsame | ⟨other, hopens, hother⟩
    · have hposition := congrArg SimulatorState.position hsame
      rw [h.flat] at hposition
      cases hposition
    · obtain rfl : position = other := Option.some.inj (congrArg SimulatorState.position hother)
      exact hopens.signal

/-- The equity covers what entering costs exactly when the exact quantity lies on the covered side
of the limit: for every position a run opens, and for every trade of a result as it is recorded. -/
theorem sizing_covered_iff (calendar : Calendar) (input : SimulationInput) (sim : Simulation)
    (h : prepare calendar input = .ok sim) :
    (∀ index action candle closed position, Opening sim index action candle closed position →
      (entryCost sim.feeRate.toRat position.entryPrice.toRat position.quantity.toRat
          ≤ closed.equity.toRat ↔
        Covers closed.equity.toRat
          (sim.entryPriceAt (side action) (roundTo 8 candle.openPrice.toRat)) sim.feeRate.toRat)) ∧
    ∀ result, simulateBacktest calendar input = .ok result → ∀ trade ∈ result.trades,
      (trade.notionalEntryValue.toRat
          + roundTo 2 (sim.feeRate.toRat * trade.notionalEntryValue.toRat)
          ≤ trade.equityBeforeTrade.toRat ↔
        Covers trade.equityBeforeTrade.toRat trade.entryPrice.toRat sim.feeRate.toRat) := by
  have hsim := prepare_accepted h
  constructor
  · intro index action candle closed position hopening
    obtain ⟨hentered, hequity, hsignal, hmarket⟩ := hopening.entered hsim
    rw [← hequity, ← hsignal, ← hmarket, ← hentered.entryPrice]
    exact hentered.cost_le_iff hsim
  · intro result hrun trade htrade
    obtain ⟨other, hother, -, -, hplayed⟩ := simulateBacktest_played hrun
    cases h.symm.trans hother
    obtain ⟨position, index, candle, price, reason, hplay⟩ := hplayed trade htrade
    obtain ⟨sequence, time, hclosing, -⟩ := hplay.closing
    have hcloses := (closingTrade_stored hclosing).closes
    have hcost := hplay.entered.cost_le_iff hsim
    rw [entryCost, ← closingTrade_notional hclosing] at hcost
    rwa [hcloses.equityBefore, hcloses.entryPrice]

/-- The first open at a price where the rounded quantity costs a cent more than the capital. -/
def dearInput : SimulationInput :=
  exampleInput
    [exampleCandle "2025-01-01T00:00:00.000Z" 1010000 1010000 1010000 1010000,
      exampleCandle "2025-01-01T01:00:00.000Z" 1010000 1010000 1010000 1010000,
      exampleCandle "2025-01-01T02:00:00.000Z" 1010000 1010000 1010000 1010000]
    ["BUY"]

theorem sizing_covered_iff_dear :
    ∃ sim, prepare exampleCalendar dearInput = .ok sim ∧
      (∀ index action candle closed position, Opening sim index action candle closed position →
        (entryCost sim.feeRate.toRat position.entryPrice.toRat position.quantity.toRat
            ≤ closed.equity.toRat ↔
          Covers closed.equity.toRat
            (sim.entryPriceAt (side action) (roundTo 8 candle.openPrice.toRat)) sim.feeRate.toRat)) ∧
      ∀ result, simulateBacktest exampleCalendar dearInput = .ok result → ∀ trade ∈ result.trades,
        (trade.notionalEntryValue.toRat
            + roundTo 2 (sim.feeRate.toRat * trade.notionalEntryValue.toRat)
            ≤ trade.equityBeforeTrade.toRat ↔
          Covers trade.equityBeforeTrade.toRat trade.entryPrice.toRat sim.feeRate.toRat) := by
  obtain ⟨sim, hprepare⟩ := exists_ok (x := prepare exampleCalendar dearInput) (by decide)
  exact ⟨sim, hprepare, sizing_covered_iff exampleCalendar dearInput sim hprepare⟩

/-- What a trade's entry takes out of its equity, less that equity. -/
def overdraft (sim : Simulation) (trade : Trade) : Decimal :=
  (trade.notionalEntryValue.add ((sim.feeRate.multiply trade.notionalEntryValue).round 2)).subtract
    trade.equityBeforeTrade

theorem overdraft_toRat (sim : Simulation) (trade : Trade) : (overdraft sim trade).toRat
    = trade.notionalEntryValue.toRat + roundTo 2 (sim.feeRate.toRat * trade.notionalEntryValue.toRat)
      - trade.equityBeforeTrade.toRat := by
  simp [overdraft]

/-- A notional of 999.01 and a fee of 1.00 are bought with 1000.00. -/
theorem entry_overdraws :
    ¬ ∀ (calendar : Calendar) (input : SimulationInput) (sim : Simulation)
      (result : CompletedBacktestResult), prepare calendar input = .ok sim →
      simulateBacktest calendar input = .ok result → ∀ trade ∈ result.trades,
        trade.notionalEntryValue.toRat
            + roundTo 2 (sim.feeRate.toRat * trade.notionalEntryValue.toRat)
          ≤ trade.equityBeforeTrade.toRat := by
  intro hcovered
  obtain ⟨sim, hprepare⟩ := exists_ok (x := prepare exampleCalendar dearInput) (by decide)
  obtain ⟨result, hrun⟩ := exists_ok (x := simulateBacktest exampleCalendar dearInput) (by decide)
  have hover : ((prepare exampleCalendar dearInput).toOption.bind fun sim =>
      (simulateBacktest exampleCalendar dearInput).toOption.map fun result =>
        result.trades.map (overdraft sim)) = some [⟨1, 2⟩] := by decide
  rw [hprepare, hrun] at hover
  have htrades : result.trades.map (overdraft sim) = [⟨1, 2⟩] := Option.some.inj hover
  obtain ⟨trade, htrade⟩ := List.length_eq_one_iff.mp
    (by simpa using congrArg List.length htrades : result.trades.length = 1)
  rw [htrade, List.map_singleton, List.singleton_inj] at htrades
  have hle := hcovered _ _ sim result hprepare hrun trade (by simp [htrade])
  have hvalue := overdraft_toRat sim trade
  rw [htrades, Decimal.toRat] at hvalue
  norm_num at hvalue
  linarith

end Cryptox.Backtesting.Simulation
