import Cryptox.Backtesting.Simulator.Sizing

/-!
# When a run returns

The checks before the loop leave three things that can still abort it: an entry price that is
rounded to nought, a protective level that is, and a close time past the last date. Everything else
the loop computes is defined.
-/
namespace Cryptox.Backtesting.Simulation

open Cryptox.Library

variable {sim : Simulation} {state next : SimulatorState} {candle : Candle} {index : Nat}
  {calendar : Calendar} {input : SimulationInput}

/-! ## Opening -/

def quantityAt (sim : Simulation) (equity price : ℚ) : ℚ :=
  roundTo 8 (equity / (price * (1 + sim.feeRate.toRat)))

def stopLossAt (signal : Signal) (price percent : ℚ) : ℚ :=
  roundTo 8 (price * (1 - signOf signal * roundTo 20 (percent / 100)))

def takeProfitAt (signal : Signal) (price percent : ℚ) : ℚ :=
  roundTo 8 (price * (1 + signOf signal * roundTo 20 (percent / 100)))

/-- There is a price to divide by, and what is bought has levels above nought. -/
structure Tradable (sim : Simulation) (equity price : ℚ) (signal : Signal) : Prop where
  entryPrice : sim.entryPriceAt signal price ≠ 0
  stopLoss : 0 < sim.quantityAt equity (sim.entryPriceAt signal price) →
    ∀ percent ∈ sim.input.stopLossPercent, 0 < stopLossAt signal price percent.toRat
  takeProfit : 0 < sim.quantityAt equity (sim.entryPriceAt signal price) →
    ∀ percent ∈ sim.input.takeProfitPercent, 0 < takeProfitAt signal price percent.toRat

theorem assertPositivePrice_ok_iff {price : Option Decimal} :
    assertPositivePrice price = .ok () ↔ ∀ level ∈ price, 0 < level.toRat := by
  cases price with
  | none => simp [assertPositivePrice]
  | some level => simp [assertPositivePrice, throwIf_eq_ok, Decimal.toRat_pos]

theorem rate_ok {percent : JsNumber} (h : percent.isFinite = true) :
    ∃ shown rate, decimal percent = .ok shown ∧
      shown.divide (Decimal.fromInteger 100) 20 = .ok rate ∧
      rate.toRat = roundTo 20 (percent.toRat / 100) := by
  obtain ⟨shown, hshown, hvalue⟩ := decimal_ok h
  have hhundred : (Decimal.fromInteger 100).units ≠ 0 := by decide
  obtain ⟨rate, hrate, hrat⟩ := Decimal.divide_eq_ok shown 20 hhundred
  refine ⟨shown, rate, hshown, hrate, ?_⟩
  rw [hrat, hvalue, Decimal.fromInteger_toRat]
  norm_num

theorem stopLossPrice_ok (signal : Signal) (market : Decimal)
    (h : ∀ percent ∈ sim.input.stopLossPercent, percent.isFinite = true) :
    ∃ stopLoss, sim.stopLossPrice (direction signal) market = .ok stopLoss ∧
      ((∀ level ∈ stopLoss, 0 < level.toRat) ↔
        ∀ percent ∈ sim.input.stopLossPercent, 0 < stopLossAt signal market.toRat percent.toRat) := by
  unfold stopLossPrice
  cases hpercent : sim.input.stopLossPercent with
  | none => exact ⟨none, rfl, by simp⟩
  | some percent =>
    obtain ⟨shown, rate, hshown, hrate, hvalue⟩ := rate_ok (h percent hpercent)
    simp only [hshown, ok_bind, hrate]
    refine ⟨_, rfl, ?_⟩
    simp [stopLossAt, hvalue]

theorem takeProfitPrice_ok (signal : Signal) (market : Decimal)
    (h : ∀ percent ∈ sim.input.takeProfitPercent, percent.isFinite = true) :
    ∃ takeProfit, sim.takeProfitPrice (direction signal) market = .ok takeProfit ∧
      ((∀ level ∈ takeProfit, 0 < level.toRat) ↔ ∀ percent ∈ sim.input.takeProfitPercent,
        0 < takeProfitAt signal market.toRat percent.toRat) := by
  unfold takeProfitPrice
  cases hpercent : sim.input.takeProfitPercent with
  | none => exact ⟨none, rfl, by simp⟩
  | some percent =>
    obtain ⟨shown, rate, hshown, hrate, hvalue⟩ := rate_ok (h percent hpercent)
    simp only [hshown, ok_bind, hrate]
    refine ⟨_, rfl, ?_⟩
    simp [takeProfitAt, hvalue]

/-- What the loop is handed by `prepare`. -/
structure Checked (calendar : Calendar) (sim : Simulation) : Prop where
  feeRate : 0 ≤ sim.feeRate.toRat
  candles : ∀ candle ∈ sim.candles, ValidCandle calendar candle
  stopLoss : ∀ percent ∈ sim.input.stopLossPercent, percent.isFinite = true
  takeProfit : ∀ percent ∈ sim.input.takeProfitPercent, percent.isFinite = true

theorem openPosition_returns_iff (h : Checked calendar sim) (state : SimulatorState) (index : Nat)
    (hcandle : candle ∈ sim.candles) (action : Action) :
    (∃ next, sim.openPosition state action candle index = .ok next) ↔
      sim.Tradable state.equity.toRat (roundTo 8 candle.openPrice.toRat) (side action) := by
  obtain ⟨shown, hshown, hopen⟩ := decimal_ok (h.candles candle hcandle).openFinite
  have hmarket : (shown.round 8).toRat = roundTo 8 candle.openPrice.toRat := by
    rw [Decimal.round_toRat, hopen]
  obtain ⟨stopLoss, hstop, hstopPos⟩ := stopLossPrice_ok (side action) (shown.round 8) h.stopLoss
  obtain ⟨takeProfit, htake, htakePos⟩ :=
    takeProfitPrice_ok (side action) (shown.round 8) h.takeProfit
  have hfee : (1 : ℚ) + sim.feeRate.toRat ≠ 0 := by
    have := h.feeRate
    positivity
  rw [← hmarket]
  simp only [openPosition, hshown, ok_bind]
  generalize hentry : ((shown.round 8).multiply ((Decimal.fromInteger 1).add
    ((direction (side action)).multiply sim.slippageRate))).round 8 = entry
  have hprice : entry.toRat = sim.entryPriceAt (side action) (shown.round 8).toRat := by
    simp [← hentry, entryPriceAt]
  have hdivisor : (entry.multiply ((Decimal.fromInteger 1).add sim.feeRate)).toRat
      = sim.entryPriceAt (side action) (shown.round 8).toRat * (1 + sim.feeRate.toRat) := by
    simp [hprice]
  by_cases hzero : (entry.multiply ((Decimal.fromInteger 1).add sim.feeRate)).units = 0
  · have hnone : sim.entryPriceAt (side action) (shown.round 8).toRat = 0 := by
      have hproduct := (Decimal.toRat_eq_zero _).mpr hzero
      rw [hdivisor] at hproduct
      exact (mul_eq_zero.mp hproduct).resolve_right hfee
    rw [Decimal.divide_zero hzero, error_bind]
    constructor
    · rintro ⟨_, hnext⟩
      cases hnext
    · intro htradable
      exact absurd hnone htradable.entryPrice
  · obtain ⟨quantity, hquantity, hvalue⟩ := Decimal.divide_eq_ok state.equity 8 hzero
    rw [hdivisor, ← quantityAt] at hvalue
    have hnonzero : sim.entryPriceAt (side action) (shown.round 8).toRat ≠ 0 := by
      intro hnone
      rw [hnone, zero_mul, Decimal.toRat_eq_zero] at hdivisor
      exact hzero hdivisor
    simp only [hquantity, ok_bind]
    split
    · rename_i hquantity
      have hnot : ¬ 0 < quantity.toRat := by
        rw [Decimal.toRat_pos]
        omega
      rw [hvalue] at hnot
      exact iff_of_true ⟨_, rfl⟩ ⟨hnonzero, fun hpos => absurd hpos hnot, fun hpos => absurd hpos hnot⟩
    · rename_i hquantity
      have hpos : 0 < quantity.toRat := by
        rw [Decimal.toRat_pos]
        omega
      rw [hvalue] at hpos
      simp only [hstop, htake, ok_bind]
      constructor
      · rintro ⟨next, hnext⟩
        obtain ⟨⟨⟩, hstopLevel, hrest⟩ := bind_eq_ok.mp hnext
        obtain ⟨⟨⟩, htakeLevel, -⟩ := bind_eq_ok.mp hrest
        exact ⟨hnonzero, fun _ => hstopPos.mp (assertPositivePrice_ok_iff.mp hstopLevel),
          fun _ => htakePos.mp (assertPositivePrice_ok_iff.mp htakeLevel)⟩
      · intro htradable
        rw [assertPositivePrice_ok_iff.mpr (hstopPos.mpr (htradable.stopLoss hpos)),
          assertPositivePrice_ok_iff.mpr (htakePos.mpr (htradable.takeProfit hpos))]
        exact ⟨_, rfl⟩

/-! ## Closing -/

/-- A position was bought with something. -/
def Backed (state : SimulatorState) : Prop :=
  ∀ position ∈ state.position, position.equityBeforeTrade.units ≠ 0

theorem Opens.backed {equity : Decimal} {action : Action} {position : Position}
    (h : Opens sim equity action candle index position) :
    position.equityBeforeTrade.units ≠ 0 := by
  intro hzero
  have hquantity := (Decimal.toRat_pos _).mpr h.quantity_pos
  rw [h.quantity, ← h.equityBefore, (Decimal.toRat_eq_zero _).mpr hzero, zero_div] at hquantity
  exact hquantity.not_ge (roundTo_nonpos le_rfl)

theorem closingTrade_returns (sim : Simulation) {position : Position}
    (h : position.equityBeforeTrade.units ≠ 0)
    (sequence : Nat) (price : Decimal) (time : String) (reason : ExitReason) :
    ∃ trade, sim.closingTrade position sequence price time reason = .ok trade := by
  refine exists_ok ?_
  unfold closingTrade
  dsimp only
  generalize Decimal.multiply _ (Decimal.fromInteger 100) = scaled
  obtain ⟨percent, hpercent, -⟩ := Decimal.divide_eq_ok scaled 8 h
  rw [hpercent]
  rfl

theorem closePosition_returns (sim : Simulation) (h : Backed state) (price : Decimal)
    (time : String) (reason : ExitReason) :
    ∃ next, sim.closePosition state price time reason = .ok next ∧
      Backed next := by
  unfold closePosition
  split
  · exact ⟨state, rfl, h⟩
  · rename_i position hposition
    obtain ⟨trade, htrade⟩ := closingTrade_returns sim (h position hposition)
      (state.sequence + 1) price time reason
    rw [htrade]
    exact ⟨_, rfl, by simp [Backed]⟩

theorem closeReversed_returns (sim : Simulation) (h : Backed state)
    (hvalid : ValidCandle calendar candle) (action : Action) :
    ∃ closed, sim.closeReversed state action candle = .ok closed ∧
      Backed closed := by
  obtain ⟨marketOpen, hopen, -⟩ := decimal_ok hvalid.openFinite
  unfold closeReversed
  split
  · exact ⟨state, rfl, h⟩
  · split
    · exact ⟨state, rfl, h⟩
    · rw [hopen, ok_bind]
      exact closePosition_returns sim h _ _ _

theorem applyProtectiveExit_returns (sim : Simulation) (index : Nat) (h : Backed state)
    (hvalid : ValidCandle calendar candle) :
    ∃ next, sim.applyProtectiveExit state candle index = .ok next ∧ Backed next := by
  obtain ⟨marketOpen, hopen, -⟩ := decimal_ok hvalid.openFinite
  obtain ⟨marketHigh, hhigh, -⟩ := decimal_ok hvalid.highFinite
  obtain ⟨marketLow, hlow, -⟩ := decimal_ok hvalid.lowFinite
  unfold applyProtectiveExit
  split
  · exact ⟨state, rfl, h⟩
  · split
    · simp only [hopen, hhigh, hlow, ok_bind]
      split
      · exact ⟨state, rfl, h⟩
      · exact closePosition_returns sim h _ _ _
    · exact ⟨state, rfl, h⟩

/-! ## One candle -/

/-- Nothing of the candle aborts: neither the opening it executes nor the close time it reads. -/
structure Clear (sim : Simulation) (state : SimulatorState) (candle : Candle) (index : Nat) :
    Prop where
  opening : ∀ action closed, state.scheduled = some action → sim.warmupCandles ≤ index →
    sim.closeReversed state action candle = .ok closed → index + 1 < sim.candles.length →
    closed.position = none →
      sim.Tradable closed.equity.toRat (roundTo 8 candle.openPrice.toRat) (side action)
  closeTime : sim.input.sentimentAt.isSome → sim.warmupCandles ≤ index →
    index + 1 < sim.candles.length →
      ∃ time, candleCloseTime sim.calendar candle.timestamp sim.input.timeframe = .ok time

/-- The strategy answers BUY, SELL or HOLD to everything, and the sentiment reader answers. -/
structure Responds (input : SimulationInput) : Prop where
  strategy : ∀ context, ∃ text ∈ ["BUY", "SELL", "HOLD"], input.strategy.analyze context = .ok text
  sentiment : ∀ lookup ∈ input.sentimentAt, ∀ time, ∃ sentiment, lookup time = .ok sentiment

theorem openWhenFlat_returns_iff (h : Checked calendar sim) (state : SimulatorState) (index : Nat)
    (hcandle : candle ∈ sim.candles) (action : Action) :
    (∃ entered, sim.openWhenFlat state action candle index = .ok entered) ↔
      (index + 1 < sim.candles.length → state.position = none →
        sim.Tradable state.equity.toRat (roundTo 8 candle.openPrice.toRat) (side action)) := by
  unfold openWhenFlat
  split
  · rename_i hflat
    rw [Bool.and_eq_true, Option.isNone_iff_eq_none, decide_eq_true_eq] at hflat
    rw [openPosition_returns_iff h state index hcandle action]
    exact ⟨fun htradable _ _ => htradable, fun htradable => htradable hflat.2 hflat.1⟩
  · rename_i hheld
    rw [Bool.and_eq_true, Option.isNone_iff_eq_none, decide_eq_true_eq] at hheld
    exact iff_of_true ⟨state, rfl⟩ fun hlast hnone => absurd ⟨hnone, hlast⟩ hheld

theorem executeScheduled_returns_iff (h : Checked calendar sim) (index : Nat)
    (hbacked : Backed state) (hcandle : candle ∈ sim.candles) :
    (∃ executed, sim.executeScheduled state candle index = .ok executed) ↔
      ∀ action closed, state.scheduled = some action → sim.warmupCandles ≤ index →
        sim.closeReversed state action candle = .ok closed → index + 1 < sim.candles.length →
        closed.position = none →
          sim.Tradable closed.equity.toRat (roundTo 8 candle.openPrice.toRat) (side action) := by
  unfold executeScheduled
  cases haction : state.scheduled with
  | none => simp
  | some action =>
    by_cases hwarm : index < sim.warmupCandles
    · simp [hwarm]
    · obtain ⟨closed, hclosed, -⟩ :=
        closeReversed_returns sim hbacked (h.candles candle hcandle) action
      dsimp only
      rw [if_neg hwarm, hclosed, ok_bind, exists_bind_ok]
      have hopens := openWhenFlat_returns_iff h closed index hcandle action
      constructor
      · rintro ⟨entered, hentered, -⟩ asked after hasked - hafter
        cases hasked
        cases hclosed.symm.trans hafter
        exact hopens.mp ⟨entered, hentered⟩
      · intro htradable
        obtain ⟨entered, hentered⟩ :=
          hopens.mpr (htradable action closed rfl (not_lt.mp hwarm) hclosed)
        exact ⟨entered, hentered, _, rfl⟩

theorem executeScheduled_backed {executed : SimulatorState} (h : Checked calendar sim)
    (hbacked : Backed state) (hcandle : candle ∈ sim.candles)
    (hexecuted : sim.executeScheduled state candle index = .ok executed) : Backed executed := by
  unfold executeScheduled at hexecuted
  split at hexecuted
  · cases hexecuted
    exact hbacked
  · rename_i action haction
    split at hexecuted
    · cases hexecuted
      exact hbacked
    · simp only [bind_eq_ok, pure_eq_ok] at hexecuted
      obtain ⟨closed, hclosed, entered, hentered, rfl⟩ := hexecuted
      obtain ⟨closed', hclosed', hkept⟩ :=
        closeReversed_returns sim hbacked (h.candles candle hcandle) action
      cases hclosed.symm.trans hclosed'
      unfold openWhenFlat at hentered
      split at hentered
      · rcases openPosition_cases hentered with rfl | ⟨position, hopens, rfl⟩
        · exact hkept
        · intro other hother
          cases hother
          exact hopens.backed
      · cases hentered
        exact hkept

theorem parseSignal_returns {text : String} (h : text ∈ ["BUY", "SELL", "HOLD"]) :
    ∃ decision, parseSignal text = .ok decision := by
  rcases List.mem_cons.mp h with rfl | h
  · exact ⟨_, rfl⟩
  · rcases List.mem_cons.mp h with rfl | h
    · exact ⟨_, rfl⟩
    · cases List.mem_singleton.mp h
      exact ⟨_, rfl⟩

theorem decideAtClose_returns_iff (hresponds : Responds sim.input) (state : SimulatorState)
    (hcandle : sim.candles[index]? = some candle) :
    (∃ next, sim.decideAtClose state candle index = .ok next) ↔
      (sim.input.sentimentAt.isSome → sim.warmupCandles ≤ index →
        index + 1 < sim.candles.length →
        ∃ time, candleCloseTime sim.calendar candle.timestamp sim.input.timeframe = .ok time) := by
  have hlt := (List.getElem?_eq_some_iff.mp hcandle).1
  have hskips : (index < sim.warmupCandles || sim.isLastIndex index) = true ↔
      ¬ (sim.warmupCandles ≤ index ∧ index + 1 < sim.candles.length) := by
    simp only [isLastIndex, Bool.or_eq_true, decide_eq_true_eq, beq_iff_eq]
    omega
  unfold decideAtClose
  split
  · rename_i hskip
    exact iff_of_true ⟨state, rfl⟩ fun _ hwarm hlast => absurd ⟨hwarm, hlast⟩ (hskips.mp hskip)
  · rename_i hskip
    obtain ⟨hwarm, hlast⟩ := not_not.mp (mt hskips.mpr hskip)
    have hanswers : ∀ sentiment, ∃ next, (do
        let signal ← sim.input.strategy.analyze (sim.context candle index sentiment)
        return schedule state (← parseSignal signal) : Except String SimulatorState) = .ok next := by
      intro sentiment
      obtain ⟨text, htext, hanalyze⟩ := hresponds.strategy (sim.context candle index sentiment)
      obtain ⟨decision, hdecision⟩ := parseSignal_returns htext
      rw [hanalyze, ok_bind, hdecision]
      exact ⟨_, rfl⟩
    rw [exists_bind_ok]
    unfold sentimentRead
    cases hlookup : sim.input.sentimentAt with
    | none => exact iff_of_true ⟨none, rfl, hanswers none⟩ (by simp)
    | some lookup =>
      constructor
      · rintro ⟨sentiment, hread, -⟩ - - -
        obtain ⟨time, htime, -⟩ := bind_eq_ok.mp hread
        exact ⟨time, htime⟩
      · intro hclose
        obtain ⟨time, htime⟩ := hclose rfl hwarm hlast
        obtain ⟨sentiment, hsentiment⟩ := hresponds.sentiment lookup hlookup time
        exact ⟨sentiment, bind_eq_ok.mpr ⟨time, htime, hsentiment⟩, hanswers sentiment⟩

theorem decideAtClose_backed (h : Backed state)
    (hnext : sim.decideAtClose state candle index = .ok next) : Backed next := by
  unfold decideAtClose at hnext
  split at hnext
  · cases hnext
    exact h
  · simp only [bind_eq_ok, pure_eq_ok] at hnext
    obtain ⟨-, -, -, -, decision, -, rfl⟩ := hnext
    unfold schedule
    split
    · exact h
    · split
      · exact h
      · exact h

/-- A candle is got through exactly when nothing of it aborts. -/
theorem candleStep_returns_iff (h : Checked calendar sim) (hresponds : Responds sim.input)
    (hbacked : Backed state) (hcandle : sim.candles[index]? = some candle) :
    (∃ next, sim.candleStep state candle index = .ok next) ↔ Clear sim state candle index := by
  have hmem := List.mem_of_getElem? hcandle
  have hexecutes := executeScheduled_returns_iff h index hbacked hmem
  unfold candleStep
  constructor
  · rintro ⟨next, hnext⟩
    simp only [bind_eq_ok] at hnext
    obtain ⟨executed, hexecuted, exited, -, hdecided⟩ := hnext
    exact ⟨hexecutes.mp ⟨executed, hexecuted⟩,
      (decideAtClose_returns_iff hresponds exited hcandle).mp ⟨next, hdecided⟩⟩
  · intro hclear
    obtain ⟨executed, hexecuted⟩ := hexecutes.mpr hclear.opening
    obtain ⟨exited, hexited, -⟩ := applyProtectiveExit_returns sim index
      (executeScheduled_backed h hbacked hmem hexecuted) (h.candles candle hmem)
    obtain ⟨next, hdecided⟩ :=
      (decideAtClose_returns_iff hresponds exited hcandle).mpr hclear.closeTime
    rw [hexecuted, ok_bind, hexited, ok_bind]
    exact ⟨next, hdecided⟩

theorem candleStep_backed (h : Checked calendar sim) (hbacked : Backed state)
    (hcandle : candle ∈ sim.candles) (hnext : sim.candleStep state candle index = .ok next) :
    Backed next := by
  simp only [candleStep, bind_eq_ok] at hnext
  obtain ⟨executed, hexecuted, exited, hexited, hdecided⟩ := hnext
  have hkept := executeScheduled_backed h hbacked hcandle hexecuted
  obtain ⟨exited', hexited', hkept'⟩ :=
    applyProtectiveExit_returns sim index hkept (h.candles candle hcandle)
  cases hexited.symm.trans hexited'
  exact decideAtClose_backed hkept' hdecided

/-! ## The run -/

theorem loopUpTo_backed (h : Checked calendar sim) (count : Nat)
    (hloop : sim.loopUpTo count = .ok state) : Backed state := by
  induction count generalizing state with
  | zero =>
    cases hloop
    simp [Backed, initial]
  | succ index ih =>
    simp only [loopUpTo, bind_eq_ok] at hloop
    obtain ⟨before, hbefore, hstep⟩ := hloop
    split at hstep
    · cases hstep
      exact ih hbefore
    · rename_i candle hcandle
      exact candleStep_backed h (ih hbefore) (List.mem_of_getElem? hcandle) hstep

/-- The loop gets to a candle exactly when nothing of the candles before it aborts. -/
theorem loopUpTo_returns_iff (h : Checked calendar sim) (hresponds : Responds sim.input)
    (count : Nat) : (∃ state, sim.loopUpTo count = .ok state) ↔
      ∀ index state candle, index < count → sim.loopUpTo index = .ok state →
        sim.candles[index]? = some candle → Clear sim state candle index := by
  induction count with
  | zero => exact iff_of_true ⟨sim.initial, rfl⟩ (by omega)
  | succ last ih =>
    rw [loopUpTo, exists_bind_ok]
    constructor
    · rintro ⟨before, hbefore, next, hnext⟩ index state candle hlt hloop hcandle
      rcases Nat.lt_succ_iff_lt_or_eq.mp hlt with hearlier | rfl
      · exact ih.mp ⟨before, hbefore⟩ index state candle hearlier hloop hcandle
      · cases hbefore.symm.trans hloop
        rw [hcandle] at hnext
        exact (candleStep_returns_iff h hresponds (loopUpTo_backed h _ hloop) hcandle).mp
          ⟨next, hnext⟩
    · intro hclear
      obtain ⟨before, hbefore⟩ := ih.mpr fun index state candle hlt =>
        hclear index state candle (by omega)
      refine ⟨before, hbefore, ?_⟩
      split
      · exact ⟨before, rfl⟩
      · rename_i candle hcandle
        exact (candleStep_returns_iff h hresponds (loopUpTo_backed h _ hbefore) hcandle).mpr
          (hclear last before candle (by omega) hbefore hcandle)

/-- Nothing aborts in any candle the loop gets to, nor in the close after the last one. -/
structure ClearRun (sim : Simulation) : Prop where
  loop : ∀ index state candle, sim.loopUpTo index = .ok state → sim.candles[index]? = some candle →
    Clear sim state candle index
  rangeEnd : ∀ state candle, sim.loopUpTo sim.candles.length = .ok state →
    state.position.isSome → sim.candles.getLast? = some candle →
    ∃ time, candleCloseTime sim.calendar candle.timestamp sim.input.timeframe = .ok time

theorem closeAtRangeEnd_returns_iff (h : Checked calendar sim) (hbacked : Backed state) :
    (∃ next, sim.closeAtRangeEnd state = .ok next) ↔
      (state.position.isSome → ∀ candle, sim.candles.getLast? = some candle →
        ∃ time, candleCloseTime sim.calendar candle.timestamp sim.input.timeframe = .ok time) := by
  unfold closeAtRangeEnd
  cases hposition : state.position with
  | none => simp
  | some position =>
    cases hlast : sim.candles.getLast? with
    | none => simp
    | some candle =>
      obtain ⟨marketClose, hclose, -⟩ :=
        decimal_ok (h.candles candle (List.mem_of_getLast? hlast)).closeFinite
      dsimp only
      rw [hclose, ok_bind, exists_bind_ok]
      constructor
      · rintro ⟨time, htime, -⟩ - candle' hcandle
        cases hcandle
        exact ⟨time, htime⟩
      · intro hread
        obtain ⟨time, htime⟩ := hread rfl candle rfl
        obtain ⟨next, hnext, -⟩ :=
          closePosition_returns sim hbacked (marketClose.round 8) time .rangeEnd
        exact ⟨time, htime, next, hnext⟩

theorem finalState_returns_iff (h : Checked calendar sim) (hresponds : Responds sim.input) :
    (∃ state, sim.finalState = .ok state) ↔ ClearRun sim := by
  have hloop := loopUpTo_returns_iff h hresponds sim.candles.length
  unfold finalState
  rw [exists_bind_ok]
  constructor
  · rintro ⟨ended, hended, hfinal⟩
    constructor
    · intro index state candle hstate hcandle
      exact hloop.mp ⟨ended, hended⟩ index state candle (List.getElem?_eq_some_iff.mp hcandle).1
        hstate hcandle
    · intro state candle hstate hheld hlast
      cases hended.symm.trans hstate
      exact (closeAtRangeEnd_returns_iff h (loopUpTo_backed h _ hended)).mp hfinal hheld candle hlast
  · rintro ⟨hclear, hend⟩
    obtain ⟨ended, hended⟩ := hloop.mpr fun index state candle _ => hclear index state candle
    exact ⟨ended, hended, (closeAtRangeEnd_returns_iff h (loopUpTo_backed h _ hended)).mpr
      fun hheld candle hlast => hend ended candle hended hheld hlast⟩

theorem assertPositivePercent_finite {percent : Option JsNumber}
    (h : assertPositivePercent percent = .ok ()) : ∀ value ∈ percent, value.isFinite = true := by
  rintro value rfl
  simp only [assertPositivePercent, throwIf_eq_ok, Bool.or_eq_false_iff, Bool.not_eq_false'] at h
  exact h.1.1

theorem prepare_checked (h : prepare calendar input = .ok sim) : Checked calendar sim where
  feeRate := (prepare_accepted h).feeRate
  candles := prepare_valid h
  stopLoss := by
    rw [(prepare_accepted h).input_eq]
    simp only [prepare, bind_eq_ok] at h
    obtain ⟨-, -, _, hstop, -⟩ := h
    exact assertPositivePercent_finite hstop
  takeProfit := by
    rw [(prepare_accepted h).input_eq]
    simp only [prepare, bind_eq_ok] at h
    obtain ⟨-, -, -, -, _, htake, -⟩ := h
    exact assertPositivePercent_finite htake

/-- On an input that passes the checks, with a strategy and a sentiment reader that answer, a result
is returned exactly when no opening and no close time of the run aborts it. -/
theorem simulateBacktest_returns_iff (calendar : Calendar) (input : SimulationInput)
    (sim : Simulation) (h : prepare calendar input = .ok sim) (hresponds : Responds input) :
    (∃ result, simulateBacktest calendar input = .ok result) ↔ ClearRun sim := by
  have hinput := (prepare_accepted h).input_eq
  rw [← finalState_returns_iff (prepare_checked h) (hinput ▸ hresponds)]
  unfold simulateBacktest
  rw [h, ok_bind, exists_bind_ok]
  constructor
  · rintro ⟨state, hstate, -⟩
    exact ⟨state, hstate⟩
  · rintro ⟨state, hstate⟩
    exact ⟨state, hstate, _, rfl⟩

theorem exampleInput_responds (candles : List Candle) {answers : List String}
    (h : ∀ text ∈ answers, text ∈ ["BUY", "SELL", "HOLD"]) :
    Responds (exampleInput candles answers) where
  strategy context := by
    refine ⟨_, ?_, rfl⟩
    cases hanswer : answers[context.candles.length - 1]? with
    | none => simp
    | some text => exact h text (List.mem_of_getElem? hanswer)
  sentiment := by simp [exampleInput]

theorem simulateBacktest_returns_iff_reversal :
    ∃ sim, prepare exampleCalendar (reversalInput 100) = .ok sim ∧
      Responds (reversalInput 100) ∧
      ((∃ result, simulateBacktest exampleCalendar (reversalInput 100) = .ok result) ↔
        ClearRun sim) := by
  obtain ⟨sim, hprepare⟩ := exists_ok (x := prepare exampleCalendar (reversalInput 100)) (by decide)
  have hresponds : Responds (reversalInput 100) := exampleInput_responds _ (by decide)
  exact ⟨sim, hprepare, hresponds, simulateBacktest_returns_iff _ _ sim hprepare hresponds⟩

/-- The second candle opens at a thousand millionth, and that is rounded to nought. -/
def dustInput : SimulationInput :=
  exampleInput
    [exampleCandle "2025-01-01T00:00:00.000Z" 1 1 1 1,
      { exampleCandle "2025-01-01T01:00:00.000Z" 1 1 1 1 with
        openPrice := .finite ⟨1, 9⟩
        low := .finite ⟨1, 9⟩ },
      exampleCandle "2025-01-01T02:00:00.000Z" 1 1 1 1]
    ["BUY"]

theorem simulateBacktest_aborts :
    ¬ ∀ (calendar : Calendar) (input : SimulationInput) (sim : Simulation),
      prepare calendar input = .ok sim → Responds input →
        ∃ result, simulateBacktest calendar input = .ok result := by
  intro hreturns
  obtain ⟨sim, hprepare⟩ := exists_ok (x := prepare exampleCalendar dustInput) (by decide)
  obtain ⟨result, hresult⟩ :=
    hreturns _ _ sim hprepare (exampleInput_responds _ (by decide))
  have hthrows : (simulateBacktest exampleCalendar dustInput).toBool = false := by decide
  rw [hresult] at hthrows
  cases hthrows

end Cryptox.Backtesting.Simulation
