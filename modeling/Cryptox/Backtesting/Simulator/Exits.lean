import Cryptox.Backtesting.Simulator.Market

/-!
# How a position is entered and left

`History` is what the loop keeps of its past: the open position was priced at the open of its entry
candle and no candle after it has touched its levels, a scheduled action is the answer at the last
close, and every stored trade was closed for a reason its exit candle gives.
-/
namespace Cryptox.Backtesting.Simulation

open Cryptox.Library (bind_eq_ok pure_eq_ok roundTo roundTo_mono OnGrid)

variable {sim : Simulation} {state next : SimulatorState} {candle : Candle} {index now : Nat}
  {calendar : Calendar} {input : SimulationInput}

/-! ## Touching a level -/

/-- The candle reaches the stop from the losing side. -/
def TouchesStop (signal : Signal) (stopLoss : Option Decimal) (candle : Candle) : Prop :=
  ∃ stop ∈ stopLoss,
    match signal with
    | .long => roundTo 8 candle.low.toRat ≤ stop.toRat
    | .short => stop.toRat ≤ roundTo 8 candle.high.toRat

/-- The candle reaches the target from the winning side. -/
def TouchesTake (signal : Signal) (takeProfit : Option Decimal) (candle : Candle) : Prop :=
  ∃ take ∈ takeProfit,
    match signal with
    | .long => take.toRat ≤ roundTo 8 candle.high.toRat
    | .short => roundTo 8 candle.low.toRat ≤ take.toRat

def Touches (position : Position) (candle : Candle) : Prop :=
  TouchesStop position.signal position.stopLoss candle ∨
    TouchesTake position.signal position.takeProfit candle

/-- Leaving at `price` earns the side no more than leaving at `level`. -/
def AtOrWorse (signal : Signal) (level price : ℚ) : Prop :=
  match signal with
  | .long => price ≤ level
  | .short => level ≤ price

def AtOrBetter (signal : Signal) (level price : ℚ) : Prop := AtOrWorse signal price level

/-! ## Entering -/

/-- The strategy's answer at the close of candle `index` asks for this action. -/
def Answers (sim : Simulation) (index : Nat) (action : Action) : Prop :=
  ∃ candle sentiment text, sim.candles[index]? = some candle ∧
    sentimentRead sim.calendar sim.input candle = .ok sentiment ∧
    sim.input.strategy.analyze (sim.context candle index sentiment) = .ok text ∧
    parseSignal text = .ok (some action)

/-- The price paid when the market is at `price`, after slippage. -/
def entryPriceAt (sim : Simulation) (signal : Signal) (price : ℚ) : ℚ :=
  roundTo 8 (price * (1 + signOf signal * sim.slippageRate.toRat))

/-- What is true of a position from its opening on. -/
structure Entered (sim : Simulation) (position : Position) : Prop where
  entry : ∃ candle, sim.candles[position.entryIndex]? = some candle ∧
    position.entryTime = candle.timestamp ∧
    position.marketEntryPrice.toRat = roundTo 8 candle.openPrice.toRat
  notLast : position.entryIndex + 1 < sim.candles.length
  entryPrice : position.entryPrice.toRat
    = sim.entryPriceAt position.signal position.marketEntryPrice.toRat
  equity_onGrid : OnGrid 2 position.equityBeforeTrade.toRat
  quantity_pos : 0 < position.quantity.units
  quantity : position.quantity.toRat = roundTo 8
    (position.equityBeforeTrade.toRat / (position.entryPrice.toRat * (1 + sim.feeRate.toRat)))
  stop : ∀ stop ∈ position.stopLoss, stop.scale = 8 ∧ 0 < stop.units
  take : ∀ take ∈ position.takeProfit, take.scale = 8 ∧ 0 < take.units

theorem stopLossPrice_scale {tradeDirection market : Decimal} {stopLoss : Option Decimal}
    (h : sim.stopLossPrice tradeDirection market = .ok stopLoss) :
    ∀ stop ∈ stopLoss, stop.scale = 8 := by
  unfold stopLossPrice at h
  split at h
  · cases h
    simp
  · simp only [bind_eq_ok, pure_eq_ok] at h
    obtain ⟨-, -, -, -, rfl⟩ := h
    simp

theorem takeProfitPrice_scale {tradeDirection market : Decimal} {takeProfit : Option Decimal}
    (h : sim.takeProfitPrice tradeDirection market = .ok takeProfit) :
    ∀ take ∈ takeProfit, take.scale = 8 := by
  unfold takeProfitPrice at h
  split at h
  · cases h
    simp
  · simp only [bind_eq_ok, pure_eq_ok] at h
    obtain ⟨-, -, -, -, rfl⟩ := h
    simp

theorem assertPositivePrice_pos {price : Option Decimal} (h : assertPositivePrice price = .ok ()) :
    ∀ level ∈ price, 0 < level.units := by
  rintro level rfl
  unfold assertPositivePrice at h
  simpa [Library.throwIf_eq_ok] using h

/-- What `openPosition` opens. -/
theorem openPosition_entered {action : Action} (hcandle : sim.candles[index]? = some candle)
    (hlast : index + 1 < sim.candles.length) (hgrid : OnGrid 2 state.equity.toRat)
    (h : sim.openPosition state action candle index = .ok next) :
    next = state ∨ ∃ position, next = state.enter position ∧ Entered sim position ∧
      position.entryIndex = index ∧ position.equityBeforeTrade = state.equity := by
  simp only [openPosition, bind_eq_ok] at h
  obtain ⟨marketOpen, hopen, quantity, hquantity, h⟩ := h
  split at h
  · exact .inl (pure_eq_ok.mp h).symm
  · rename_i hpos
    simp only [bind_eq_ok, pure_eq_ok] at h
    obtain ⟨stopLoss, hstop, takeProfit, htake, _, hstopPos, _, htakePos, rfl⟩ := h
    refine .inr ⟨_, rfl, ⟨⟨candle, hcandle, rfl, ?_⟩, hlast, ?_, hgrid, not_le.mp hpos, ?_, ?_, ?_⟩,
      rfl, rfl⟩
    · simp [decimal_toRat hopen]
    · simp [entryPriceAt]
    · dsimp only
      rw [Decimal.divide_toRat hquantity]
      simp
    · exact fun stop hmem => ⟨stopLossPrice_scale hstop stop hmem,
        assertPositivePrice_pos hstopPos stop hmem⟩
    · exact fun take hmem => ⟨takeProfitPrice_scale htake take hmem,
        assertPositivePrice_pos htakePos take hmem⟩

/-! ## Leaving -/

/-- The price and the reason for which candle `index` closes the position. -/
structure Leaves (sim : Simulation) (position : Position) (index : Nat) (candle : Candle)
    (price : Decimal) (reason : ExitReason) : Prop where
  scale : price.scale = 8
  low_le : roundTo 8 candle.low.toRat ≤ price.toRat
  le_high : price.toRat ≤ roundTo 8 candle.high.toRat
  stopLoss : reason = .stopLoss → TouchesStop position.signal position.stopLoss candle ∧
    ∃ stop ∈ position.stopLoss, AtOrWorse position.signal stop.toRat price.toRat
  takeProfit : reason = .takeProfit → TouchesTake position.signal position.takeProfit candle ∧
    ¬ TouchesStop position.signal position.stopLoss candle ∧
    ∃ take ∈ position.takeProfit, AtOrBetter position.signal take.toRat price.toRat
  strategyClose : reason = .strategyClose → price.toRat = roundTo 8 candle.openPrice.toRat ∧
    ∃ before action, before + 1 = index ∧ Answers sim before action ∧ side action ≠ position.signal
  rangeEnd : reason = .rangeEnd → index + 1 = sim.candles.length ∧ ¬ Touches position candle

theorem Leaves.ofProtective {position : Position} {price : Decimal} {reason : ExitReason}
    (hscale : price.scale = 8)
    (hrange : roundTo 8 candle.low.toRat ≤ price.toRat ∧ price.toRat ≤ roundTo 8 candle.high.toRat)
    (hstop : reason = .stopLoss → TouchesStop position.signal position.stopLoss candle ∧
      ∃ stop ∈ position.stopLoss, AtOrWorse position.signal stop.toRat price.toRat)
    (htake : reason = .takeProfit → TouchesTake position.signal position.takeProfit candle ∧
      ¬ TouchesStop position.signal position.stopLoss candle ∧
      ∃ take ∈ position.takeProfit, AtOrBetter position.signal take.toRat price.toRat)
    (hreason : reason = .stopLoss ∨ reason = .takeProfit) :
    Leaves sim position index candle price reason where
  scale := hscale
  low_le := hrange.1
  le_high := hrange.2
  stopLoss := hstop
  takeProfit := htake
  strategyClose h := by rcases hreason with hr | hr <;> cases hr.symm.trans h
  rangeEnd h := by rcases hreason with hr | hr <;> cases hr.symm.trans h

section Protective

variable {position : Position} {marketOpen marketHigh marketLow : Decimal}
  (hopen : marketOpen.scale = 8 ∧ marketOpen.toRat = roundTo 8 candle.openPrice.toRat)
  (hhigh : marketHigh.scale = 8 ∧ marketHigh.toRat = roundTo 8 candle.high.toRat)
  (hlow : marketLow.scale = 8 ∧ marketLow.toRat = roundTo 8 candle.low.toRat)
  (hentered : Entered sim position)

include hhigh hlow hentered

theorem stopTriggered_iff : stopTriggered position marketHigh marketLow = true ↔
    TouchesStop position.signal position.stopLoss candle := by
  unfold stopTriggered TouchesStop
  cases hsignal : position.signal with
  | long =>
    simp only [Option.any_eq_true, decide_eq_true_eq]
    refine exists_congr fun stop => and_congr_right fun hmem => ?_
    rw [Decimal.units_le_iff (hlow.1.trans (hentered.stop stop hmem).1.symm), hlow.2]
  | short =>
    simp only [Option.any_eq_true, decide_eq_true_eq, ge_iff_le]
    refine exists_congr fun stop => and_congr_right fun hmem => ?_
    rw [Decimal.units_le_iff ((hentered.stop stop hmem).1.trans hhigh.1.symm), hhigh.2]

theorem takeTriggered_iff : takeTriggered position marketHigh marketLow = true ↔
    TouchesTake position.signal position.takeProfit candle := by
  unfold takeTriggered TouchesTake
  cases hsignal : position.signal with
  | long =>
    simp only [Option.any_eq_true, decide_eq_true_eq, ge_iff_le]
    refine exists_congr fun take => and_congr_right fun hmem => ?_
    rw [Decimal.units_le_iff ((hentered.take take hmem).1.trans hhigh.1.symm), hhigh.2]
  | short =>
    simp only [Option.any_eq_true, decide_eq_true_eq]
    refine exists_congr fun take => and_congr_right fun hmem => ?_
    rw [Decimal.units_le_iff (hlow.1.trans (hentered.take take hmem).1.symm), hlow.2]

theorem protectiveExit_none (h : protectiveExit position marketOpen marketHigh marketLow = none) :
    ¬ Touches position candle := by
  have hstop := stopTriggered_iff hhigh hlow hentered
  have htake := takeTriggered_iff hhigh hlow hentered
  unfold protectiveExit at h
  rintro (htouch | htouch)
  · rw [if_pos (hstop.mpr htouch)] at h
    obtain ⟨stop, hmem, -⟩ := htouch
    rw [Option.map_eq_none_iff] at h
    rw [h] at hmem
    cases hmem
  · by_cases hfirst : stopTriggered position marketHigh marketLow = true
    · obtain ⟨stop, hmem, -⟩ := hstop.mp hfirst
      rw [if_pos hfirst, Option.map_eq_none_iff] at h
      rw [h] at hmem
      cases hmem
    · rw [if_neg hfirst, if_pos (htake.mpr htouch)] at h
      obtain ⟨take, hmem, -⟩ := htouch
      rw [Option.map_eq_none_iff] at h
      rw [h] at hmem
      cases hmem

omit hhigh hlow

include hopen

/-- A stop is filled at its level, or at an open that is already worse. -/
theorem stopFill_inside {stop : Decimal} (hvalid : ValidCandle calendar candle)
    (hmem : stop ∈ position.stopLoss)
    (htouch : TouchesStop position.signal position.stopLoss candle) :
    let fill := if stopGap position marketOpen stop then marketOpen else stop
    (roundTo 8 candle.low.toRat ≤ fill.toRat ∧ fill.toRat ≤ roundTo 8 candle.high.toRat) ∧
      AtOrWorse position.signal stop.toRat fill.toRat := by
  have hscale : marketOpen.scale = stop.scale := hopen.1.trans (hentered.stop stop hmem).1.symm
  obtain ⟨level, hlevel, hreach⟩ := htouch
  obtain rfl : level = stop := Option.some.inj (hlevel.symm.trans hmem)
  unfold stopGap AtOrWorse
  cases hsignal : position.signal with
  | long =>
    simp only [hsignal] at hreach
    obtain ⟨hbottom, htop, hworse⟩ := hvalid.fillBelow hopen.2 hscale hreach
    simpa using ⟨⟨hbottom, htop⟩, hworse⟩
  | short =>
    simp only [hsignal] at hreach
    obtain ⟨hbottom, htop, hworse⟩ := hvalid.fillAbove hopen.2 hscale hreach
    simpa using ⟨⟨hbottom, htop⟩, hworse⟩

/-- A target is filled at its level, or at an open that is already better. -/
theorem takeFill_inside {take : Decimal} (hvalid : ValidCandle calendar candle)
    (hmem : take ∈ position.takeProfit)
    (htouch : TouchesTake position.signal position.takeProfit candle) :
    let fill := if takeGap position marketOpen take then marketOpen else take
    (roundTo 8 candle.low.toRat ≤ fill.toRat ∧ fill.toRat ≤ roundTo 8 candle.high.toRat) ∧
      AtOrBetter position.signal take.toRat fill.toRat := by
  have hscale : marketOpen.scale = take.scale := hopen.1.trans (hentered.take take hmem).1.symm
  obtain ⟨level, hlevel, hreach⟩ := htouch
  obtain rfl : level = take := Option.some.inj (hlevel.symm.trans hmem)
  unfold takeGap AtOrBetter AtOrWorse
  cases hsignal : position.signal with
  | long =>
    simp only [hsignal] at hreach
    obtain ⟨hbottom, htop, hbetter⟩ := hvalid.fillAbove hopen.2 hscale hreach
    simpa using ⟨⟨hbottom, htop⟩, hbetter⟩
  | short =>
    simp only [hsignal] at hreach
    obtain ⟨hbottom, htop, hbetter⟩ := hvalid.fillBelow hopen.2 hscale hreach
    simpa using ⟨⟨hbottom, htop⟩, hbetter⟩

include hhigh hlow

/-- Either protective exit is inside the candle, on its own side of its level. -/
theorem protectiveExit_leaves {price : Decimal} {reason : ExitReason}
    (hvalid : ValidCandle calendar candle)
    (h : protectiveExit position marketOpen marketHigh marketLow = some (price, reason)) :
    Leaves sim position index candle price reason := by
  have hstop := stopTriggered_iff hhigh hlow hentered
  have htake := takeTriggered_iff hhigh hlow hentered
  unfold protectiveExit at h
  split at h
  · rename_i hfirst
    obtain ⟨stop, hmem, heq⟩ := Option.map_eq_some_iff.mp h
    obtain ⟨rfl, rfl⟩ := Prod.mk.inj heq
    obtain ⟨hrange, hworse⟩ := stopFill_inside hopen hentered hvalid hmem (hstop.mp hfirst)
    have hscale : (if stopGap position marketOpen stop then marketOpen else stop).scale = 8 := by
      split
      · exact hopen.1
      · exact (hentered.stop stop hmem).1
    exact .ofProtective hscale hrange (fun _ => ⟨hstop.mp hfirst, stop, hmem, hworse⟩)
      (by simp) (by simp)
  · rename_i hfirst
    split at h
    · rename_i hsecond
      obtain ⟨take, hmem, heq⟩ := Option.map_eq_some_iff.mp h
      obtain ⟨rfl, rfl⟩ := Prod.mk.inj heq
      obtain ⟨hrange, hbetter⟩ := takeFill_inside hopen hentered hvalid hmem (htake.mp hsecond)
      have hscale : (if takeGap position marketOpen take then marketOpen else take).scale = 8 := by
        split
        · exact hopen.1
        · exact (hentered.take take hmem).1
      exact .ofProtective hscale hrange (by simp)
        (fun _ => ⟨htake.mp hsecond, hstop.not.mp hfirst, take, hmem, hbetter⟩) (by simp)
    · cases h

end Protective

/-! ## The past of the loop -/

/-- The trade closes the position at candle `index`, and no candle before that touched a level. -/
structure Played (sim : Simulation) (position : Position) (index : Nat) (candle : Candle)
    (price : Decimal) (reason : ExitReason) (trade : Trade) : Prop where
  entered : Entered sim position
  exit : sim.candles[index]? = some candle
  older : position.entryIndex < index
  quiet : ∀ passed between, position.entryIndex < passed → passed < index →
    sim.candles[passed]? = some between → ¬ Touches position between
  leaves : Leaves sim position index candle price reason
  closing : ∃ sequence time, sim.closingTrade position sequence price time reason = .ok trade ∧
    (reason ≠ .rangeEnd → time = candle.timestamp)

def PlayedTrade (sim : Simulation) (trade : Trade) : Prop :=
  ∃ position index candle price reason, Played sim position index candle price reason trade

/-- What holds between the phases of a candle. -/
structure Past (sim : Simulation) (now : Nat) (state : SimulatorState) : Prop where
  onGrid : OnGrid 2 state.equity.toRat
  entered : ∀ position ∈ state.position, Entered sim position
  quiet : ∀ position ∈ state.position, ∀ passed between, position.entryIndex < passed →
    passed < now → sim.candles[passed]? = some between → ¬ Touches position between
  trades : ∀ trade ∈ state.trades, PlayedTrade sim trade

/-- What holds between two candles. -/
structure History (sim : Simulation) (now : Nat) (state : SimulatorState) : Prop
    extends Past sim now state where
  older : ∀ position ∈ state.position, position.entryIndex < now
  scheduled : ∀ action ∈ state.scheduled, ∃ before, before + 1 = now ∧
    sim.warmupCandles ≤ before ∧ Answers sim before action

theorem Past.record (h : Past sim now state) {position : Position} {price : Decimal}
    {reason : ExitReason} {trade : Trade} (hposition : state.position = some position)
    (hcandle : sim.candles[now]? = some candle) (holder : position.entryIndex < now)
    (hleaves : Leaves sim position now candle price reason)
    (htrade : sim.closingTrade position (state.sequence + 1) price candle.timestamp reason
      = .ok trade) :
    Past sim now (state.record trade) where
  onGrid := (closingTrade_stored htrade).onGrid
  entered := by simp
  quiet := by simp
  trades := by
    intro other hother
    rcases List.mem_append.mp hother with hold | hnew
    · exact h.trades other hold
    · cases List.mem_singleton.mp hnew
      exact ⟨position, now, candle, price, reason, h.entered position hposition, hcandle, holder,
        h.quiet position hposition, hleaves, _, _, htrade, fun _ => rfl⟩

theorem History.closeReversed (h : History sim index state) {action : Action}
    (hvalid : ValidCandle calendar candle) (hcandle : sim.candles[index]? = some candle)
    (haction : state.scheduled = some action)
    (hclose : sim.closeReversed state action candle = .ok next) :
    Past sim index next ∧ ∀ position ∈ next.position, position.entryIndex ≤ index := by
  have hsame : Past sim index state ∧ ∀ position ∈ state.position, position.entryIndex ≤ index :=
    ⟨h.toPast, fun position hposition => (h.older position hposition).le⟩
  unfold Simulation.closeReversed at hclose
  split at hclose
  · cases hclose
    exact hsame
  · rename_i position hposition
    split at hclose
    · cases hclose
      exact hsame
    · rename_i hside
      simp only [bind_eq_ok] at hclose
      obtain ⟨marketOpen, hopen, hclose⟩ := hclose
      obtain ⟨trade, htrade, rfl⟩ := closePosition_some hposition hclose
      have hprice : (marketOpen.round 8).toRat = roundTo 8 candle.openPrice.toRat := by
        rw [Decimal.round_toRat, decimal_toRat hopen]
      obtain ⟨before, hbefore, -, hanswer⟩ := h.scheduled action haction
      refine ⟨h.toPast.record hposition hcandle (h.older position hposition) ?_ htrade, by simp⟩
      exact {
        scale := Decimal.round_scale _ _
        low_le := hprice ▸ roundTo_mono 8 hvalid.low_le_open
        le_high := hprice ▸ roundTo_mono 8 hvalid.open_le_high
        stopLoss := by simp
        takeProfit := by simp
        strategyClose := fun _ => ⟨hprice, before, action, hbefore, hanswer, Ne.symm hside⟩
        rangeEnd := by simp }

theorem Past.openWhenFlat {action : Action} (h : Past sim index state)
    (hborn : ∀ position ∈ state.position, position.entryIndex ≤ index)
    (hcandle : sim.candles[index]? = some candle)
    (hopen : sim.openWhenFlat state action candle index = .ok next) :
    Past sim index next ∧ ∀ position ∈ next.position, position.entryIndex ≤ index := by
  unfold Simulation.openWhenFlat at hopen
  split at hopen
  · rename_i hflat
    simp only [Bool.and_eq_true, decide_eq_true_eq] at hflat
    rcases openPosition_entered hcandle hflat.2 h.onGrid hopen with
      rfl | ⟨position, rfl, hentered, hindex, -⟩
    · exact ⟨h, hborn⟩
    · refine ⟨⟨h.onGrid, ?_, ?_, h.trades⟩, ?_⟩
      · rintro _ ⟨⟩
        exact hentered
      · rintro _ ⟨⟩ passed between hlt hgt
        omega
      · rintro _ ⟨⟩
        exact hindex.le
  · cases hopen
    exact ⟨h, hborn⟩

theorem History.executeScheduled (h : History sim index state) (hvalid : ValidCandle calendar candle)
    (hcandle : sim.candles[index]? = some candle)
    (hexecute : sim.executeScheduled state candle index = .ok next) :
    Past sim index next ∧ next.scheduled = none ∧
      ∀ position ∈ next.position, position.entryIndex ≤ index := by
  unfold Simulation.executeScheduled at hexecute
  split at hexecute
  · rename_i hnone
    cases hexecute
    exact ⟨h.toPast, hnone, fun position hposition => (h.older position hposition).le⟩
  · rename_i action haction
    split at hexecute
    · rename_i hwarm
      obtain ⟨before, hbefore, hready, -⟩ := h.scheduled action haction
      omega
    · simp only [bind_eq_ok, pure_eq_ok] at hexecute
      obtain ⟨closed, hclosed, executed, hexecuted, rfl⟩ := hexecute
      obtain ⟨hpast, hborn⟩ := h.closeReversed hvalid hcandle haction hclosed
      obtain ⟨hpast, hborn⟩ := hpast.openWhenFlat hborn hcandle hexecuted
      exact ⟨⟨hpast.onGrid, hpast.entered, hpast.quiet, hpast.trades⟩, rfl, hborn⟩

/-- After the protective exits the candle has touched no position that is left. -/
theorem Past.applyProtectiveExit (h : Past sim index state) (hvalid : ValidCandle calendar candle)
    (hcandle : sim.candles[index]? = some candle)
    (hexit : sim.applyProtectiveExit state candle index = .ok next) :
    Past sim (index + 1) next ∧ next.scheduled = state.scheduled ∧
      ∀ position ∈ next.position, position ∈ state.position := by
  -- a position that stays has been quiet at this candle or was entered in it
  have hstays : (∀ position ∈ state.position, position.entryIndex < index →
      ¬ Touches position candle) → Past sim (index + 1) state := by
    intro hquiet
    refine ⟨h.onGrid, h.entered, fun position hposition passed between hlt hle hpassed => ?_,
      h.trades⟩
    rcases Nat.lt_succ_iff_lt_or_eq.mp hle with hearlier | rfl
    · exact h.quiet position hposition passed between hlt hearlier hpassed
    · cases hcandle.symm.trans hpassed
      exact hquiet position hposition hlt
  unfold Simulation.applyProtectiveExit at hexit
  split at hexit
  · rename_i hnone
    cases hexit
    exact ⟨hstays (by simp [hnone]), rfl, fun _ hmem => hmem⟩
  · rename_i position hposition
    split at hexit
    · rename_i holder
      simp only [bind_eq_ok] at hexit
      obtain ⟨marketOpen, hopen, marketHigh, hhigh, marketLow, hlow, hexit⟩ := hexit
      have hprice {value : JsNumber} {shown : Decimal} (hshown : decimal value = .ok shown) :
          (shown.round 8).scale = 8 ∧ (shown.round 8).toRat = roundTo 8 value.toRat := by
        rw [Decimal.round_toRat, decimal_toRat hshown]
        exact ⟨Decimal.round_scale _ _, rfl⟩
      have hentered := h.entered position hposition
      split at hexit
      · rename_i hnone
        cases hexit
        refine ⟨hstays fun other hother _ => ?_, rfl, fun _ hmem => hmem⟩
        cases hposition.symm.trans hother
        exact protectiveExit_none (hprice hhigh) (hprice hlow) hentered hnone
      · rename_i price reason hsome
        obtain ⟨trade, htrade, rfl⟩ := closePosition_some hposition hexit
        have hleaves : Leaves sim position index candle price reason :=
          protectiveExit_leaves (hprice hopen) (hprice hhigh) (hprice hlow) hentered hvalid hsome
        have hrecord := h.record hposition hcandle holder hleaves htrade
        exact ⟨⟨hrecord.onGrid, by simp, by simp, hrecord.trades⟩, rfl, by simp⟩
    · rename_i hyoung
      cases hexit
      refine ⟨hstays fun other hother hlt => ?_, rfl, fun _ hmem => hmem⟩
      cases hposition.symm.trans hother
      exact absurd hlt hyoung

theorem Past.decideAtClose (h : Past sim (index + 1) state)
    (hborn : ∀ position ∈ state.position, position.entryIndex ≤ index)
    (hnone : state.scheduled = none) (hcandle : sim.candles[index]? = some candle)
    (hdecide : sim.decideAtClose state candle index = .ok next) : History sim (index + 1) next := by
  have hidle : History sim (index + 1) state :=
    ⟨h, fun position hposition => Nat.lt_succ_of_le (hborn position hposition), by simp [hnone]⟩
  unfold Simulation.decideAtClose at hdecide
  split at hdecide
  · cases hdecide
    exact hidle
  · rename_i hwarm
    simp only [Bool.or_eq_true, decide_eq_true_eq, not_or, not_lt] at hwarm
    simp only [bind_eq_ok, pure_eq_ok] at hdecide
    obtain ⟨sentiment, hsentiment, text, htext, decision, hdecision, rfl⟩ := hdecide
    unfold Simulation.schedule
    split
    · exact hidle
    · rename_i action
      split
      · exact hidle
      · refine ⟨⟨h.onGrid, h.entered, h.quiet, h.trades⟩, hidle.older, ?_⟩
        rintro _ ⟨⟩
        exact ⟨index, rfl, hwarm.1, candle, sentiment, text, hcandle, hsentiment, htext, hdecision⟩

/-- One candle keeps the history. -/
theorem History.step (h : History sim index state) (hvalid : ValidCandle calendar candle)
    (hcandle : sim.candles[index]? = some candle)
    (hstep : sim.candleStep state candle index = .ok next) : History sim (index + 1) next := by
  simp only [candleStep, bind_eq_ok] at hstep
  obtain ⟨executed, hexecuted, exited, hexited, hdecided⟩ := hstep
  obtain ⟨hpast, hnone, hborn⟩ := h.executeScheduled hvalid hcandle hexecuted
  obtain ⟨hpast, hscheduled, hkept⟩ := hpast.applyProtectiveExit hvalid hcandle hexited
  exact hpast.decideAtClose (fun position hposition => hborn position (hkept position hposition))
    (hscheduled.trans hnone) hcandle hdecided

theorem History.start (hsim : Accepted calendar input sim) : History sim 0 sim.initial where
  onGrid := (Ledger.start hsim).onGrid
  entered := by simp [initial]
  quiet := by simp [initial]
  trades := by simp [initial]
  older := by simp [initial]
  scheduled := by simp [initial]

theorem loopUpTo_history (hsim : Accepted calendar input sim)
    (hvalid : ∀ candle ∈ sim.candles, ValidCandle calendar candle) (count : Nat)
    (h : sim.loopUpTo count = .ok state) : count ≤ sim.candles.length → History sim count state := by
  induction count generalizing state with
  | zero =>
    cases h
    exact fun _ => .start hsim
  | succ index ih =>
    intro hcount
    simp only [loopUpTo, bind_eq_ok] at h
    obtain ⟨before, hbefore, h⟩ := h
    have hhistory := ih hbefore (by omega)
    split at h
    · rename_i hnone
      rw [List.getElem?_eq_none_iff] at hnone
      omega
    · rename_i candle hcandle
      exact hhistory.step (hvalid candle (List.mem_of_getElem? hcandle)) hcandle h

/-- Every trade of a finished walk was entered and left as the loop says. -/
theorem finalState_played (hsim : Accepted calendar input sim)
    (hvalid : ∀ candle ∈ sim.candles, ValidCandle calendar candle)
    (h : sim.finalState = .ok state) : ∀ trade ∈ state.trades, PlayedTrade sim trade := by
  simp only [finalState, bind_eq_ok] at h
  obtain ⟨ended, hended, h⟩ := h
  have hhistory := loopUpTo_history hsim hvalid _ hended le_rfl
  rcases closeAtRangeEnd_cases h with ⟨rfl, -⟩ |
    ⟨position, finalCandle, marketClose, exitTime, trade, hposition, hlast, hclose, htrade, rfl⟩
  · exact hhistory.trades
  · have hentered := hhistory.entered position hposition
    have hnotLast := hentered.notLast
    have hexit : sim.candles[sim.candles.length - 1]? = some finalCandle := by
      rw [← List.getLast?_eq_getElem?, hlast]
    have hfinal := hvalid finalCandle (List.mem_of_getElem? hexit)
    have hprice : (marketClose.round 8).toRat = roundTo 8 finalCandle.close.toRat := by
      rw [Decimal.round_toRat, decimal_toRat hclose]
    have hquiet := hhistory.quiet position hposition
    intro other hother
    rcases List.mem_append.mp hother with hold | hnew
    · exact hhistory.trades other hold
    · cases List.mem_singleton.mp hnew
      refine ⟨position, sim.candles.length - 1, finalCandle, _, _, hentered, hexit, by omega,
        fun passed between hlt hgt => hquiet passed between hlt (by omega), ?_, _, _, htrade,
        fun h => absurd rfl h⟩
      exact {
        scale := Decimal.round_scale _ _
        low_le := hprice ▸ roundTo_mono 8 hfinal.low_le_close
        le_high := hprice ▸ roundTo_mono 8 hfinal.close_le_high
        stopLoss := by simp
        takeProfit := by simp
        strategyClose := by simp
        rangeEnd := fun _ => ⟨by omega, hquiet _ finalCandle (by omega) (by omega) hexit⟩ }

end Cryptox.Backtesting.Simulation
