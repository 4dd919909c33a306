import Cryptox.Backtesting.Simulator.Solvency

/-!
# The market of a run

What the check of a candle guarantees of its prices, and the levels at which it touches the
protective prices of a position. Prices are compared at eight decimals, as the loop compares them.
-/
namespace Cryptox.Backtesting

open Cryptox.Library (bind_eq_ok pure_eq_ok throwIf_eq_ok roundTo roundTo_mono)

theorem JsNumber.max_toRat {left right : JsNumber} (hl : left.isFinite = true)
    (hr : right.isFinite = true) :
    (left.max right).isFinite = true ∧ (left.max right).toRat = Max.max left.toRat right.toRat := by
  unfold JsNumber.max
  split
  · rename_i hlt
    exact ⟨hr, (max_eq_right ((JsNumber.lt_iff hl hr).mp hlt).le).symm⟩
  · rename_i hle
    exact ⟨hl, (max_eq_left (not_lt.mp fun h => hle ((JsNumber.lt_iff hl hr).mpr h))).symm⟩

theorem JsNumber.min_toRat {left right : JsNumber} (hl : left.isFinite = true)
    (hr : right.isFinite = true) :
    (left.min right).isFinite = true ∧ (left.min right).toRat = Min.min left.toRat right.toRat := by
  unfold JsNumber.min
  split
  · rename_i hlt
    exact ⟨hr, (min_eq_right ((JsNumber.lt_iff hr hl).mp hlt).le).symm⟩
  · rename_i hle
    exact ⟨hl, (min_eq_left (not_lt.mp fun h => hle ((JsNumber.lt_iff hr hl).mpr h))).symm⟩

/-- The decimal of a number is its value. -/
theorem decimal_toRat {value : JsNumber} {shown : Decimal} (h : decimal value = .ok shown) :
    shown.toRat = value.toRat := by
  cases value with
  | finite raw =>
    cases h
    exact Decimal.normalize_toRat raw
  | nan => cases h
  | infinity => cases h

theorem decimal_ok {value : JsNumber} (h : value.isFinite = true) :
    ∃ shown, decimal value = .ok shown ∧ shown.toRat = value.toRat := by
  cases value with
  | finite raw => exact ⟨raw.normalize, rfl, Decimal.normalize_toRat raw⟩
  | nan => cases h
  | infinity => cases h

/-- What `validateCandle` leaves of the shapes a candle can have. -/
structure ValidCandle (calendar : Calendar) (candle : Candle) : Prop where
  dated : (calendar.parse candle.timestamp).isSome
  openFinite : candle.openPrice.isFinite = true
  highFinite : candle.high.isFinite = true
  lowFinite : candle.low.isFinite = true
  closeFinite : candle.close.isFinite = true
  open_pos : 0 < candle.openPrice.toRat
  low_pos : 0 < candle.low.toRat
  low_le_open : candle.low.toRat ≤ candle.openPrice.toRat
  low_le_close : candle.low.toRat ≤ candle.close.toRat
  open_le_high : candle.openPrice.toRat ≤ candle.high.toRat
  close_le_high : candle.close.toRat ≤ candle.high.toRat

theorem validateCandle_valid {calendar : Calendar} {candle : Candle} {input : SimulationInput}
    (h : validateCandle calendar candle input = .ok ()) : ValidCandle calendar candle := by
  simp only [validateCandle, bind_eq_ok, throwIf_eq_ok, List.all_cons, List.all_nil,
    Bool.or_eq_false_iff,
    Bool.not_eq_false', Bool.and_eq_true, Option.isNone_eq_false_iff] at h
  obtain ⟨-, ⟨-, hdated⟩, -, ⟨⟨⟨⟨hopen, hopenPos⟩, ⟨hhigh, -⟩, ⟨hlow, hlowPos⟩, ⟨hclose, -⟩, -⟩, -⟩, -⟩,
    htop, hbottom⟩ := h
  have hpositive {value : JsNumber} (hfinite : value.isFinite = true)
      (hsign : (JsNumber.ofInt 0).lt value = true) : 0 < value.toRat := by
    have hvalue : (JsNumber.ofInt 0).toRat < value.toRat := (JsNumber.lt_iff rfl hfinite).mp hsign
    simpa [JsNumber.ofInt, JsNumber.toRat] using hvalue
  obtain ⟨hmaxFinite, hmax⟩ := JsNumber.max_toRat hopen hclose
  obtain ⟨hminFinite, hmin⟩ := JsNumber.min_toRat hopen hclose
  have hupper : Max.max candle.openPrice.toRat candle.close.toRat ≤ candle.high.toRat := by
    rw [← hmax, ← not_lt, ← JsNumber.lt_iff hhigh hmaxFinite, htop]
    exact Bool.false_ne_true
  have hlower : candle.low.toRat ≤ Min.min candle.openPrice.toRat candle.close.toRat := by
    rw [← hmin, ← not_lt, ← JsNumber.lt_iff hminFinite hlow, hbottom]
    exact Bool.false_ne_true
  exact {
    dated := hdated
    openFinite := hopen
    highFinite := hhigh
    lowFinite := hlow
    closeFinite := hclose
    open_pos := hpositive hopen hopenPos
    low_pos := hpositive hlow hlowPos
    low_le_open := hlower.trans (min_le_left ..)
    low_le_close := hlower.trans (min_le_right ..)
    open_le_high := (le_max_left ..).trans hupper
    close_le_high := (le_max_right ..).trans hupper }

theorem validateCandles_valid {calendar : Calendar} {input : SimulationInput}
    {previous : Option Candle} {candles : List Candle}
    (h : validateCandles calendar input previous candles = .ok ()) :
    ∀ candle ∈ candles, ValidCandle calendar candle := by
  induction candles generalizing previous with
  | nil => simp
  | cons candle rest ih =>
    simp only [validateCandles, bind_eq_ok] at h
    obtain ⟨_, hcandle, -, -, h⟩ := h
    intro other hother
    rcases List.mem_cons.mp hother with rfl | hrest
    · exact validateCandle_valid hcandle
    · exact ih h other hrest

/-- Every candle the loop walks over has passed its check. -/
theorem prepare_valid {calendar : Calendar} {input : SimulationInput} {sim : Simulation}
    (h : prepare calendar input = .ok sim) : ∀ candle ∈ sim.candles, ValidCandle calendar candle := by
  simp only [prepare, bind_eq_ok, pure_eq_ok] at h
  obtain ⟨-, -, -, -, -, -, -, -, -, -, _, hvalid, -, -, -, -, -, -, -, -, -, -, -, -, rfl⟩ := h
  exact validateCandles_valid hvalid

/-- A level from below that the open may have passed: the lower of the two is in the candle. -/
theorem ValidCandle.fillBelow {calendar : Calendar} {candle : Candle}
    (h : ValidCandle calendar candle) {marketOpen level : Decimal}
    (hopen : marketOpen.toRat = roundTo 8 candle.openPrice.toRat)
    (hscale : marketOpen.scale = level.scale) (hreach : roundTo 8 candle.low.toRat ≤ level.toRat) :
    let fill := if marketOpen.units ≤ level.units then marketOpen else level
    roundTo 8 candle.low.toRat ≤ fill.toRat ∧ fill.toRat ≤ roundTo 8 candle.high.toRat ∧
      fill.toRat ≤ level.toRat := by
  have hbottom := roundTo_mono 8 h.low_le_open
  have htop := roundTo_mono 8 h.open_le_high
  rw [← hopen] at hbottom htop
  dsimp only
  split
  · rename_i hgap
    exact ⟨hbottom, htop, (Decimal.units_le_iff hscale).mp hgap⟩
  · rename_i hgap
    rw [Decimal.units_le_iff hscale, not_le] at hgap
    exact ⟨hreach, hgap.le.trans htop, le_rfl⟩

/-- A level from above: the higher of it and the open is in the candle. -/
theorem ValidCandle.fillAbove {calendar : Calendar} {candle : Candle}
    (h : ValidCandle calendar candle) {marketOpen level : Decimal}
    (hopen : marketOpen.toRat = roundTo 8 candle.openPrice.toRat)
    (hscale : marketOpen.scale = level.scale) (hreach : level.toRat ≤ roundTo 8 candle.high.toRat) :
    let fill := if marketOpen.units ≥ level.units then marketOpen else level
    roundTo 8 candle.low.toRat ≤ fill.toRat ∧ fill.toRat ≤ roundTo 8 candle.high.toRat ∧
      level.toRat ≤ fill.toRat := by
  have hbottom := roundTo_mono 8 h.low_le_open
  have htop := roundTo_mono 8 h.open_le_high
  rw [← hopen] at hbottom htop
  dsimp only
  split
  · rename_i hgap
    exact ⟨hbottom, htop, (Decimal.units_le_iff hscale.symm).mp hgap⟩
  · rename_i hgap
    rw [ge_iff_le, Decimal.units_le_iff hscale.symm, not_le] at hgap
    exact ⟨hbottom.trans hgap.le, hreach, le_rfl⟩

end Cryptox.Backtesting
