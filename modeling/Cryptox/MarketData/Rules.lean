import Cryptox.Backtesting.Contracts
import Cryptox.Library.Binary64
import Cryptox.Library.Outcome
import Mathlib.Data.List.Nodup

/-!
# Candles and their validation

A timestamp that has passed `parseTimestamp` is kept as its instant in milliseconds: the source
keeps the ISO text of the instant, and the texts of the years 0000 to 9999 are ordered as their
instants are. `parse` stands for `Date.parse`, where `none` is `NaN`.
-/
namespace Cryptox.MarketData

open Cryptox.Backtesting (Timeframe)
open Cryptox.Library

@[ext] structure Range where
  fromTime : Int
  toTime : Int
deriving DecidableEq, Repr

inductive MarketDataErrorCode where
  | invalidPair | unsupportedPair | unsupportedTimeframe
  | invalidRange | rangeTooLarge | noData
  | historyUnavailable | historyIncomplete | datasetEmpty
  | datasetIntegrityFailure | datasetNotFound | subscriptionRejected | providerPayloadInvalid
  | invalidCursor
deriving DecidableEq, Repr

inductive Details where
  | missingRanges (ranges : List Range)
  | cause (text : String)
deriving DecidableEq, Repr

structure MarketDataException where
  code : MarketDataErrorCode
  message : String
  retryable : Bool := false
  details : Option Details := none
deriving DecidableEq, Repr

/-- A number as a provider reports it. -/
inductive JsDouble where
  | finite (value : Binary64)
  | nan
  | infinity (negative : Bool)
deriving DecidableEq

section Pairs

def isPairStart (c : Char) : Bool := c.isUpper || c.isDigit

def isPairRest (c : Char) : Bool := isPairStart c || c == '_' || c == '-'

/-- `/^[A-Z0-9][A-Z0-9_-]*$/` -/
def isPair (value : String) : Bool :=
  match value.toList with
  | [] => false
  | first :: rest => isPairStart first && rest.all isPairRest

structure Pair where
  text : String
  valid : isPair text = true
deriving DecidableEq

def validatePair (value : String) : Except MarketDataException Pair :=
  if h : isPair value = true then .ok ⟨value, h⟩
  else .error
    { code := .invalidPair, message := "Pair must be uppercase ASCII without whitespace." }

def btcUsdt : Pair := ⟨"BTCUSDT", by decide⟩

end Pairs

section Timeframes

def timeframeText : Timeframe → String
  | .m1 => "1m"
  | .m5 => "5m"
  | .m15 => "15m"
  | .h1 => "1h"
  | .h4 => "4h"
  | .d1 => "1d"

def timeframes : List Timeframe := [.m1, .m5, .m15, .h1, .h4, .d1]

def validateTimeframe (value : String) : Except MarketDataException Timeframe :=
  match timeframes.find? fun timeframe => timeframeText timeframe == value with
  | some timeframe => .ok timeframe
  | none => .error { code := .unsupportedTimeframe, message := "Timeframe is not supported." }

theorem ms_pos (timeframe : Timeframe) : 0 < timeframe.ms := by
  cases timeframe <;> decide

end Timeframes

def maxTimeValue : Nat := 8640000000000000

/-- The instants that a date can have. -/
abbrev TimeValue : Type := { milliseconds : Int // milliseconds.natAbs ≤ maxTimeValue }

/-- Where a candle of a timeframe may start. -/
structure IsGridTime (timeframe : Timeframe) (milliseconds : Int) : Prop where
  aligned : milliseconds % timeframe.ms = 0
  dated : milliseconds.natAbs ≤ maxTimeValue

theorem isGridTime_zero (timeframe : Timeframe) : IsGridTime timeframe 0 :=
  ⟨Int.zero_emod _, Nat.zero_le _⟩

abbrev GridTime (timeframe : Timeframe) : Type :=
  { milliseconds : Int // IsGridTime timeframe milliseconds }

/-- The four prices and the volume of a candle that has passed its checks. -/
structure CandleValues where
  openPrice : Binary64
  high : Binary64
  low : Binary64
  close : Binary64
  volume : Binary64
  positive : (0 < openPrice.toRat ∧ 0 < high.toRat ∧ 0 < low.toRat ∧ 0 < close.toRat) ∧
    0 ≤ volume.toRat
  consistent : max (max openPrice.toRat close.toRat) low.toRat ≤ high.toRat ∧
    low.toRat ≤ min (min openPrice.toRat close.toRat) high.toRat
deriving DecidableEq

/-- The values of a candle that stays at one. -/
def unitValues : CandleValues where
  openPrice := .ofInt 1 abs_one_lt
  high := .ofInt 1 abs_one_lt
  low := .ofInt 1 abs_one_lt
  close := .ofInt 1 abs_one_lt
  volume := .ofInt 1 abs_one_lt
  positive := by decide
  consistent := by decide

structure Candle where
  pair : Pair
  timeframe : Timeframe
  timestamp : Int
  onGrid : IsGridTime timeframe timestamp
  values : CandleValues
  isClosed : Bool
  source : Option String
deriving DecidableEq

/-- A candle as a provider reports it. -/
structure RawCandle where
  pair : String
  timeframe : String
  timestamp : String
  openPrice : JsDouble
  high : JsDouble
  low : JsDouble
  close : JsDouble
  volume : JsDouble
  isClosed : Bool
  source : Option String
deriving DecidableEq

structure RawRange where
  fromTime : String
  toTime : String
deriving DecidableEq, Repr

/-- A range whose ends are on the grid of its timeframe, the end after the start. -/
structure ValidRange (timeframe : Timeframe) extends Range where
  fromOnGrid : IsGridTime timeframe fromTime
  toOnGrid : IsGridTime timeframe toTime
  nonempty : fromTime < toTime
deriving DecidableEq

def validateValues (openPrice high low close volume : JsDouble) :
    Except MarketDataException CandleValues :=
  match openPrice, high, low, close, volume with
  | .finite openPrice, .finite high, .finite low, .finite close, .finite volume =>
    if positive : (0 < openPrice.toRat ∧ 0 < high.toRat ∧ 0 < low.toRat ∧ 0 < close.toRat) ∧
        0 ≤ volume.toRat then
      if consistent : max (max openPrice.toRat close.toRat) low.toRat ≤ high.toRat ∧
          low.toRat ≤ min (min openPrice.toRat close.toRat) high.toRat then
        .ok ⟨openPrice, high, low, close, volume, positive, consistent⟩
      else .error
        { code := .providerPayloadInvalid, message := "Candle OHLC values are inconsistent." }
    else .error
      { code := .providerPayloadInvalid
        message := "Candle prices must be positive and volume cannot be negative." }
  | _, _, _, _, _ => .error
    { code := .providerPayloadInvalid
      message := "Candle values must be finite numbers."
      retryable := true }

section Parsing

variable (parse : String → Option TimeValue)

def parseTimestamp (value : String) (timeframe : Timeframe) (now : Int) (allowFuture : Bool) :
    Except MarketDataException (GridTime timeframe) :=
  match parse value with
  | none =>
    .error { code := .invalidRange, message := "Timestamp must be an ISO-8601 UTC string." }
  | some milliseconds =>
    if !value.endsWith "Z" then
      .error { code := .invalidRange, message := "Timestamp must be an ISO-8601 UTC string." }
    else if aligned : milliseconds.val % timeframe.ms = 0 then
      if !allowFuture && now < milliseconds.val then
        .error { code := .invalidRange, message := "Timestamp cannot be in the future." }
      else .ok ⟨milliseconds.val, aligned, milliseconds.property⟩
    else .error
      { code := .invalidRange, message := "Timestamp is not aligned to the timeframe grid." }

def validateRange (range : RawRange) (timeframe : Timeframe) (now : Int) :
    Except MarketDataException (ValidRange timeframe) := do
  let fromTime ← parseTimestamp parse range.fromTime timeframe now false
  let toTime ← parseTimestamp parse range.toTime timeframe now true
  if nonempty : fromTime.val < toTime.val then
    .ok ⟨⟨fromTime.val, toTime.val⟩, fromTime.property, toTime.property, nonempty⟩
  else .error { code := .invalidRange, message := "Range end must be after range start." }

def validateCandle (input : RawCandle) (now : Int) (allowFuture : Bool) :
    Except MarketDataException Candle := do
  let pair ← validatePair input.pair
  let timeframe ← validateTimeframe input.timeframe
  let timestamp ← parseTimestamp parse input.timestamp timeframe now allowFuture
  let values ← validateValues input.openPrice input.high input.low input.close input.volume
  return { pair, timeframe, timestamp := timestamp.val, onGrid := timestamp.property, values,
           isClosed := input.isClosed, source := input.source }

end Parsing

section Gaps

/-- How often a loop from the start of a range to its end, one interval a turn, goes round. -/
def gridSize (range : Range) (timeframe : Timeframe) : Nat :=
  ((range.toTime - range.fromTime + timeframe.ms - 1) / timeframe.ms).toNat

def gridPoints (range : Range) (timeframe : Timeframe) : List Int :=
  (List.range (gridSize range timeframe)).map fun i : Nat => range.fromTime + i * timeframe.ms

/-- One turn of the loop: the gaps found so far, and where the open one starts. -/
def scanGap (existing : List Int) (scanned : List Range × Option Int) (timestamp : Int) :
    List Range × Option Int :=
  if timestamp ∈ existing then
    match scanned.2 with
    | some start => (scanned.1 ++ [⟨start, timestamp⟩], none)
    | none => scanned
  else (scanned.1, some (scanned.2.getD timestamp))

def closeGap (range : Range) (scanned : List Range × Option Int) : List Range :=
  match scanned.2 with
  | some start => scanned.1 ++ [⟨start, range.toTime⟩]
  | none => scanned.1

def missingRanges (candles : List Candle) (range : Range) (timeframe : Timeframe) : List Range :=
  let existing := (candles.filter (·.isClosed)).map (·.timestamp)
  closeGap range ((gridPoints range timeframe).foldl (scanGap existing) ([], none))

variable {candles : List Candle} {range : Range} {timeframe : Timeframe}

theorem lt_gridSize {i : Nat} :
    i < gridSize range timeframe ↔ range.fromTime + i * timeframe.ms < range.toTime := by
  have hms := ms_pos timeframe
  have hdiv : ((i : Int) + 1 ≤ (range.toTime - range.fromTime + timeframe.ms - 1) / timeframe.ms) ↔
      ((i : Int) + 1) * timeframe.ms ≤ range.toTime - range.fromTime + timeframe.ms - 1 :=
    Int.le_ediv_iff_mul_le hms
  rw [add_mul, one_mul] at hdiv
  rw [gridSize]
  omega

theorem mem_gridPoints {timestamp : Int} :
    timestamp ∈ gridPoints range timeframe ↔
      range.fromTime ≤ timestamp ∧ timestamp < range.toTime ∧
        timeframe.ms ∣ timestamp - range.fromTime := by
  have hms := ms_pos timeframe
  constructor
  · intro h
    obtain ⟨i, hi, rfl⟩ := List.mem_map.mp h
    have hlt := lt_gridSize.mp (List.mem_range.mp hi)
    have hnonneg : 0 ≤ (i : Int) * timeframe.ms := by positivity
    refine ⟨by omega, hlt, ⟨i, by ring⟩⟩
  · rintro ⟨hfrom, hto, ⟨k, hk⟩⟩
    have hk0 : 0 ≤ k := by
      by_contra hneg
      have hle : timeframe.ms * k < 0 := mul_neg_of_pos_of_neg hms (by omega)
      omega
    obtain ⟨i, rfl⟩ := Int.eq_ofNat_of_zero_le hk0
    have heq : range.fromTime + i * timeframe.ms = timestamp := by
      rw [mul_comm]
      omega
    exact List.mem_map.mpr ⟨i, List.mem_range.mpr (lt_gridSize.mpr (heq ▸ hto)), heq⟩

theorem gridPoints_nodup : (gridPoints range timeframe).Nodup := by
  have hms := ms_pos timeframe
  refine List.Nodup.map (fun i j h => ?_) List.nodup_range
  have hmul : (i : Int) * timeframe.ms = j * timeframe.ms := by simpa using h
  exact_mod_cast mul_right_cancel₀ hms.ne' hmul

/-- A scan that ends with no gap has started with none and met only existing points. -/
theorem closeGap_foldl_eq_nil {existing points : List Int} {scanned : List Range × Option Int} :
    closeGap range (points.foldl (scanGap existing) scanned) = [] ↔
      scanned = ([], none) ∧ ∀ point ∈ points, point ∈ existing := by
  induction points generalizing scanned with
  | nil =>
    obtain ⟨gaps, start⟩ := scanned
    cases start <;> simp [closeGap]
  | cons point points ih =>
    rw [List.foldl_cons, ih]
    obtain ⟨gaps, start⟩ := scanned
    by_cases hpoint : point ∈ existing
    · cases start <;> simp [scanGap, hpoint]
    · simp [scanGap, hpoint]

/-- Nothing is missing just when every grid point of the range has a closed candle. -/
theorem missingRanges_eq_nil :
    missingRanges candles range timeframe = [] ↔
      ∀ point ∈ gridPoints range timeframe,
        ∃ candle ∈ candles, candle.isClosed = true ∧ candle.timestamp = point := by
  rw [missingRanges, closeGap_foldl_eq_nil]
  simp [and_assoc]

end Gaps

end Cryptox.MarketData
