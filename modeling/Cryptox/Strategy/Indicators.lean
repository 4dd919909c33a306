import Cryptox.Strategy.Contracts

/-!
# The indicators and the history they need

An indicator has a value just when its period is a positive whole number and there are enough
candles: as many as the period, one more for the relative strength index.
-/
namespace Cryptox.Strategy

open Cryptox.Backtesting (JsNumber Decimal StrategyCandle)

/-- A positive whole number. -/
def isPeriod (period : JsNumber) : Bool := period.isInteger && !period.le (.ofInt 0)

/-- `values.slice(-period)`. -/
def lastOf {α : Type} (values : List α) (period : JsNumber) : List α :=
  values.drop (values.length - period.toNat)

def sum (numbers : Numbers) (values : List JsNumber) : JsNumber :=
  values.foldl numbers.add (.ofInt 0)

def simpleMovingAverage (numbers : Numbers) (values : List JsNumber) (period : JsNumber) :
    Option JsNumber :=
  if !isPeriod period || (JsNumber.ofInt values.length).lt period then none
  else some (numbers.divide (sum numbers (lastOf values period)) period)

/-- Equality of numbers, which `NaN` does not have with itself. -/
def sameNumber (left right : JsNumber) : Bool := left.le right && right.le left

/-- The gains and the losses of a window, from the value before it. -/
def gainsAndLosses (numbers : Numbers) : JsNumber → List JsNumber → JsNumber × JsNumber →
    JsNumber × JsNumber
  | _, [], totals => totals
  | previous, value :: rest, (gains, losses) =>
    let change := numbers.subtract value previous
    gainsAndLosses numbers value rest
      (if (JsNumber.ofInt 0).le change then (numbers.add gains change, losses)
        else (gains, numbers.subtract losses change))

def relativeStrengthIndex (numbers : Numbers) (values : List JsNumber) (period : JsNumber) :
    Option JsNumber :=
  if !isPeriod period || (JsNumber.ofInt values.length).le period then none
  else
    match values.drop (values.length - period.toNat - 1) with
    | [] => none
    | previous :: window =>
      let totals := gainsAndLosses numbers previous window (.ofInt 0, .ofInt 0)
      if sameNumber totals.2 (.ofInt 0) then
        if sameNumber totals.1 (.ofInt 0) then some (.ofInt 50) else some (.ofInt 100)
      else
        some (numbers.subtract (.ofInt 100) (numbers.divide (.ofInt 100)
          (numbers.add (.ofInt 1) (numbers.divide totals.1 totals.2))))

structure Bands where
  middle : JsNumber
  upper : JsNumber
  lower : JsNumber
deriving DecidableEq, Repr

def bollingerBands (numbers : Numbers) (values : List JsNumber) (period deviations : JsNumber) :
    Option Bands :=
  (simpleMovingAverage numbers values period).map fun middle =>
    let squares := (lastOf values period).map fun value =>
      numbers.square (numbers.subtract value middle)
    let variance := numbers.divide (sum numbers squares) period
    let spread := numbers.multiply (numbers.sqrt variance) deviations
    ⟨middle, numbers.add middle spread, numbers.subtract middle spread⟩

structure Levels where
  support : JsNumber
  resistance : JsNumber
deriving DecidableEq, Repr

def supportResistance (candles : List StrategyCandle) (lookback : JsNumber) : Option Levels :=
  if !isPeriod lookback || (JsNumber.ofInt candles.length).lt lookback then none
  else
    let window := lastOf candles lookback
    some ⟨(window.map (·.low)).foldl JsNumber.min (.infinity false),
      (window.map (·.high)).foldl JsNumber.max (.infinity true)⟩

section

variable {period : JsNumber} {numbers : Numbers}

theorem toRat_of_isInteger (h : period.isInteger = true) :
    ∃ shown, period = .finite shown ∧ period.toRat = (shown.normalize.units : ℚ) := by
  cases period with
  | finite shown =>
    have hscale : shown.normalize.scale = 0 := by simpa [JsNumber.isInteger] using h
    refine ⟨shown, rfl, ?_⟩
    rw [JsNumber.toRat, ← Decimal.normalize_toRat, Decimal.toRat, hscale]
    simp
  | nan => cases h
  | infinity negative => cases h

/-- A period is a natural number above zero. -/
theorem period_toRat (h : isPeriod period = true) :
    period.isFinite = true ∧ period.toRat = period.toNat ∧ 0 < period.toNat := by
  rw [isPeriod, Bool.and_eq_true] at h
  obtain ⟨shown, rfl, hrat⟩ := toRat_of_isInteger h.1
  have hpos : 0 < shown.normalize.units := by
    have hle : ¬ (JsNumber.finite shown).toRat ≤ 0 := by
      intro hle
      have hval : (JsNumber.finite shown).le (.ofInt 0) = true :=
        (JsNumber.le_iff rfl rfl).mpr (by simpa [JsNumber.ofInt, JsNumber.toRat] using hle)
      simp [hval] at h
    rw [hrat] at hle
    exact_mod_cast not_le.mp hle
  have hnat : ((shown.normalize.units.toNat : Nat) : Int) = shown.normalize.units :=
    Int.toNat_of_nonneg hpos.le
  refine ⟨rfl, ?_, ?_⟩
  · rw [hrat, JsNumber.toNat]
    exact_mod_cast hnat.symm
  · rw [JsNumber.toNat]
    omega

theorem toRat_ofInt (n : Nat) : (JsNumber.ofInt n).toRat = n := by
  simp [JsNumber.ofInt, JsNumber.toRat]

theorem lt_period (h : isPeriod period = true) (n : Nat) :
    (JsNumber.ofInt n).lt period = true ↔ n < period.toNat := by
  obtain ⟨hfinite, hrat, -⟩ := period_toRat h
  rw [JsNumber.lt_iff rfl hfinite, toRat_ofInt, hrat]
  exact_mod_cast Iff.rfl

theorem le_period (h : isPeriod period = true) (n : Nat) :
    (JsNumber.ofInt n).le period = true ↔ n ≤ period.toNat := by
  obtain ⟨hfinite, hrat, -⟩ := period_toRat h
  rw [JsNumber.le_iff rfl hfinite, toRat_ofInt, hrat]
  exact_mod_cast Iff.rfl

theorem isSome_simpleMovingAverage (h : isPeriod period = true) (values : List JsNumber) :
    (simpleMovingAverage numbers values period).isSome = true ↔
      period.toNat ≤ values.length := by
  rw [simpleMovingAverage, h, Bool.not_true, Bool.false_or]
  by_cases hlt : (JsNumber.ofInt values.length).lt period = true
  · have hshort := (lt_period h _).mp hlt
    rw [if_pos hlt]
    simpa using hshort
  · have hlong := fun hn => hlt ((lt_period h _).mpr hn)
    rw [if_neg hlt]
    simpa using hlong

theorem isSome_bollingerBands (h : isPeriod period = true) (values : List JsNumber)
    (deviations : JsNumber) :
    (bollingerBands numbers values period deviations).isSome = true ↔
      period.toNat ≤ values.length := by
  rw [bollingerBands, Option.isSome_map]
  exact isSome_simpleMovingAverage h values

theorem isSome_supportResistance (h : isPeriod period = true) (candles : List StrategyCandle) :
    (supportResistance candles period).isSome = true ↔ period.toNat ≤ candles.length := by
  rw [supportResistance, h, Bool.not_true, Bool.false_or]
  by_cases hlt : (JsNumber.ofInt candles.length).lt period = true
  · have hshort := (lt_period h _).mp hlt
    rw [if_pos hlt]
    simpa using hshort
  · have hlong := fun hn => hlt ((lt_period h _).mpr hn)
    rw [if_neg hlt]
    simpa using hlong

theorem isSome_relativeStrengthIndex (h : isPeriod period = true) (values : List JsNumber) :
    (relativeStrengthIndex numbers values period).isSome = true ↔
      period.toNat + 1 ≤ values.length := by
  obtain ⟨-, -, hpos⟩ := period_toRat h
  rw [relativeStrengthIndex, h, Bool.not_true, Bool.false_or]
  by_cases hle : (JsNumber.ofInt values.length).le period = true
  · have hshort := (le_period h _).mp hle
    rw [if_pos hle]
    simp only [Option.isSome_none, Bool.false_eq_true, false_iff]
    omega
  · have hlong : ¬ values.length ≤ period.toNat := fun hn => hle ((le_period h _).mpr hn)
    have hsome : (values.drop (values.length - period.toNat - 1)) ≠ [] := by
      intro hnil
      have hdrop := List.drop_eq_nil_iff.mp hnil
      omega
    rw [if_neg hle]
    cases hwindow : values.drop (values.length - period.toNat - 1) with
    | nil => exact absurd hwindow hsome
    | cons previous window =>
      refine iff_of_true ?_ (by omega)
      dsimp only
      split
      · split <;> rfl
      · rfl

end

end Cryptox.Strategy
