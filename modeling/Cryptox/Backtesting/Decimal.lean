import Cryptox.Library.HalfAway

/-!
# Decimals of the simulator

The simulator computes with a big integer and a number of decimal places. Every operation below
is exact except `round` and `divide`, which round half away from zero; `toRat` is the value.
-/
namespace Cryptox.Backtesting

open Cryptox.Library (roundedQuotient halfAway_div roundTo OnGrid onGrid_roundTo NearestAway
  nearestAway_roundTo)

structure Decimal where
  units : Int
  scale : Nat
deriving DecidableEq, Repr

namespace Decimal

def powerOfTen (exponent : Nat) : Int := ((10 ^ exponent : Nat) : Int)

/-- The source's loop: drop trailing zeros while decimal places remain. -/
def dropZeros : Int → Nat → Decimal
  | units, 0 => ⟨units, 0⟩
  | units, scale + 1 =>
    if units.tmod 10 = 0 then dropZeros (units.tdiv 10) scale else ⟨units, scale + 1⟩

def normalize (value : Decimal) : Decimal := dropZeros value.units value.scale

def fromInteger (value : Int) : Decimal := ⟨value, 0⟩

def add (left right : Decimal) : Decimal :=
  let scale := max left.scale right.scale
  normalize
    ⟨left.units * powerOfTen (scale - left.scale) + right.units * powerOfTen (scale - right.scale),
      scale⟩

def subtract (left right : Decimal) : Decimal := add left ⟨-right.units, right.scale⟩

def multiply (left right : Decimal) : Decimal :=
  normalize ⟨left.units * right.units, left.scale + right.scale⟩

def absolute (value : Decimal) : Decimal :=
  if value.units < 0 then ⟨-value.units, value.scale⟩ else value

def roundedDivision (numerator denominator : Int) : Except String Int :=
  if denominator = 0 then .error "INVALID_INPUT" else .ok (roundedQuotient numerator denominator)

/-- The divisor handed to the rounded division is a power of ten, so its zero check passes. -/
def round (value : Decimal) (scale : Nat) : Decimal :=
  if value.scale ≤ scale then ⟨value.units * powerOfTen (scale - value.scale), scale⟩
  else ⟨roundedQuotient value.units (powerOfTen (value.scale - scale)), scale⟩

def divide (left right : Decimal) (scale : Nat) : Except String Decimal :=
  let exponent : Int := right.scale + scale - left.scale
  let numerator := if exponent ≥ 0 then left.units * powerOfTen exponent.toNat else left.units
  let denominator := if exponent ≥ 0 then right.units else right.units * powerOfTen (-exponent).toNat
  (roundedDivision numerator denominator).map fun units => ⟨units, scale⟩

/-- The number a decimal denotes. -/
def toRat (value : Decimal) : ℚ := value.units / 10 ^ value.scale

theorem powerOfTen_cast (exponent : Nat) : (powerOfTen exponent : ℚ) = 10 ^ exponent := by
  simp [powerOfTen]

theorem powerOfTen_ne_zero (exponent : Nat) : powerOfTen exponent ≠ 0 := by
  simp [powerOfTen]

theorem toRat_pos (value : Decimal) : 0 < value.toRat ↔ 0 < value.units := by
  rw [toRat, div_pos_iff_of_pos_right (by positivity), Int.cast_pos]

theorem toRat_nonneg (value : Decimal) : 0 ≤ value.toRat ↔ 0 ≤ value.units := by
  rw [toRat, le_div_iff₀ (by positivity), zero_mul, Int.cast_nonneg_iff]

theorem toRat_eq_zero (value : Decimal) : value.toRat = 0 ↔ value.units = 0 := by
  rw [toRat, div_eq_zero_iff, or_iff_left (by positivity), Int.cast_eq_zero]

/-- Decimals with the same number of places compare by their units. -/
theorem units_le_iff {left right : Decimal} (h : left.scale = right.scale) :
    left.units ≤ right.units ↔ left.toRat ≤ right.toRat := by
  rw [toRat, toRat, h, div_le_div_iff_of_pos_right (by positivity), Int.cast_le]

theorem dropZeros_toRat (units : Int) (scale : Nat) :
    (dropZeros units scale).toRat = units / 10 ^ scale := by
  induction scale generalizing units with
  | zero => rfl
  | succ scale ih =>
    rw [dropZeros]
    split
    · rename_i hzero
      have hunits : (units : ℚ) = 10 * units.tdiv 10 := by
        exact_mod_cast (Int.mul_tdiv_cancel_of_tmod_eq_zero hzero).symm
      rw [ih, hunits, pow_succ]
      field_simp
    · rfl

@[simp] theorem normalize_toRat (value : Decimal) : value.normalize.toRat = value.toRat :=
  dropZeros_toRat value.units value.scale

@[simp] theorem fromInteger_toRat (value : Int) : (fromInteger value).toRat = value := by
  simp [fromInteger, toRat]

private theorem shift_toRat {units : Int} {scale wide : Nat} (h : scale ≤ wide) :
    (units : ℚ) * 10 ^ (wide - scale) / 10 ^ wide = units / 10 ^ scale := by
  have hsplit : (10 : ℚ) ^ wide = 10 ^ scale * 10 ^ (wide - scale) := by
    rw [← pow_add, Nat.add_sub_cancel' h]
  rw [hsplit]
  field_simp

@[simp] theorem add_toRat (left right : Decimal) :
    (left.add right).toRat = left.toRat + right.toRat := by
  rw [add, normalize_toRat, toRat]
  push_cast [powerOfTen_cast]
  rw [add_div, shift_toRat (le_max_left ..), shift_toRat (le_max_right ..)]
  rfl

@[simp] theorem subtract_toRat (left right : Decimal) :
    (left.subtract right).toRat = left.toRat - right.toRat := by
  rw [subtract, add_toRat]
  simp only [toRat, Int.cast_neg]
  ring

@[simp] theorem multiply_toRat (left right : Decimal) :
    (left.multiply right).toRat = left.toRat * right.toRat := by
  rw [multiply, normalize_toRat]
  simp only [toRat, Int.cast_mul, pow_add]
  ring

@[simp] theorem absolute_toRat (value : Decimal) : value.absolute.toRat = |value.toRat| := by
  unfold absolute
  split
  · rename_i hneg
    have hrat : ¬ 0 ≤ value.toRat := by rw [toRat_nonneg]; omega
    rw [abs_of_neg (not_le.mp hrat)]
    simp only [toRat, Int.cast_neg]
    ring
  · rename_i hpos
    rw [abs_of_nonneg ((toRat_nonneg value).mpr (by omega))]

theorem roundedDivision_of_ne_zero (numerator : Int) {denominator : Int} (h : denominator ≠ 0) :
    roundedDivision numerator denominator = .ok (roundedQuotient numerator denominator) :=
  if_neg h

/-- Rounding a decimal rounds its value. -/
@[simp] theorem round_toRat (value : Decimal) (scale : Nat) :
    (value.round scale).toRat = roundTo scale value.toRat := by
  unfold round
  split
  · rename_i hle
    have hexact : value.toRat
        = ((value.units * powerOfTen (scale - value.scale) : ℤ) : ℚ) / 10 ^ scale := by
      push_cast [powerOfTen_cast]
      exact (shift_toRat hle).symm
    have hgrid : OnGrid scale value.toRat := ⟨_, hexact⟩
    rw [hgrid.roundTo_eq, hexact]
    rfl
  · rename_i hgt
    have hshift : value.toRat * 10 ^ scale = (value.units : ℚ) / powerOfTen (value.scale - scale) := by
      have hsplit : (10 : ℚ) ^ value.scale = 10 ^ scale * 10 ^ (value.scale - scale) := by
        rw [← pow_add, Nat.add_sub_cancel' (by omega)]
      rw [toRat, powerOfTen_cast, hsplit]
      field_simp
    rw [roundTo, hshift, halfAway_div _ (powerOfTen_ne_zero _)]
    rfl

@[simp] theorem round_scale (value : Decimal) (scale : Nat) : (value.round scale).scale = scale := by
  unfold round
  split <;> rfl

theorem round_onGrid (value : Decimal) (scale : Nat) : OnGrid scale (value.round scale).toRat := by
  rw [round_toRat]
  exact onGrid_roundTo scale _

/-- Sums and differences of cents are cents, so rounding them to cents is exact. -/
theorem round_add_toRat {left right : Decimal} {scale : Nat} (hl : OnGrid scale left.toRat)
    (hr : OnGrid scale right.toRat) :
    ((left.add right).round scale).toRat = left.toRat + right.toRat := by
  rw [round_toRat, add_toRat]
  exact (hl.add hr).roundTo_eq

theorem round_subtract_subtract_toRat {value left right : Decimal} {scale : Nat}
    (hv : OnGrid scale value.toRat) (hl : OnGrid scale left.toRat)
    (hr : OnGrid scale right.toRat) :
    (((value.subtract left).subtract right).round scale).toRat
      = value.toRat - left.toRat - right.toRat := by
  rw [round_toRat, subtract_toRat, subtract_toRat]
  exact ((hv.sub hl).sub hr).roundTo_eq

private theorem div_shift {l r : ℚ} {a b s : Nat} (h : a ≤ b + s) :
    l * 10 ^ (b + s - a) / r = l / 10 ^ a / (r / 10 ^ b) * 10 ^ s := by
  have hsplit : (10 : ℚ) ^ b * 10 ^ s = 10 ^ a * 10 ^ (b + s - a) := by
    rw [← pow_add, ← pow_add, Nat.add_sub_cancel' h]
  have ha : (10 : ℚ) ^ a ≠ 0 := by positivity
  rw [div_div_eq_mul_div, div_mul_eq_mul_div, div_mul_eq_mul_div, div_mul_eq_mul_div, mul_assoc,
    hsplit, mul_comm ((10 : ℚ) ^ a), ← mul_assoc, mul_div_cancel_right₀ _ ha]

private theorem div_shift_neg {l r : ℚ} {a b s : Nat} (h : b + s ≤ a) :
    l / (r * 10 ^ (a - (b + s))) = l / 10 ^ a / (r / 10 ^ b) * 10 ^ s := by
  have hsplit : (10 : ℚ) ^ a = 10 ^ b * 10 ^ s * 10 ^ (a - (b + s)) := by
    rw [← pow_add, ← pow_add, Nat.add_sub_cancel' h]
  rw [hsplit]
  by_cases hr : r = 0
  · simp [hr]
  · field_simp

/-- Division by zero throws; every other quotient is rounded to the requested places. -/
theorem divide_eq_ok (left : Decimal) {right : Decimal} (scale : Nat) (h : right.units ≠ 0) :
    ∃ quotient, divide left right scale = .ok quotient ∧
      quotient.toRat = roundTo scale (left.toRat / right.toRat) := by
  unfold divide
  by_cases hexp : (right.scale + scale - left.scale : Int) ≥ 0
  · have hnat : (right.scale + scale - left.scale : Int).toNat = right.scale + scale - left.scale := by
      omega
    have hle : left.scale ≤ right.scale + scale := by omega
    simp only [if_pos hexp, hnat, roundedDivision_of_ne_zero _ h]
    have hvalue : ((left.units * powerOfTen (right.scale + scale - left.scale) : ℤ) : ℚ) / right.units
        = left.toRat / right.toRat * 10 ^ scale := by
      push_cast [powerOfTen_cast]
      exact div_shift hle
    refine ⟨_, rfl, ?_⟩
    rw [roundTo, ← hvalue, halfAway_div _ h]
    rfl
  · have hnat : (-(right.scale + scale - left.scale : Int)).toNat
        = left.scale - (right.scale + scale) := by omega
    have hle : right.scale + scale ≤ left.scale := by omega
    have hden := mul_ne_zero h (powerOfTen_ne_zero (left.scale - (right.scale + scale)))
    simp only [if_neg hexp, hnat, roundedDivision_of_ne_zero _ hden]
    have hvalue : (left.units : ℚ)
        / ((right.units * powerOfTen (left.scale - (right.scale + scale)) : ℤ) : ℚ)
        = left.toRat / right.toRat * 10 ^ scale := by
      push_cast [powerOfTen_cast]
      exact div_shift_neg hle
    refine ⟨_, rfl, ?_⟩
    rw [roundTo, ← hvalue, halfAway_div _ hden]
    rfl

theorem divide_zero {left right : Decimal} {scale : Nat} (h : right.units = 0) :
    divide left right scale = .error "INVALID_INPUT" := by
  simp [divide, roundedDivision, h, Except.map]

theorem divide_toRat {left right quotient : Decimal} {scale : Nat}
    (h : divide left right scale = .ok quotient) :
    quotient.toRat = roundTo scale (left.toRat / right.toRat) := by
  by_cases hzero : right.units = 0
  · rw [divide_zero hzero] at h
    cases h
  · obtain ⟨q, hq, hrat⟩ := divide_eq_ok left scale hzero
    rw [hq] at h
    cases h
    exact hrat

theorem divide_scale {left right quotient : Decimal} {scale : Nat}
    (h : divide left right scale = .ok quotient) : quotient.scale = scale := by
  unfold divide at h
  dsimp only at h
  generalize roundedDivision _ _ = rounded at h
  cases rounded with
  | error => cases h
  | ok units =>
    cases h
    rfl

theorem divide_error_iff {left right : Decimal} {scale : Nat} :
    divide left right scale = .error "INVALID_INPUT" ↔ right.toRat = 0 := by
  rw [toRat_eq_zero]
  constructor
  · intro herror
    by_contra hne
    obtain ⟨quotient, hok, -⟩ := divide_eq_ok left scale hne
    rw [hok] at herror
    cases herror
  · exact divide_zero

/-- Sums, differences and products are exact; `round` and `divide` give the nearest multiple of the
target scale, a tie going away from zero, and only a divisor of zero is refused. -/
theorem decimal_arithmetic_exact (left right : Decimal) (scale : Nat) :
    (left.add right).toRat = left.toRat + right.toRat ∧
      (left.subtract right).toRat = left.toRat - right.toRat ∧
      (left.multiply right).toRat = left.toRat * right.toRat ∧
      ((left.round scale).scale = scale ∧
        NearestAway scale left.toRat (left.round scale).toRat) ∧
      (divide left right scale = .error "INVALID_INPUT" ↔ right.toRat = 0) ∧
      (right.toRat ≠ 0 → ∃ quotient, divide left right scale = .ok quotient ∧
        quotient.scale = scale ∧ NearestAway scale (left.toRat / right.toRat) quotient.toRat) := by
  refine ⟨add_toRat left right, subtract_toRat left right, multiply_toRat left right,
    ⟨round_scale left scale, ?_⟩, divide_error_iff, fun hne => ?_⟩
  · rw [round_toRat]
    exact nearestAway_roundTo scale _
  · obtain ⟨quotient, hok, hvalue⟩ := divide_eq_ok left scale (mt (toRat_eq_zero right).mpr hne)
    refine ⟨quotient, hok, divide_scale hok, ?_⟩
    rw [hvalue]
    exact nearestAway_roundTo scale _

end Decimal

end Cryptox.Backtesting
