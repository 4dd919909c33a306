import Cryptox.Backtesting.Contracts
import Cryptox.Library.DecimalDigits

/-!
# The arithmetic of numbers

Operations are rounded to the nearest double, and their results are the decimals that `String` prints
for them. Zero has no sign.
-/
namespace Cryptox.Backtesting

open Cryptox.Library

namespace JsNumber

/-- The decimal that `String` prints for a positive double. -/
def printed (x : ℚ) : Decimal :=
  let digits := shortestDigits x
  if 0 ≤ digits.2 then ⟨digits.1 * 10 ^ digits.2.toNat, 0⟩ else ⟨digits.1, (-digits.2).toNat⟩

def ofDouble (x : ℚ) : JsNumber :=
  if 2 ^ 1024 ≤ |x| then .infinity (x < 0)
  else if x = 0 then .finite ⟨0, 0⟩
  else if x < 0 then .finite ⟨-(printed (-x)).units, (printed (-x)).scale⟩
  else .finite (printed x)

/-- The nearest double. -/
def ofRat (x : ℚ) : JsNumber := ofDouble (roundDouble x)

/-- The double of a decimal. -/
def double (shown : Decimal) : ℚ := roundDouble shown.toRat

def negate : JsNumber → JsNumber
  | finite shown => finite ⟨-shown.units, shown.scale⟩
  | nan => nan
  | infinity negative => infinity !negative

def absolute : JsNumber → JsNumber
  | finite shown => finite shown.absolute
  | nan => nan
  | infinity _ => infinity false

def add : JsNumber → JsNumber → JsNumber
  | finite left, finite right => ofRat (double left + double right)
  | finite _, infinity negative | infinity negative, finite _ => infinity negative
  | infinity left, infinity right => if left = right then infinity left else nan
  | _, _ => nan

def subtract (left right : JsNumber) : JsNumber := left.add right.negate

def multiply : JsNumber → JsNumber → JsNumber
  | finite left, finite right => ofRat (double left * double right)
  | finite value, infinity negative | infinity negative, finite value =>
    if value.units = 0 then nan else infinity (negative != decide (value.units < 0))
  | infinity left, infinity right => infinity (left != right)
  | _, _ => nan

def divide : JsNumber → JsNumber → JsNumber
  | finite left, finite right =>
    if double right ≠ 0 then ofRat (double left / double right)
    else if double left = 0 then nan
    else infinity (left.units < 0)
  | finite _, infinity _ => ofInt 0
  | infinity negative, finite value => infinity (negative != decide (value.units < 0))
  | _, _ => nan

/-- `Math.floor` -/
def floor : JsNumber → JsNumber
  | finite shown => ofInt ⌊shown.toRat⌋
  | other => other

/-- `Math.round`, which rounds a half up. -/
def round : JsNumber → JsNumber
  | finite shown => ofInt ⌊shown.toRat + 1 / 2⌋
  | other => other

/-- `Math.max` and `Math.min` pass `NaN` on. -/
def mathMax (left right : JsNumber) : JsNumber :=
  if left = nan ∨ right = nan then nan else left.max right

def mathMin (left right : JsNumber) : JsNumber :=
  if left = nan ∨ right = nan then nan else left.min right

/-- `Number(value.toFixed(places))` -/
def toFixed (places : Nat) : JsNumber → JsNumber
  | finite shown =>
    if |double shown| < 10 ^ 21 then ofDouble (fixedValue places (double shown)) else finite shown
  | other => other

section Order

variable {left middle right : JsNumber}

theorem lt_eq_false_iff (hl : left.isFinite = true) (hr : right.isFinite = true) :
    right.lt left = false ↔ left.toRat ≤ right.toRat := by
  rw [Bool.eq_false_iff, ne_eq, lt_iff hr hl, not_lt]

/-- A bound that is no number below another lets every number from that one on pass. -/
theorem lt_eq_false_of_le (hl : left.isFinite = true) (hr : right.isFinite = true)
    (h : middle.le left = true) (hle : left.toRat ≤ right.toRat) : right.lt middle = false := by
  cases middle with
  | finite shown => exact (lt_eq_false_iff rfl hr).mpr (((le_iff rfl hl).mp h).trans hle)
  | nan => cases h
  | infinity negative => cases left <;> cases right <;> simp_all [le, lt, isFinite]

theorem lt_eq_false_of_ge (hl : left.isFinite = true) (hr : right.isFinite = true)
    (h : right.le middle = true) (hle : left.toRat ≤ right.toRat) : middle.lt left = false := by
  cases middle with
  | finite shown => exact (lt_eq_false_iff hl rfl).mpr (hle.trans ((le_iff hr rfl).mp h))
  | nan => cases right <;> cases h
  | infinity negative => cases left <;> cases right <;> simp_all [le, lt, isFinite]

theorem toRat_lt_of_below (hl : left.isFinite = true) (hr : right.isFinite = true)
    (h : left.lt middle = true) (hnot : right.lt middle = false) : left.toRat < right.toRat := by
  cases middle with
  | finite shown => exact lt_of_lt_of_le ((lt_iff hl rfl).mp h) ((lt_eq_false_iff rfl hr).mp hnot)
  | nan => cases left <;> cases h
  | infinity negative => cases left <;> cases right <;> simp_all [lt, isFinite]

theorem toRat_lt_of_above (hl : left.isFinite = true) (hr : right.isFinite = true)
    (h : middle.lt right = true) (hnot : middle.lt left = false) : left.toRat < right.toRat := by
  cases middle with
  | finite shown => exact lt_of_le_of_lt ((lt_eq_false_iff hl rfl).mp hnot) ((lt_iff rfl hr).mp h)
  | nan => cases right <;> cases h
  | infinity negative => cases left <;> cases right <;> simp_all [lt, isFinite]

end Order

/-! What is printed for a double. -/

theorem printed_toRat (x : ℚ) :
    (printed x).toRat = (shortestDigits x).1 * 10 ^ (shortestDigits x).2 := by
  unfold printed
  generalize shortestDigits x = digits
  obtain ⟨units, exponent⟩ := digits
  dsimp only
  split_ifs with hexp
  · obtain ⟨n, rfl⟩ := Int.eq_ofNat_of_zero_le hexp
    rw [Decimal.toRat]
    simp
  · obtain ⟨n, hn⟩ := Int.eq_ofNat_of_zero_le (show 0 ≤ -exponent by omega)
    obtain rfl : exponent = -n := by omega
    rw [Decimal.toRat, neg_neg, Int.toNat_natCast, zpow_neg, zpow_natCast, div_eq_mul_inv]
    push_cast
    rfl

theorem toRat_negated (shown : Decimal) :
    (⟨-shown.units, shown.scale⟩ : Decimal).toRat = -shown.toRat := by
  rw [Decimal.toRat, Decimal.toRat, Int.cast_neg, neg_div]

theorem abs_lt_of_isDouble {x : ℚ} (h : IsDouble x) : |x| < 2 ^ 1024 := by
  obtain ⟨m, e, hm, -, he, rfl⟩ := h
  have hpos : (0 : ℚ) < 2 ^ e := by positivity
  have hm' : (|m| : ℚ) < 2 ^ 53 := by exact_mod_cast hm
  have hexp : (2 : ℚ) ^ e ≤ 2 ^ (971 : ℤ) := zpow_le_zpow_right₀ (by norm_num) he
  rw [abs_mul, abs_of_pos hpos]
  calc (|(m : ℚ)|) * 2 ^ e < 2 ^ 53 * 2 ^ e := by gcongr
    _ ≤ 2 ^ 53 * 2 ^ (971 : ℤ) := by gcongr
    _ = 2 ^ 1024 := by
      rw [← zpow_natCast, ← zpow_add₀ (by norm_num), ← zpow_natCast]
      norm_num

/-- A double is a finite number, whose decimal is that of its digits with its sign. -/
theorem ofDouble_eq {x : ℚ} (h : IsDouble x) :
    ∃ shown, ofDouble x = .finite shown ∧ (x = 0 → shown.toRat = 0) ∧
      (0 < x → shown.toRat = (printed x).toRat) ∧ (x < 0 → shown.toRat = -(printed (-x)).toRat) := by
  have hrange := not_le.mpr (abs_lt_of_isDouble h)
  rw [ofDouble, if_neg hrange]
  split_ifs with hzero hneg
  · refine ⟨_, rfl, fun _ => ?_, fun hpos => ?_, fun hneg => ?_⟩
    · rw [Decimal.toRat, Int.cast_zero, zero_div]
    · linarith
    · linarith
  · exact ⟨_, rfl, fun h0 => absurd h0 hzero, fun hpos => by linarith,
      fun _ => toRat_negated _⟩
  · exact ⟨_, rfl, fun h0 => absurd h0 hzero, fun _ => rfl, fun h0 => absurd h0 hneg⟩

/-- The decimal that is printed denotes the double. -/
theorem double_ofDouble {x : ℚ} (h : IsDouble x) :
    ∃ shown, ofDouble x = .finite shown ∧ double shown = x := by
  obtain ⟨shown, hshown, hzero, hpos, hneg⟩ := ofDouble_eq h
  refine ⟨shown, hshown, ?_⟩
  rcases lt_trichotomy x 0 with hx | hx | hx
  · rw [double, hneg hx, roundDouble_neg, printed_toRat,
      roundDouble_shortestDigits h.neg (by linarith), neg_neg]
  · rw [double, hzero hx, roundDouble_zero, hx]
  · rw [double, hpos hx, printed_toRat, roundDouble_shortestDigits h hx]

section Grid

variable {q : ℚ} {m : ℤ} {k : ℕ}

/-- A positive decimal of few digits is not rounded to zero. -/
theorem roundDouble_grid_pos (hq : q = m / 10 ^ k) (hpos : 0 < q)
    (hsmall : 4 * (|q| + 1) * 10 ^ k ≤ 2 ^ 53) : 0 < roundDouble q := by
  have hten : (0 : ℚ) < 10 ^ k := by positivity
  have hm : (1 : ℚ) ≤ m := by
    rw [hq, lt_div_iff₀ hten, zero_mul] at hpos
    exact_mod_cast Int.add_one_le_of_lt (by exact_mod_cast hpos : 0 < m)
  have htiny : (2 : ℚ) ^ (-53 : ℤ) ≤ q := by
    have habs := abs_nonneg q
    have hten' : (10 : ℚ) ^ k ≤ 2 ^ 53 := by nlinarith
    rw [hq, zpow_neg, ← one_div]
    exact div_le_div₀ (by linarith) hm hten (by exact_mod_cast hten')
  have hdouble : IsDouble (2 ^ (-53 : ℤ)) :=
    ⟨1, -53, by norm_num, by norm_num, by norm_num, by norm_num⟩
  exact lt_of_lt_of_le (by positivity) (le_roundDouble hdouble htiny)

/-- The digits that are printed for the double nearest to a decimal of few digits are its own. -/
theorem printed_roundDouble (hq : q = m / 10 ^ k) (hm : 2 ≤ |m|) (hk : k ≤ 1000) (hpos : 0 < q)
    (hsmall : 4 * (|q| + 1) * 10 ^ k ≤ 2 ^ 53) : (printed (roundDouble q)).toRat = q := by
  have hm0 : (0 : ℚ) < m := by
    rw [hq, lt_div_iff₀ (by positivity), zero_mul] at hpos
    exact hpos
  have hm1 : 0 < m := by exact_mod_cast hm0
  obtain ⟨n, rfl⟩ := Int.eq_ofNat_of_zero_le hm1.le
  rw [abs_of_pos hpos] at hsmall
  rw [abs_of_pos hm1] at hm
  rw [printed_toRat]
  exact shortestDigits_of_grid (n := n) (by omega) (by rw [hq, Int.cast_natCast]) hk hsmall

/-- The number nearest to a decimal of few digits is shown as it. -/
theorem ofRat_onGrid (hq : q = m / 10 ^ k) (hm : m = 0 ∨ 2 ≤ |m|) (hk : k ≤ 1000)
    (hsmall : 4 * (|q| + 1) * 10 ^ k ≤ 2 ^ 53) :
    ∃ shown, ofRat q = .finite shown ∧ shown.toRat = q := by
  have hdouble : IsDouble (roundDouble q) := by
    apply isDouble_roundDouble
    have hone : (1 : ℚ) ≤ 10 ^ k := one_le_pow₀ (by norm_num)
    have habs := abs_nonneg q
    calc |q| ≤ 4 * (|q| + 1) * 1 := by linarith
      _ ≤ 4 * (|q| + 1) * 10 ^ k := by gcongr
      _ ≤ 2 ^ 53 := hsmall
      _ < 2 ^ 1000 := pow_lt_pow_right₀ (by norm_num) (by norm_num)
  obtain ⟨shown, hshown, hzero, hpositive, hnegative⟩ := ofDouble_eq hdouble
  refine ⟨shown, hshown, ?_⟩
  rcases lt_trichotomy q 0 with hq0 | hq0 | hq0
  · have hneg : -q = (-m : ℤ) / 10 ^ k := by
      rw [hq]
      push_cast
      ring
    have hsmall' : 4 * (|-q| + 1) * 10 ^ k ≤ 2 ^ 53 := by rwa [abs_neg]
    have hm2 : 2 ≤ |-m| := by
      rw [abs_neg]
      refine hm.resolve_left fun hzero => ?_
      rw [hq, hzero, Int.cast_zero, zero_div] at hq0
      exact lt_irrefl _ hq0
    have hround := roundDouble_grid_pos hneg (by linarith) hsmall'
    rw [roundDouble_neg] at hround
    rw [hnegative (by linarith), ← roundDouble_neg,
      printed_roundDouble hneg hm2 hk (by linarith) hsmall', neg_neg]
  · rw [hzero (by rw [hq0, roundDouble_zero]), hq0]
  · have hm2 : 2 ≤ |m| := by
      refine hm.resolve_left fun hzero => ?_
      rw [hq, hzero, Int.cast_zero, zero_div] at hq0
      exact lt_irrefl _ hq0
    rw [hpositive (roundDouble_grid_pos hq hq0 hsmall), printed_roundDouble hq hm2 hk hq0 hsmall]

end Grid

section Progression

variable {first step : Decimal} {index : Nat}

/-- The product and the sum of a progression stay small, and its three roundings move it little. -/
theorem progression_bounds (hfirst : |first.toRat| ≤ 100) (hstep : |step.toRat| ≤ 1)
    (hindex : index ≤ 100) :
    |index * double step| ≤ 1000 ∧ |double first + roundDouble (index * double step)| ≤ 1000 ∧
      |roundDouble (double first + roundDouble (index * double step))
        - (first.toRat + index * step.toRat)| ≤ 1000 / 2 ^ 53 := by
  have hn : (index : ℚ) ≤ 100 := by exact_mod_cast hindex
  have hn0 : (0 : ℚ) ≤ index := Nat.cast_nonneg _
  have hs : |double step - step.toRat| ≤ 1 / 2 ^ 53 := by
    refine (abs_roundDouble_sub_le_max _).trans ?_
    gcongr
    exact max_le hstep le_rfl
  have hf : |double first - first.toRat| ≤ 100 / 2 ^ 53 := by
    refine (abs_roundDouble_sub_le_max _).trans ?_
    gcongr
    exact max_le hfirst (by norm_num)
  have hprod : |index * double step - index * step.toRat| ≤ 100 / 2 ^ 53 := by
    rw [← mul_sub, abs_mul, abs_of_nonneg hn0]
    calc (index : ℚ) * |double step - step.toRat| ≤ 100 * (1 / 2 ^ 53) := by gcongr
      _ = 100 / 2 ^ 53 := by ring
  have hexact : |(index : ℚ) * step.toRat| ≤ 100 := by
    rw [abs_mul, abs_of_nonneg hn0]
    calc (index : ℚ) * |step.toRat| ≤ 100 * 1 := by gcongr
      _ = 100 := by ring
  rw [abs_le] at hf hprod hexact hfirst
  have hproduct : |index * double step| ≤ 101 := by
    rw [abs_le]
    constructor <;> linarith
  have hround : |roundDouble (index * double step) - index * double step| ≤ 101 / 2 ^ 53 := by
    refine (abs_roundDouble_sub_le_max _).trans ?_
    gcongr
    exact max_le hproduct (by norm_num)
  rw [abs_le] at hround
  have hsum : |double first + roundDouble (index * double step)| ≤ 203 := by
    rw [abs_le]
    constructor <;> linarith
  have hlast : |roundDouble (double first + roundDouble (index * double step))
      - (double first + roundDouble (index * double step))| ≤ 203 / 2 ^ 53 := by
    refine (abs_roundDouble_sub_le_max _).trans ?_
    gcongr
    exact max_le hsum (by norm_num)
  refine ⟨hproduct.trans (by norm_num), hsum.trans (by norm_num), ?_⟩
  rw [abs_le] at hlast ⊢
  constructor <;> linarith

theorem isDouble_of_abs_le {x : ℚ} (h : |x| ≤ 1000) : IsDouble (roundDouble x) := by
  apply isDouble_roundDouble
  calc |x| ≤ 2 ^ 10 := h.trans (by norm_num)
    _ < 2 ^ 1000 := pow_lt_pow_right₀ (by norm_num) (by norm_num)

/-- A step of a progression of few digits is shown as it, to twelve places. -/
theorem toFixed_progression {m : ℤ} {k : ℕ} (hfirst : |first.toRat| ≤ 100)
    (hstep : |step.toRat| ≤ 1) (hindex : index ≤ 100)
    (hq : first.toRat + index * step.toRat = m / 10 ^ k) (hm : m = 0 ∨ 2 ≤ |m|) (hk : k ≤ 12) :
    ∃ shown, ((finite first).add ((ofInt index).multiply (finite step))).toFixed 12 =
      .finite shown ∧ shown.toRat = first.toRat + index * step.toRat := by
  have hn : (index : ℚ) ≤ 100 := by exact_mod_cast hindex
  have hn0 : (0 : ℚ) ≤ index := Nat.cast_nonneg _
  obtain ⟨hproductSmall, hsumSmall, hnear⟩ := progression_bounds hfirst hstep hindex
  have hexact : |first.toRat + index * step.toRat| ≤ 200 := by
    have hmul : |(index : ℚ) * step.toRat| ≤ 100 := by
      rw [abs_mul, abs_of_nonneg hn0]
      calc (index : ℚ) * |step.toRat| ≤ 100 * 1 := by gcongr
        _ = 100 := by ring
    calc |first.toRat + index * step.toRat| ≤ |first.toRat| + |index * step.toRat| := abs_add_le _ _
      _ ≤ 200 := by linarith
  have hcount : double (Decimal.fromInteger (index : Int)) = index := by
    rw [double, Decimal.fromInteger_toRat]
    exact roundDouble_of_isDouble (by exact_mod_cast isDouble_natCast (by omega))
  obtain ⟨product, hproduct, hproductDouble⟩ := double_ofDouble (isDouble_of_abs_le hproductSmall)
  have hmul : (ofInt index).multiply (finite step) = finite product := by
    rw [ofInt, multiply, hcount]
    exact hproduct
  obtain ⟨sum, hsum, hsumDouble⟩ := double_ofDouble (isDouble_of_abs_le hsumSmall)
  have hadd : (finite first).add (finite product) = finite sum := by
    rw [add, hproductDouble]
    exact hsum
  generalize roundDouble (double first + roundDouble (index * double step)) = r at hnear hsumDouble
  rw [hmul, hadd, toFixed, hsumDouble]
  have hfixed : fixedValue 12 r = roundDouble (first.toRat + index * step.toRat) := by
    have hgrid : first.toRat + index * step.toRat = ((m * 10 ^ (12 - k) : ℤ) : ℚ) / 10 ^ 12 := by
      have hpow : (10 : ℚ) ^ 12 = 10 ^ k * 10 ^ (12 - k) := by rw [← pow_add]; congr 1; omega
      rw [hq, hpow]
      push_cast
      field_simp
    refine fixedValue_of_near hgrid (lt_of_le_of_lt hnear (by norm_num))
  have hrange : |r| < 10 ^ 21 := by
    rw [abs_le] at hnear hexact
    rw [abs_lt]
    constructor <;> linarith
  rw [if_pos hrange, hfixed, ← ofRat]
  refine ofRat_onGrid hq hm (by omega) ?_
  have hten : (10 : ℚ) ^ k ≤ 10 ^ 12 := pow_le_pow_right₀ (by norm_num) hk
  calc 4 * (|first.toRat + index * step.toRat| + 1) * 10 ^ k ≤ 4 * (200 + 1) * 10 ^ 12 := by gcongr
    _ ≤ 2 ^ 53 := by norm_num

end Progression

end JsNumber

/-- `Math.floor(random() * length)` -/
def randomIndex (random : ℚ) (length : Nat) : Nat := ⌊roundDouble (random * length)⌋.toNat

/-- A number that `random` may draw. -/
structure IsRandom (random : ℚ) : Prop where
  double : IsDouble random
  nonneg : 0 ≤ random
  lt_one : random < 1

end Cryptox.Backtesting
