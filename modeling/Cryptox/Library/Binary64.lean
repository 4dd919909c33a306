import Mathlib.Algebra.Order.Field.Power
import Mathlib.Data.Int.Log
import Mathlib.Data.Rat.Floor
import Mathlib.Tactic.FieldSimp
import Mathlib.Tactic.Linarith
import Mathlib.Tactic.NormNum
import Mathlib.Tactic.Ring

/-!
# Finite double-precision numbers

A finite double is kept as the rational number it denotes, so that its two zeros are one value.
`roundDouble` is the rounding of the arithmetic operations, to the nearest double and a tie to the
even one; it does not cut off above the largest double.
-/
namespace Cryptox.Library

/-- The values `m * 2 ^ e` of at most 53 binary digits. -/
def IsDouble (x : ℚ) : Prop :=
  ∃ m e : ℤ, |m| < 2 ^ 53 ∧ -1074 ≤ e ∧ e ≤ 971 ∧ x = m * 2 ^ e

structure Binary64 where
  toRat : ℚ
  isDouble : IsDouble toRat
deriving DecidableEq

theorem isDouble_intCast {n : ℤ} (h : |n| < 2 ^ 53) : IsDouble n :=
  ⟨n, 0, h, by norm_num, by norm_num, by simp⟩

/-- The integers of at most 53 binary digits. -/
def Binary64.ofInt (n : ℤ) (h : |n| < 2 ^ 53) : Binary64 := ⟨n, isDouble_intCast h⟩

theorem abs_one_lt : |(1 : ℤ)| < 2 ^ 53 := by norm_num

theorem abs_two_lt : |(2 : ℤ)| < 2 ^ 53 := by norm_num

section RoundEven

/-- The nearest integer, the even one of two that are equally near. -/
def roundEven (x : ℚ) : ℤ :=
  if x - ⌊x⌋ < 1 / 2 then ⌊x⌋
  else if 1 / 2 < x - ⌊x⌋ then ⌊x⌋ + 1
  else if ⌊x⌋ % 2 = 0 then ⌊x⌋
  else ⌊x⌋ + 1

@[simp] theorem roundEven_intCast (n : ℤ) : roundEven n = n := by
  rw [roundEven, Int.floor_intCast, sub_self, if_pos (by norm_num)]

theorem abs_roundEven_sub_le (x : ℚ) : |(roundEven x : ℚ) - x| ≤ 1 / 2 := by
  have hle := Int.floor_le x
  have hlt := Int.lt_floor_add_one x
  have hdown : x - ⌊x⌋ ≤ 1 / 2 → |((⌊x⌋ : ℤ) : ℚ) - x| ≤ 1 / 2 := fun h =>
    abs_le.mpr ⟨by linarith, by linarith⟩
  have hup : 1 / 2 ≤ x - ⌊x⌋ → |((⌊x⌋ + 1 : ℤ) : ℚ) - x| ≤ 1 / 2 := fun h => by
    push_cast
    exact abs_le.mpr ⟨by linarith, by linarith⟩
  rw [roundEven]
  split_ifs with hlow hhigh heven
  · exact hdown hlow.le
  · exact hup hhigh.le
  · exact hdown (not_lt.mp hhigh)
  · exact hup (not_lt.mp hlow)

end RoundEven

section RoundDouble

/-- The exponent of the last of the 53 binary digits of a value. -/
def lastBit (x : ℚ) : ℤ := max (-1074) (Int.log 2 |x| - 52)

def roundDouble (x : ℚ) : ℚ := roundEven (x / 2 ^ lastBit x) * 2 ^ lastBit x

theorem abs_roundDouble_sub_le (x : ℚ) : |roundDouble x - x| ≤ 2 ^ lastBit x / 2 := by
  have hpos : (0 : ℚ) < 2 ^ lastBit x := by positivity
  have hsplit : roundDouble x - x =
      ((roundEven (x / 2 ^ lastBit x) : ℚ) - x / 2 ^ lastBit x) * 2 ^ lastBit x := by
    rw [roundDouble]
    field_simp
  have hhalf := abs_roundEven_sub_le (x / 2 ^ lastBit x)
  rw [hsplit, abs_mul, abs_of_pos hpos]
  calc |(roundEven (x / 2 ^ lastBit x) : ℚ) - x / 2 ^ lastBit x| * 2 ^ lastBit x
      ≤ 1 / 2 * 2 ^ lastBit x := by gcongr
    _ = 2 ^ lastBit x / 2 := by ring

/-- A value of 53 digits has its last one no lower than `lastBit` says. -/
theorem lastBit_le {m e : ℤ} (hm : |m| < 2 ^ 53) (he : -1074 ≤ e) (hne : m ≠ 0) :
    lastBit (m * 2 ^ e) ≤ e := by
  rw [lastBit, max_le_iff]
  refine ⟨he, ?_⟩
  have hx : (0 : ℚ) < |(m : ℚ) * 2 ^ e| := by
    rw [abs_pos]
    exact mul_ne_zero (by exact_mod_cast hne) (by positivity)
  have hlog : Int.log 2 |(m : ℚ) * 2 ^ e| < e + 53 := by
    rw [← Int.lt_zpow_iff_log_lt (by norm_num) hx, abs_mul,
      abs_of_pos (by positivity : (0 : ℚ) < 2 ^ e)]
    have hcast : |(m : ℚ)| < 2 ^ (53 : ℤ) := by exact_mod_cast hm
    rw [Nat.cast_ofNat, zpow_add₀ (by norm_num), mul_comm]
    gcongr
  omega

theorem roundDouble_of_isDouble {x : ℚ} (h : IsDouble x) : roundDouble x = x := by
  obtain ⟨m, e, hm, he, -, rfl⟩ := h
  by_cases hne : m = 0
  · subst hne
    simp [roundDouble, roundEven]
  · have hle := lastBit_le hm he hne
    obtain ⟨k, hk⟩ := Int.eq_ofNat_of_zero_le (sub_nonneg.mpr hle)
    have hint : (m : ℚ) * 2 ^ e / 2 ^ lastBit (m * 2 ^ e) = ((m * 2 ^ k : ℤ) : ℚ) := by
      have hpow : (2 : ℚ) ^ e = 2 ^ k * 2 ^ lastBit (m * 2 ^ e) := by
        rw [← zpow_natCast, ← zpow_add₀ (by norm_num)]
        exact congrArg _ (by omega)
      generalize lastBit (m * 2 ^ e) = bit at hpow
      rw [hpow]
      push_cast
      field_simp
    rw [roundDouble, hint, roundEven_intCast, ← hint]
    field_simp

theorem IsDouble.neg {x : ℚ} (h : IsDouble x) : IsDouble (-x) := by
  obtain ⟨m, e, hm, he, he', rfl⟩ := h
  refine ⟨-m, e, by rwa [abs_neg], he, he', ?_⟩
  push_cast
  ring

/-- At its last binary digit a value has at most 53 of them. -/
theorem abs_roundEven_lastBit_le (x : ℚ) : |roundEven (x / 2 ^ lastBit x)| ≤ 2 ^ 53 := by
  have hpos : (0 : ℚ) < 2 ^ lastBit x := by positivity
  have hscaled : |x / 2 ^ lastBit x| < 2 ^ 53 := by
    rw [abs_div, abs_of_pos hpos, div_lt_iff₀ hpos]
    calc |x| < 2 ^ (Int.log 2 |x| + 1) := by
          exact_mod_cast Int.lt_zpow_succ_log_self (by norm_num : 1 < 2) |x|
      _ ≤ 2 ^ (53 + lastBit x) := by
        apply zpow_le_zpow_right₀ (by norm_num)
        have hbit := le_max_right (-1074) (Int.log 2 |x| - 52)
        rw [lastBit]
        omega
      _ = 2 ^ 53 * 2 ^ lastBit x := by
        rw [zpow_add₀ (by norm_num)]
        norm_num
  have hnear := abs_roundEven_sub_le (x / 2 ^ lastBit x)
  have hround : |((roundEven (x / 2 ^ lastBit x) : ℤ) : ℚ)| < 2 ^ 53 + 1 := by
    have htriangle := abs_sub_abs_le_abs_sub ((roundEven (x / 2 ^ lastBit x) : ℤ) : ℚ)
      (x / 2 ^ lastBit x)
    linarith
  have hint : |roundEven (x / 2 ^ lastBit x)| < 2 ^ 53 + 1 := by exact_mod_cast hround
  omega

theorem isDouble_roundDouble {x : ℚ} (h : |x| < 2 ^ 1000) : IsDouble (roundDouble x) := by
  have hle := abs_roundEven_lastBit_le x
  have hbit : -1074 ≤ lastBit x := le_max_left _ _
  have hbit' : lastBit x ≤ 970 := by
    rw [lastBit, max_le_iff]
    refine ⟨by norm_num, ?_⟩
    by_cases hx : |x| = 0
    · rw [hx, Int.log_zero_right]
      norm_num
    · have hlog := (Int.lt_zpow_iff_log_lt (b := 2) (x := 1000) (by norm_num)
        (lt_of_le_of_ne (abs_nonneg x) (Ne.symm hx))).mp (by exact_mod_cast h)
      omega
  rcases hle.lt_or_eq with hlt | heq
  · exact ⟨_, _, hlt, hbit, hbit'.trans (by norm_num), rfl⟩
  · -- a carry out of the first digit leaves a power of two
    have hcarry : ∀ m : ℤ, |m| = 2 ^ 53 → ∃ m' : ℤ, |m'| < 2 ^ 53 ∧ m = m' * 2 := by
      intro m hm
      rcases (abs_eq (by norm_num)).mp hm with rfl | rfl
      · exact ⟨2 ^ 52, by norm_num, by norm_num⟩
      · exact ⟨-2 ^ 52, by norm_num, by norm_num⟩
    obtain ⟨m', hm', hhalf⟩ := hcarry _ heq
    refine ⟨m', lastBit x + 1, hm', by omega, by omega, ?_⟩
    rw [roundDouble, hhalf, zpow_add₀ (by norm_num), zpow_one]
    push_cast
    ring

/-- An integer is rounded to an integer. -/
theorem roundDouble_intCast (n : ℤ) : ∃ k : ℤ, roundDouble n = k := by
  by_cases hbit : 0 ≤ lastBit (n : ℚ)
  · obtain ⟨i, hi⟩ := Int.eq_ofNat_of_zero_le hbit
    refine ⟨roundEven ((n : ℚ) / 2 ^ lastBit (n : ℚ)) * 2 ^ i, ?_⟩
    have hpow : (2 : ℚ) ^ lastBit (n : ℚ) = 2 ^ i := by rw [hi, zpow_natCast]
    rw [roundDouble, hpow]
    push_cast
    rfl
  · obtain ⟨i, hi⟩ := Int.eq_ofNat_of_zero_le (show 0 ≤ -lastBit (n : ℚ) by omega)
    refine ⟨n, ?_⟩
    have hpow : (2 : ℚ) ^ lastBit (n : ℚ) = (2 ^ i)⁻¹ := by
      rw [← zpow_natCast, ← zpow_neg, ← hi, neg_neg]
    have hexact : (n : ℚ) / 2 ^ lastBit (n : ℚ) = ((n * 2 ^ i : ℤ) : ℚ) := by
      rw [hpow, div_inv_eq_mul]
      push_cast
      rfl
    rw [roundDouble, hexact, roundEven_intCast, ← hexact]
    field_simp

end RoundDouble

end Cryptox.Library
