import Cryptox.Library.RoundingBounds

/-!
# Decimals that doubles tell apart

A decimal of few digits is what is printed for its nearest double: no other decimal with as many
places is near enough. And a number below one, times a natural number, is rounded to less than it.
-/
namespace Cryptox.Library

theorem roundEven_neg (x : ℚ) : roundEven (-x) = -roundEven x := by
  by_cases hinteger : (⌊x⌋ : ℚ) = x
  · have hneg : -x = ((-⌊x⌋ : ℤ) : ℚ) := by rw [Int.cast_neg, hinteger]
    rw [hneg, roundEven_intCast]
    conv_rhs => rw [← hinteger, roundEven_intCast]
  · have hfloor : ⌊-x⌋ = -⌊x⌋ - 1 := by
      have hlt : (⌊x⌋ : ℚ) < x := lt_of_le_of_ne (Int.floor_le x) hinteger
      have hnext := Int.lt_floor_add_one x
      rw [Int.floor_eq_iff]
      push_cast
      constructor <;> linarith
    have hfraction : -x - ((-⌊x⌋ - 1 : ℤ) : ℚ) = 1 - (x - ⌊x⌋) := by
      push_cast
      ring
    unfold roundEven
    rw [hfloor, hfraction]
    rcases lt_trichotomy (x - ⌊x⌋) (1 / 2) with hlow | htie | hhigh
    · rw [if_neg (by linarith), if_pos (by linarith), if_pos hlow]
      ring
    · have hhalf : 1 - (1 / 2 : ℚ) = 1 / 2 := by norm_num
      rw [htie, hhalf]
      simp only [lt_irrefl, if_false]
      split_ifs <;> omega
    · rw [if_pos (by linarith), if_neg (by linarith), if_pos hhigh]
      ring

@[simp] theorem roundDouble_neg (x : ℚ) : roundDouble (-x) = -roundDouble x := by
  rw [roundDouble, roundDouble, lastBit, abs_neg, ← lastBit, neg_div, roundEven_neg]
  push_cast
  ring

section Grid

variable {x q : ℚ} {target scale : ℤ} {turns n : Nat}

/-- A multiple that is rounded to a value and lies next to it is found at its scale. -/
theorem denotedAt_isSome_of_near (hround : roundDouble (n * 10 ^ target) = x)
    (hnear : |(n : ℚ) * 10 ^ target - x| < 10 ^ target) (hn : 0 < n) :
    (denotedAt x target).isSome = true := by
  have hpos : (0 : ℚ) < 10 ^ target := by positivity
  obtain ⟨hlow, hhigh⟩ := abs_lt.mp hnear
  have habove : (n : ℚ) - 1 < x / 10 ^ target := by
    rw [lt_div_iff₀ hpos]
    linarith
  have hbelow : x / 10 ^ target < n + 1 := by
    rw [div_lt_iff₀ hpos]
    linarith
  have hfloor : ⌊x / 10 ^ target⌋ = n ∨ ⌊x / 10 ^ target⌋ = n - 1 := by
    have hlt : ⌊x / 10 ^ target⌋ < n + 1 := Int.floor_lt.mpr (by exact_mod_cast hbelow)
    have hle : (n : ℤ) - 1 ≤ ⌊x / 10 ^ target⌋ := Int.le_floor.mpr (by push_cast; exact habove.le)
    omega
  simp only [denotedAt]
  rcases hfloor with hfloor | hfloor
  · rw [hfloor, Int.toNat_natCast, if_pos hround]
    split <;> rfl
  · have hnat : ((n : ℤ) - 1).toNat + 1 = n := by omega
    rw [hfloor, hnat]
    split
    · split <;> rfl
    · rfl

theorem le_scale_searchDigits (h : (denotedAt x target).isSome = true) (htarget : target ≤ scale)
    (hturns : scale - target ≤ turns) : target ≤ (searchDigits x turns scale).2 := by
  induction turns generalizing scale with
  | zero => exact htarget
  | succ turns ih =>
    rw [searchDigits]
    cases hdenoted : denotedAt x scale with
    | some units => exact htarget
    | none =>
      have hne : scale ≠ target := by
        rintro rfl
        rw [hdenoted] at h
        cases h
      exact ih (by omega) (by push_cast at hturns; omega)

theorem le_scale_shortestDigits (h : (denotedAt x target).isSome = true)
    (htarget : target ≤ Int.log 10 x) (hlow : -1074 ≤ target) : target ≤ (shortestDigits x).2 := by
  have hfound := le_scale_searchDigits h htarget
    (show Int.log 10 x - target ≤ ((Int.log 10 x + 1074).toNat : ℤ) by omega)
  rw [shortestDigits]
  split
  · exact hfound.trans (Int.le_add_one le_rfl)
  · exact hfound

/-- Two multiples that are closer than a unit are the same. -/
theorem eq_of_near_multiples {m : ℤ} {k : ℕ} {y : ℚ} (hm : y = m / 10 ^ k) (hq : q = n / 10 ^ k)
    (hnear : |y - q| < 1 / 10 ^ k) : y = q := by
  have hpos : (0 : ℚ) < 10 ^ k := by positivity
  rw [hm, hq, ← sub_div, abs_div, abs_of_pos hpos, div_lt_div_iff_of_pos_right hpos] at hnear
  have hsame : m - n = 0 := by
    rw [← Int.abs_lt_one_iff]
    exact_mod_cast hnear
  rw [hm, hq, sub_eq_zero.mp hsame]
  norm_num

/-- The digits that are printed for a decimal of few digits are its own. -/
theorem shortestDigits_of_grid {k : ℕ} (hn : 2 ≤ n) (hq : q = n / 10 ^ k) (hk : k ≤ 1000)
    (hsmall : 4 * (q + 1) * 10 ^ k ≤ 2 ^ 53) :
    ((shortestDigits (roundDouble q)).1 : ℚ) * 10 ^ (shortestDigits (roundDouble q)).2 = q := by
  have hpos : (0 : ℚ) < 10 ^ k := by positivity
  have hbig : (0 : ℚ) < 2 ^ 53 := by positivity
  have hq0 : 0 < q := by
    rw [hq]
    have hn0 : (0 : ℚ) < n := by exact_mod_cast (by omega : 0 < n)
    positivity
  have hunit : (1 : ℚ) / 10 ^ k = 10 ^ (-(k : ℤ)) := by rw [zpow_neg, zpow_natCast, one_div]
  have hquarter : (q + 1) / 2 ^ 53 ≤ 1 / 10 ^ k / 4 := by
    rw [div_div, div_le_div_iff₀ hbig (by positivity)]
    linarith
  have herror : |roundDouble q - q| ≤ (q + 1) / 2 ^ 53 := by
    refine (abs_roundDouble_sub_le_max q).trans ?_
    gcongr
    rw [abs_of_pos hq0]
    exact max_le (by linarith) (by linarith)
  have htwo : 2 * (1 / 10 ^ k) ≤ q := by
    have hn2 : (2 : ℚ) ≤ n := by exact_mod_cast hn
    rw [hq, mul_one_div]
    gcongr
  obtain ⟨hlow, hhigh⟩ := abs_le.mp herror
  generalize hx : roundDouble q = x at herror hlow hhigh
  have hx0 : 1 / 10 ^ k ≤ x := by linarith
  have hxpos : 0 < x := lt_of_lt_of_le (by positivity) hx0
  have hdouble : IsDouble x := by
    rw [← hx]
    apply isDouble_roundDouble
    rw [abs_of_pos hq0]
    have hone : (1 : ℚ) ≤ 10 ^ k := one_le_pow₀ (by norm_num)
    calc q ≤ 4 * (q + 1) * 1 := by linarith
      _ ≤ 4 * (q + 1) * 10 ^ k := by gcongr
      _ ≤ 2 ^ 53 := hsmall
      _ < 2 ^ 1000 := pow_lt_pow_right₀ (by norm_num) (by norm_num)
  have hfound : (denotedAt x (-(k : ℤ))).isSome = true := by
    have hmultiple : (n : ℚ) * 10 ^ (-(k : ℤ)) = q := by
      rw [hq, zpow_neg, zpow_natCast, div_eq_mul_inv]
    apply denotedAt_isSome_of_near (by rw [hmultiple, hx]) _ (by omega)
    rw [hmultiple, abs_sub_comm, ← hunit]
    have hten : (0 : ℚ) < 1 / 10 ^ k := by positivity
    linarith
  have hlog : -(k : ℤ) ≤ Int.log 10 x := by
    rw [Int.zpow_le_iff_le_log (by norm_num) hxpos |>.symm]
    push_cast
    rw [← hunit]
    exact hx0
  have hscale := le_scale_shortestDigits hfound hlog (by omega)
  have hsame := roundDouble_shortestDigits hdouble hxpos
  generalize shortestDigits x = digits at hscale hsame
  obtain ⟨units, exponent⟩ := digits
  dsimp only at hscale hsame ⊢
  have hy0 : (0 : ℚ) ≤ units * 10 ^ exponent := by positivity
  -- the printed decimal is as near to the double as any that is rounded to it
  have hy := abs_roundDouble_sub_le_max ((units : ℚ) * 10 ^ exponent)
  rw [hsame, abs_of_nonneg hy0] at hy
  have hmax : max ((units : ℚ) * 10 ^ exponent) 1 ≤ units * 10 ^ exponent + 1 :=
    max_le (by linarith) (by linarith)
  have hy' : |x - units * 10 ^ exponent| ≤ (units * 10 ^ exponent + 1) / 2 ^ 53 :=
    hy.trans (by gcongr)
  generalize hvalue : (units : ℚ) * 10 ^ exponent = y at hy0 hy hy' hmax
  obtain ⟨hylow, hyhigh⟩ := abs_le.mp hy'
  have hbound : y ≤ 2 * q + 2 := by
    have hx1 : x ≤ q + (q + 1) / 2 ^ 53 := by linarith
    rw [le_div_iff₀ hbig] at *
    nlinarith
  obtain ⟨d, hd⟩ := Int.eq_ofNat_of_zero_le (show 0 ≤ exponent + k by omega)
  refine eq_of_near_multiples (m := units * 10 ^ d) ?_ hq ?_
  · rw [← hvalue]
    have hexp : exponent = d - k := by omega
    rw [hexp, zpow_sub₀ (by norm_num), zpow_natCast, zpow_natCast]
    push_cast
    ring
  · have htriangle : |y - q| ≤ |x - y| + |x - q| := by
      rw [abs_sub_comm x y]
      exact abs_sub_le y x q
    have hsum : |x - y| + |x - q| ≤ (y + 1) / 2 ^ 53 + (q + 1) / 2 ^ 53 := add_le_add hy' herror
    have hlt : (y + 1) / 2 ^ 53 + (q + 1) / 2 ^ 53 < 4 * ((q + 1) / 2 ^ 53) := by
      rw [← add_div, mul_div_assoc', div_lt_div_iff_of_pos_right hbig]
      linarith
    linarith

end Grid

section Fixed

variable {x q : ℚ} {m : ℤ} {places : Nat}

theorem fixedUnits_of_near (hx : 0 ≤ x) (hnear : |x - m / 10 ^ places| < 1 / (2 * 10 ^ places)) :
    (fixedUnits places x : ℤ) = m := by
  have hpos : (0 : ℚ) < 10 ^ places := by positivity
  obtain ⟨hlow, hhigh⟩ := abs_lt.mp hnear
  have hscaled : |x * 10 ^ places - m| < 1 / 2 := by
    have hsplit : x * 10 ^ places - m = (x - m / 10 ^ places) * 10 ^ places := by field_simp
    rw [hsplit, abs_mul, abs_of_pos hpos, ← lt_div_iff₀ hpos, div_div]
    exact hnear
  obtain ⟨hdown, hup⟩ := abs_lt.mp hscaled
  have hfloor : ⌊x * 10 ^ places + 1 / 2⌋ = m := by
    rw [Int.floor_eq_iff]
    constructor <;> linarith
  have hm : 0 ≤ m := by
    have hx0 : 0 ≤ x * 10 ^ places := by positivity
    have hm1 : (-1 : ℚ) < m := by linarith
    have hm2 : -1 < m := by exact_mod_cast hm1
    omega
  rw [fixedUnits, hfloor, Int.toNat_of_nonneg hm]

/-- A value near a decimal is printed as it. -/
theorem fixedValue_of_near (hq : q = m / 10 ^ places)
    (hnear : |x - q| < 1 / (2 * 10 ^ places)) : fixedValue places x = roundDouble q := by
  rw [hq] at hnear ⊢
  rw [fixedValue]
  split_ifs with hneg
  · have hunits : (fixedUnits places (-x) : ℤ) = -m := by
      apply fixedUnits_of_near (by linarith)
      rw [← abs_neg]
      convert hnear using 2
      push_cast
      ring
    have hcast : (fixedUnits places (-x) : ℚ) = -m := by exact_mod_cast hunits
    rw [hcast, neg_div, neg_neg]
  · have hunits := fixedUnits_of_near (not_lt.mp hneg) hnear
    have hcast : (fixedUnits places x : ℚ) = m := by exact_mod_cast hunits
    rw [hcast]

end Fixed

section Below

variable {r : ℚ}

theorem IsDouble.le_of_lt_one (h : IsDouble r) (hlt : r < 1) : r ≤ 1 - 1 / 2 ^ 53 := by
  obtain ⟨m, e, hm, -, -, rfl⟩ := h
  have hpos : (0 : ℚ) < 2 ^ e := by positivity
  have hunit : (1 : ℚ) / 2 ^ 53 = 2 ^ (-53 : ℤ) := by norm_num
  rw [hunit]
  by_cases he : e < -53
  · have hbound : (m : ℚ) ≤ 2 ^ 53 := by exact_mod_cast (le_abs_self m).trans hm.le
    have hexp : (2 : ℚ) ^ e ≤ 2 ^ (-54 : ℤ) := zpow_le_zpow_right₀ (by norm_num) (by omega)
    calc (m : ℚ) * 2 ^ e ≤ 2 ^ 53 * 2 ^ e := by gcongr
      _ ≤ 2 ^ 53 * 2 ^ (-54 : ℤ) := by gcongr
      _ ≤ 1 - 2 ^ (-53 : ℤ) := by norm_num
  · by_cases hneg : e < 0
    · have hexp : (2 : ℚ) ^ (-53 : ℤ) ≤ 2 ^ e := zpow_le_zpow_right₀ (by norm_num) (by omega)
      obtain ⟨d, hd⟩ := Int.eq_ofNat_of_zero_le (show 0 ≤ -e by omega)
      have hinverse : (2 : ℚ) ^ d * 2 ^ e = 1 := by
        rw [← zpow_natCast, ← zpow_add₀ (by norm_num), ← hd, neg_add_cancel, zpow_zero]
      have hm1 : (m : ℚ) < 2 ^ d := by
        rw [← hinverse] at hlt
        exact lt_of_mul_lt_mul_right hlt hpos.le
      have hm2 : (m : ℚ) ≤ 2 ^ d - 1 := by
        have hint : m ≤ 2 ^ d - 1 := Int.le_sub_one_of_lt (by exact_mod_cast hm1)
        exact_mod_cast hint
      calc (m : ℚ) * 2 ^ e ≤ (2 ^ d - 1) * 2 ^ e := by gcongr
        _ = 1 - 2 ^ e := by rw [sub_mul, hinverse, one_mul]
        _ ≤ 1 - 2 ^ (-53 : ℤ) := by gcongr
    · have hone : (1 : ℚ) ≤ 2 ^ e := one_le_zpow₀ (by norm_num) (by omega)
      have hm0 : (m : ℚ) ≤ 0 := by
        by_contra hnot
        have hm1 : (1 : ℚ) ≤ m := by exact_mod_cast (by exact_mod_cast not_le.mp hnot : 0 < m)
        exact absurd hlt (not_lt.mpr (by nlinarith))
      calc (m : ℚ) * 2 ^ e ≤ 0 := mul_nonpos_of_nonpos_of_nonneg hm0 hpos.le
        _ ≤ 1 - 2 ^ (-53 : ℤ) := by norm_num

/-- A number below one, times a natural number, stays below it. -/
theorem roundDouble_mul_lt (h : IsDouble r) (h0 : 0 ≤ r) (hlt : r < 1) {n : Nat} (hn : 0 < n) :
    roundDouble (r * n) < n := by
  have hle := h.le_of_lt_one hlt
  have herror := abs_roundDouble_sub_le_max (r * n)
  have hx0 : 0 ≤ r * n := by positivity
  have hn1 : (1 : ℚ) ≤ n := by exact_mod_cast hn
  have hxn : r * n < n := by nlinarith
  rw [abs_of_nonneg hx0] at herror
  have hround : roundDouble (r * n) ≤ r * n + max (r * n) 1 / 2 ^ 53 := by
    have hself := le_abs_self (roundDouble (r * n) - r * n)
    linarith
  rcases le_total 1 (r * n) with hone | hsmall
  · rw [max_eq_left hone] at hround
    calc roundDouble (r * n) ≤ r * n + r * n / 2 ^ 53 := hround
      _ < (1 - 1 / 2 ^ 53) * n + n / 2 ^ 53 := by
        have hfirst : r * n ≤ (1 - 1 / 2 ^ 53) * n := by gcongr
        have hsecond : r * n / 2 ^ 53 < n / 2 ^ 53 := by gcongr
        linarith
      _ = n := by ring
  · rcases Nat.lt_or_ge 1 n with htwo | hsingle
    · have hn2 : (2 : ℚ) ≤ n := by exact_mod_cast htwo
      rw [max_eq_right hsmall] at hround
      calc roundDouble (r * n) ≤ r * n + 1 / 2 ^ 53 := hround
        _ ≤ 1 + 1 / 2 ^ 53 := by gcongr
        _ < 2 := by norm_num
        _ ≤ n := hn2
    · obtain rfl : n = 1 := by omega
      rw [Nat.cast_one, mul_one, roundDouble_of_isDouble h]
      exact hlt

end Below

end Cryptox.Library
