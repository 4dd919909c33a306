import Cryptox.Library.DecimalText

/-!
# Bounds that rounding keeps

A double below a value is below what the value is rounded to, and a double above it is above. From
this come the bounds of a sum of doubles and of its error.
-/
namespace Cryptox.Library

section RoundEven

variable {x : ℚ} {n : ℤ}

theorem le_roundEven (h : (n : ℚ) ≤ x) : n ≤ roundEven x := by
  have hfloor : n ≤ ⌊x⌋ := Int.le_floor.mpr h
  rw [roundEven]
  split_ifs <;> omega

theorem roundEven_le (h : x ≤ n) : roundEven x ≤ n := by
  have hup : ⌊x⌋ ≠ x → ⌊x⌋ + 1 ≤ n := by
    intro hne
    have hlt : ((⌊x⌋ : ℤ) : ℚ) < n := lt_of_lt_of_le (lt_of_le_of_ne (Int.floor_le x) hne) h
    have hint : ⌊x⌋ < n := by exact_mod_cast hlt
    omega
  have hdown : ⌊x⌋ ≤ n := by
    have hle : ((⌊x⌋ : ℤ) : ℚ) ≤ n := (Int.floor_le x).trans h
    exact_mod_cast hle
  rw [roundEven]
  split_ifs with hlow hhigh heven
  · exact hdown
  · exact hup fun heq => by linarith
  · exact hdown
  · refine hup fun heq => hlow ?_
    rw [heq, sub_self]
    norm_num

end RoundEven

section Order

variable {x y : ℚ}

/-- Above the subnormal values the last bit is 52 places below the first one. -/
theorem two_zpow_le_abs (hx : x ≠ 0) (h : -1074 < lastBit x) : (2 : ℚ) ^ (52 + lastBit x) ≤ |x| := by
  have hbit : lastBit x = Int.log 2 |x| - 52 := by
    refine max_eq_right ?_
    by_contra hlt
    rw [lastBit, max_eq_left (not_le.mp hlt).le] at h
    exact lt_irrefl _ h
  have hexp : 52 + lastBit x = Int.log 2 |x| := by omega
  rw [hexp]
  exact_mod_cast Int.zpow_log_le_self (by norm_num : 1 < 2) (abs_pos.mpr hx)

/-- A double is a multiple of the last bit of a value, or smaller than the value's first bit. -/
theorem double_cases (hy : IsDouble y) (hx : x ≠ 0) :
    (∃ j : ℤ, y = j * 2 ^ lastBit x) ∨
      |y| < 2 ^ (52 + lastBit x) ∧ (2 : ℚ) ^ (52 + lastBit x) ≤ |x| := by
  obtain ⟨m, e, hm, he, -, rfl⟩ := hy
  by_cases hle : lastBit x ≤ e
  · obtain ⟨k, hk⟩ := Int.eq_ofNat_of_zero_le (sub_nonneg.mpr hle)
    refine Or.inl ⟨m * 2 ^ k, ?_⟩
    have hexp : e = k + lastBit x := by omega
    rw [hexp, zpow_add₀ (by norm_num), zpow_natCast]
    push_cast
    ring
  · have hlt : e < lastBit x := not_le.mp hle
    refine Or.inr ⟨?_, two_zpow_le_abs hx (lt_of_le_of_lt he hlt)⟩
    have hpos : (0 : ℚ) < 2 ^ e := by positivity
    have hcast : |(m : ℚ)| < 2 ^ 53 := by exact_mod_cast hm
    rw [abs_mul, abs_of_pos hpos]
    calc |(m : ℚ)| * 2 ^ e < 2 ^ 53 * 2 ^ e := by gcongr
      _ = 2 ^ (53 + e) := by rw [zpow_add₀ (by norm_num)]; norm_num
      _ ≤ 2 ^ (52 + lastBit x) := zpow_le_zpow_right₀ (by norm_num) (by omega)

/-- The first bit of a value is a multiple of its last one. -/
theorem two_zpow_eq_mul (x : ℚ) :
    (2 : ℚ) ^ (52 + lastBit x) = ((2 ^ 52 : ℤ) : ℚ) * 2 ^ lastBit x := by
  rw [zpow_add₀ (by norm_num)]
  norm_num

theorem mul_le_roundDouble {j : ℤ} (h : j * 2 ^ lastBit x ≤ x) :
    j * 2 ^ lastBit x ≤ roundDouble x := by
  have hpos : (0 : ℚ) < 2 ^ lastBit x := by positivity
  have hj := le_roundEven ((le_div_iff₀ hpos).mpr h)
  rw [roundDouble]
  gcongr

theorem roundDouble_le_mul {j : ℤ} (h : x ≤ j * 2 ^ lastBit x) :
    roundDouble x ≤ j * 2 ^ lastBit x := by
  have hpos : (0 : ℚ) < 2 ^ lastBit x := by positivity
  have hj := roundEven_le ((div_le_iff₀ hpos).mpr h)
  rw [roundDouble]
  gcongr

@[simp] theorem roundDouble_zero : roundDouble 0 = 0 :=
  roundDouble_of_isDouble (by exact_mod_cast isDouble_intCast (n := 0) (by norm_num))

theorem le_roundDouble (hy : IsDouble y) (h : y ≤ x) : y ≤ roundDouble x := by
  by_cases hzero : x = 0
  · rwa [hzero, roundDouble_zero, ← hzero]
  rcases double_cases hy hzero with ⟨j, rfl⟩ | ⟨hsmall, hlarge⟩
  · exact mul_le_roundDouble h
  · have hx : (2 : ℚ) ^ (52 + lastBit x) ≤ x := by
      rcases le_abs.mp hlarge with hpos | hneg
      · exact hpos
      · have habs := neg_abs_le y
        linarith
    rw [two_zpow_eq_mul] at hx
    have hround := mul_le_roundDouble hx
    rw [← two_zpow_eq_mul] at hround
    exact (le_abs_self y).trans (hsmall.le.trans hround)

theorem roundDouble_le (hy : IsDouble y) (h : x ≤ y) : roundDouble x ≤ y := by
  by_cases hzero : x = 0
  · rwa [hzero, roundDouble_zero, ← hzero]
  rcases double_cases hy hzero with ⟨j, rfl⟩ | ⟨hsmall, hlarge⟩
  · exact roundDouble_le_mul h
  · have hx : x ≤ -2 ^ (52 + lastBit x) := by
      rcases le_abs.mp hlarge with hpos | hneg
      · have habs := le_abs_self y
        linarith
      · linarith
    have hmul : x ≤ ((-2 ^ 52 : ℤ) : ℚ) * 2 ^ lastBit x := by
      rw [two_zpow_eq_mul] at hx
      push_cast at hx ⊢
      linarith
    have hround := roundDouble_le_mul hmul
    have hfirst := two_zpow_eq_mul x
    have habs := neg_abs_le y
    push_cast at hround hfirst
    linarith

theorem abs_roundDouble_le (hy : IsDouble y) (h : |x| ≤ y) : |roundDouble x| ≤ y :=
  abs_le.mpr ⟨le_roundDouble hy.neg (neg_le_of_abs_le h), roundDouble_le hy (le_of_abs_le h)⟩

end Order

section Error

variable {x : ℚ}

/-- The relative error of a rounding, or the absolute one of a value below one. -/
theorem abs_roundDouble_sub_le_max (x : ℚ) : |roundDouble x - x| ≤ max |x| 1 / 2 ^ 53 := by
  by_cases hzero : x = 0
  · rw [hzero, roundDouble_zero, sub_self, abs_zero]
    positivity
  refine (abs_roundDouble_sub_le x).trans ?_
  by_cases hbit : -1074 < lastBit x
  · have hfirst := two_zpow_le_abs hzero hbit
    rw [two_zpow_eq_mul] at hfirst
    have hmax := le_max_left |x| 1
    push_cast at hfirst
    rw [le_div_iff₀ (by positivity)]
    linarith
  · have hexp : lastBit x ≤ -1074 := not_lt.mp hbit
    have hmax := le_max_right |x| 1
    have hpow : (2 : ℚ) ^ lastBit x ≤ 2 ^ (-52 : ℤ) :=
      zpow_le_zpow_right₀ (by norm_num) (by omega)
    have hvalue : (2 : ℚ) ^ (-52 : ℤ) = 1 / 2 ^ 52 := by norm_num
    rw [hvalue] at hpow
    rw [le_div_iff₀ (by positivity)]
    have hscaled : (2 : ℚ) ^ lastBit x * 2 ^ 52 ≤ 1 := by
      calc (2 : ℚ) ^ lastBit x * 2 ^ 52 ≤ 1 / 2 ^ 52 * 2 ^ 52 := by gcongr
        _ = 1 := by norm_num
    linarith

end Error

section Sums

/-- The values added one after the other, each sum rounded. -/
def roundedSum (values : List ℚ) : ℚ :=
  values.foldl (fun total value => roundDouble (total + value)) 0

theorem isDouble_natCast {n : Nat} (h : n ≤ 2 ^ 53) : IsDouble n := by
  rcases h.lt_or_eq with hlt | rfl
  · exact_mod_cast isDouble_intCast (n := n) (by rw [abs_of_nonneg (by omega)]; exact_mod_cast hlt)
  · exact ⟨1, 53, by norm_num, by norm_num, by norm_num, by norm_num⟩

theorem roundedSum_append_singleton (values : List ℚ) (value : ℚ) :
    roundedSum (values ++ [value]) = roundDouble (roundedSum values + value) := by
  simp [roundedSum]

/-- A sum of values from minus one to one stays within its length, and near the exact sum. -/
theorem roundedSum_bounds {values : List ℚ} (h : ∀ value ∈ values, |value| ≤ 1)
    (hlength : values.length ≤ 2 ^ 53) :
    |roundedSum values| ≤ values.length ∧
      |roundedSum values - values.sum| ≤ values.length * values.length / 2 ^ 53 := by
  induction values using List.reverseRecOn with
  | nil => simp [roundedSum]
  | append_singleton values value ih =>
    rw [List.length_append, List.length_singleton] at hlength ⊢
    obtain ⟨hsum, herror⟩ := ih (fun v hv => h v (List.mem_append_left _ hv)) (by omega)
    have hvalue := h value (List.mem_append_right _ List.mem_cons_self)
    have hnext : |roundedSum values + value| ≤ ((values.length + 1 : Nat) : ℚ) := by
      calc |roundedSum values + value| ≤ |roundedSum values| + |value| := abs_add_le _ _
        _ ≤ values.length + 1 := add_le_add hsum hvalue
        _ = ((values.length + 1 : Nat) : ℚ) := by push_cast; ring
    rw [roundedSum_append_singleton]
    refine ⟨abs_roundDouble_le (isDouble_natCast hlength) hnext, ?_⟩
    have hround : |roundDouble (roundedSum values + value) - (roundedSum values + value)| ≤
        (values.length + 1) / 2 ^ 53 := by
      refine (abs_roundDouble_sub_le_max _).trans ?_
      gcongr
      push_cast at hnext
      exact max_le hnext (by linarith [Nat.cast_nonneg (α := ℚ) values.length])
    rw [List.sum_append, List.sum_singleton]
    have hsplit : roundDouble (roundedSum values + value) - (values.sum + value) =
        (roundDouble (roundedSum values + value) - (roundedSum values + value)) +
          (roundedSum values - values.sum) := by ring
    have hlen : (0 : ℚ) ≤ values.length := Nat.cast_nonneg _
    rw [hsplit]
    push_cast
    calc |(roundDouble (roundedSum values + value) - (roundedSum values + value)) +
          (roundedSum values - values.sum)|
        ≤ (values.length + 1) / 2 ^ 53 + values.length * values.length / 2 ^ 53 :=
          (abs_add_le _ _).trans (add_le_add hround herror)
      _ ≤ (values.length + 1) * (values.length + 1) / 2 ^ 53 := by
        rw [← add_div]
        gcongr
        nlinarith

end Sums

section Fixed

/-- `Number(x.toFixed(places))`, below `1e21`. -/
def fixedValue (places : Nat) (x : ℚ) : ℚ :=
  if x < 0 then roundDouble (-(fixedUnits places (-x) / 10 ^ places))
  else roundDouble (fixedUnits places x / 10 ^ places)

theorem abs_fixedUnits_sub_le (places : Nat) {x : ℚ} (hx : 0 ≤ x) :
    |(fixedUnits places x : ℚ) / 10 ^ places - x| ≤ 1 / (2 * 10 ^ places) := by
  have hpos : (0 : ℚ) < 10 ^ places := by positivity
  have hfloor : 0 ≤ ⌊x * 10 ^ places + 1 / 2⌋ := Int.floor_nonneg.mpr (by positivity)
  have hunits : ((fixedUnits places x : Nat) : ℚ) = ((⌊x * 10 ^ places + 1 / 2⌋ : ℤ) : ℚ) := by
    rw [fixedUnits]
    exact_mod_cast congrArg (fun n : ℤ => (n : ℚ)) (Int.toNat_of_nonneg hfloor)
  have hle := Int.floor_le (x * 10 ^ places + 1 / 2)
  have hlt := Int.lt_floor_add_one (x * 10 ^ places + 1 / 2)
  have hscaled : |((fixedUnits places x : Nat) : ℚ) - x * 10 ^ places| ≤ 1 / 2 := by
    rw [hunits]
    exact abs_le.mpr ⟨by linarith, by linarith⟩
  have hsplit : (fixedUnits places x : ℚ) / 10 ^ places - x =
      ((fixedUnits places x : ℚ) - x * 10 ^ places) / 10 ^ places := by
    field_simp
  rw [hsplit, abs_div, abs_of_pos hpos, div_le_div_iff₀ hpos (by positivity)]
  calc |(fixedUnits places x : ℚ) - x * 10 ^ places| * (2 * 10 ^ places)
      ≤ 1 / 2 * (2 * 10 ^ places) := by gcongr
    _ = 1 * 10 ^ places := by ring

theorem fixedUnits_le {places : Nat} {x : ℚ} (hx : x ≤ 1) : fixedUnits places x ≤ 10 ^ places := by
  have hle : ⌊x * 10 ^ places + 1 / 2⌋ ≤ 10 ^ places := by
    have hpos : (0 : ℚ) < 10 ^ places := by positivity
    have hscaled : x * 10 ^ places ≤ 10 ^ places := mul_le_of_le_one_left hpos.le hx
    have hlt : ⌊x * 10 ^ places + 1 / 2⌋ < 10 ^ places + 1 := by
      refine Int.floor_lt.mpr ?_
      push_cast
      linarith
    omega
  rw [fixedUnits]
  exact Int.toNat_le.mpr (by exact_mod_cast hle)

/-- Reading a number near a value moves it by one rounding more. -/
theorem abs_roundDouble_sub_le_add {x y error : ℚ} (hy : |y| ≤ 1) (h : |y - x| ≤ error) :
    |roundDouble y - x| ≤ error + 1 / 2 ^ 53 := by
  have hround := abs_roundDouble_sub_le_max y
  rw [max_eq_right hy] at hround
  have htriangle := abs_sub_le (roundDouble y) y x
  linarith

/-- A value from minus one to one is printed and read back within half a unit and a rounding. -/
theorem abs_fixedValue_sub_le (places : Nat) {x : ℚ} (h : |x| ≤ 1) :
    |fixedValue places x - x| ≤ 1 / (2 * 10 ^ places) + 1 / 2 ^ 53 := by
  have hunits : ∀ y : ℚ, y ≤ 1 → |(fixedUnits places y : ℚ) / 10 ^ places| ≤ 1 := by
    intro y hy
    have hpos : (0 : ℚ) < 10 ^ places := by positivity
    rw [abs_of_nonneg (by positivity), div_le_one hpos]
    exact_mod_cast fixedUnits_le hy
  obtain ⟨hlow, hhigh⟩ := abs_le.mp h
  rw [fixedValue]
  split_ifs with hneg
  · apply abs_roundDouble_sub_le_add
    · rw [abs_neg]
      exact hunits (-x) (by linarith)
    · have hprinted := abs_fixedUnits_sub_le places (show 0 ≤ -x by linarith)
      rw [← abs_neg]
      convert hprinted using 2
      ring
  · exact abs_roundDouble_sub_le_add (hunits x hhigh) (abs_fixedUnits_sub_le places (not_lt.mp hneg))

end Fixed

end Cryptox.Library
