import Mathlib.Algebra.Order.Round
import Mathlib.Data.Rat.Floor
import Mathlib.Tactic.Linarith
import Mathlib.Tactic.Ring
import Mathlib.Tactic.FieldSimp

/-!
# Rounding half away from zero

`halfAway x` is the integer nearest to the rational `x`, a tie going away from zero, and
`roundTo k x` the nearest multiple of `10 ^ -k` under the same rule. Truncating integer division
followed by a look at the remainder computes it: that is `halfAway_div`.
-/
namespace Cryptox.Library

/-- Mathlib's `round` sends ties up; this one sends them away from zero. -/
def halfAway (x : ℚ) : ℤ := if 0 ≤ x then round x else -round (-x)

theorem halfAway_of_nonneg {x : ℚ} {m : ℤ} (hx : 0 ≤ x) (hl : (m : ℚ) - 1 / 2 ≤ x)
    (hu : x < (m : ℚ) + 1 / 2) : halfAway x = m := by
  rw [halfAway, if_pos hx, round_eq, Int.floor_eq_iff]
  constructor <;> linarith

theorem halfAway_of_neg {x : ℚ} {m : ℤ} (hx : x < 0) (hl : (m : ℚ) - 1 / 2 < x)
    (hu : x ≤ (m : ℚ) + 1 / 2) : halfAway x = m := by
  have hround : round (-x) = -m := by
    rw [round_eq, Int.floor_eq_iff]
    push_cast
    constructor <;> linarith
  rw [halfAway, if_neg (not_le.mpr hx), hround, neg_neg]

@[simp] theorem halfAway_intCast (m : ℤ) : halfAway (m : ℚ) = m := by
  by_cases hm : 0 ≤ (m : ℚ)
  · exact halfAway_of_nonneg hm (by linarith) (by linarith)
  · exact halfAway_of_neg (not_le.mp hm) (by linarith) (by linarith)

theorem halfAway_nonneg {x : ℚ} (hx : 0 ≤ x) : 0 ≤ halfAway x := by
  rw [halfAway, if_pos hx, round_eq]
  exact Int.floor_nonneg.mpr (by linarith)

theorem halfAway_nonpos {x : ℚ} (hx : x ≤ 0) : halfAway x ≤ 0 := by
  rcases hx.lt_or_eq with hlt | rfl
  · have hr : 0 ≤ round (-x) := by
      rw [round_eq]
      exact Int.floor_nonneg.mpr (by linarith)
    rw [halfAway, if_neg (not_le.mpr hlt)]
    omega
  · exact le_of_eq (halfAway_intCast 0)

theorem halfAway_mono {x y : ℚ} (hxy : x ≤ y) : halfAway x ≤ halfAway y := by
  rcases le_total 0 x with hx | hx
  · rw [halfAway, halfAway, if_pos hx, if_pos (hx.trans hxy), round_eq, round_eq]
    exact Int.floor_le_floor (by linarith)
  · rcases le_or_gt 0 y with hy | hy
    · exact (halfAway_nonpos hx).trans (halfAway_nonneg hy)
    · rw [halfAway, halfAway, if_neg (not_le.mpr hy), if_neg (not_le.mpr (hxy.trans_lt hy)), round_eq,
        round_eq]
      exact neg_le_neg (Int.floor_le_floor (by linarith))

/-- What rounds to `m` at most, for an `m` on the side where ties go up. -/
theorem halfAway_le_iff {x : ℚ} {m : ℤ} (hm : 0 ≤ m) : halfAway x ≤ m ↔ x < m + 1 / 2 := by
  have hcast : (0 : ℚ) ≤ m := by exact_mod_cast hm
  by_cases hx : 0 ≤ x
  · rw [halfAway, if_pos hx, round_eq, ← Int.lt_add_one_iff, Int.floor_lt]
    push_cast
    constructor <;> intro h <;> linarith
  · rw [not_le] at hx
    exact iff_of_true ((halfAway_nonpos hx.le).trans hm) (by linarith)

/-- On the other side ties go down. -/
theorem halfAway_le_iff_of_neg {x : ℚ} {m : ℤ} (hm : m < 0) : halfAway x ≤ m ↔ x ≤ m + 1 / 2 := by
  have hcast : (m : ℚ) ≤ -1 := by exact_mod_cast Int.le_sub_one_of_lt hm
  by_cases hx : 0 ≤ x
  · exact iff_of_false (not_le.mpr (hm.trans_le (halfAway_nonneg hx))) (by linarith)
  · rw [halfAway, if_neg hx, round_eq, neg_le, Int.le_floor]
    push_cast
    constructor <;> intro h <;> linarith

theorem le_halfAway_iff {x : ℚ} {m : ℤ} (hm : 0 < m) : m ≤ halfAway x ↔ m - 1 / 2 ≤ x := by
  have hle := (halfAway_le_iff (x := x) (m := m - 1) (by omega)).not
  push_cast at hle
  rw [not_le, not_lt] at hle
  rw [← Int.sub_one_lt_iff, hle]
  constructor <;> intro h <;> linarith

theorem halfAway_pos_iff {x : ℚ} : 0 < halfAway x ↔ 1 / 2 ≤ x := by
  have h := le_halfAway_iff (x := x) one_pos
  push_cast at h
  rw [Int.lt_iff_add_one_le, zero_add, h]
  norm_num

theorem halfAway_neg_iff {x : ℚ} : halfAway x < 0 ↔ x ≤ -(1 / 2) := by
  have h := halfAway_le_iff_of_neg (x := x) (m := -1) (by decide)
  push_cast at h
  rw [← Int.le_sub_one_iff, zero_sub, h]
  norm_num

/-- A whole number of the same sign can be taken out of the rounding. -/
theorem halfAway_intCast_add {x : ℚ} {m : ℤ} (h : 0 ≤ m ∧ 0 ≤ x ∨ m ≤ 0 ∧ x ≤ 0) :
    halfAway (m + x) = m + halfAway x := by
  rcases h with ⟨hm, hx⟩ | ⟨hm, hx⟩
  · have hsum : (0 : ℚ) ≤ m + x := add_nonneg (by exact_mod_cast hm) hx
    rw [halfAway, halfAway, if_pos hsum, if_pos hx, round_intCast_add]
  · rcases hx.lt_or_eq with hx | rfl
    · have hsum : (m : ℚ) + x < 0 := add_neg_of_nonpos_of_neg (by exact_mod_cast hm) hx
      have hneg : -((m : ℚ) + x) = ((-m : ℤ) : ℚ) + -x := by
        push_cast
        ring
      rw [halfAway, halfAway, if_neg (not_le.mpr hsum), if_neg (not_le.mpr hx), hneg,
        round_intCast_add]
      ring
    · rw [add_zero, halfAway_intCast, ← Int.cast_zero, halfAway_intCast, add_zero]

/-- Two numbers that are not negative lose their whole difference in front of the rounding. -/
theorem halfAway_add_intCast {x : ℚ} {m : ℤ} (hx : 0 ≤ x) (hsum : 0 ≤ x + m) :
    halfAway (x + m) = halfAway x + m := by
  rw [halfAway, halfAway, if_pos hsum, if_pos hx, round_add_intCast]

/-- A sum that falls below zero rounds a tie the other way. -/
theorem halfAway_add_intCast_iff {x : ℚ} {m : ℤ} (hx : 0 ≤ x) :
    halfAway (x + m) = halfAway x + m ↔ ¬ ((∃ n : ℤ, x = n + 1 / 2) ∧ halfAway x + m ≤ 0) := by
  have htie {n : ℤ} (hn : x = n + 1 / 2) : halfAway x = n + 1 :=
    halfAway_of_nonneg hx (by push_cast; linarith) (by push_cast; linarith)
  by_cases hsum : 0 ≤ x + m
  · refine iff_of_true (halfAway_add_intCast hx hsum) ?_
    rintro ⟨⟨n, hn⟩, hle⟩
    rw [htie hn] at hle
    have hcast : ((n + 1 + m : ℤ) : ℚ) ≤ 0 := by exact_mod_cast hle
    push_cast at hcast
    linarith
  · have hleft : halfAway (x + m) = ⌈x - 1 / 2⌉ + m := by
      rw [halfAway, if_neg hsum, round_eq, ← Int.ceil_add_intCast, ← neg_neg ⌈_⌉, ← Int.floor_neg]
      congr 2
      ring
    have hright : halfAway x = ⌊x - 1 / 2⌋ + 1 := by
      rw [halfAway, if_pos hx, round_eq, ← Int.floor_add_one]
      congr 1
      ring
    have hrange : x - 1 / 2 ∈ Set.range ((↑) : ℤ → ℚ) ↔ ∃ n : ℤ, x = n + 1 / 2 := by
      constructor
      · rintro ⟨n, hn⟩
        exact ⟨n, by linarith⟩
      · rintro ⟨n, hn⟩
        exact ⟨n, by linarith⟩
    rw [hleft, add_left_inj, hright, Int.ceil_eq_floor_add_one_iff_notMem, hrange]
    refine not_congr (iff_self_and.mpr ?_)
    rintro ⟨n, hn⟩
    rw [← hright, htie hn]
    have hlt : ((n + m : ℤ) : ℚ) < ((0 : ℤ) : ℚ) := by
      push_cast
      linarith
    have hle : n + m < 0 := by exact_mod_cast hlt
    omega

/-- The quotient truncated toward zero, moved one step away from zero when the remainder is at
least half the divisor. -/
def roundedQuotient (n d : ℤ) : ℤ :=
  if |n.tmod d| * 2 < |d| then n.tdiv d
  else n.tdiv d + if n = 0 ∨ (0 < n ↔ 0 < d) then 1 else -1

private theorem div_eq_tdiv_add (n : ℤ) {d : ℤ} (hd : d ≠ 0) :
    (n : ℚ) / d = n.tdiv d + (n.tmod d : ℚ) / d := by
  have hq : (d : ℚ) ≠ 0 := by exact_mod_cast hd
  have h : (n : ℚ) = d * n.tdiv d + n.tmod d := by exact_mod_cast (Int.mul_tdiv_add_tmod n d).symm
  field_simp
  linarith

/-- Where the quotient is not negative, neither is the fraction left by truncation. -/
private theorem tmod_div_nonneg {n d : ℤ} (h : 0 ≤ (n : ℚ) / d) : 0 ≤ (n.tmod d : ℚ) / d := by
  rcases le_total 0 n with hn | hn
  · have hr : (0 : ℚ) ≤ n.tmod d := by exact_mod_cast Int.tmod_nonneg d hn
    rcases le_total 0 d with hd | hd
    · exact div_nonneg hr (by exact_mod_cast hd)
    · rcases hn.lt_or_eq with hn | rfl
      · rcases hd.lt_or_eq with hd | rfl
        · have := div_neg_of_pos_of_neg (show (0 : ℚ) < n by exact_mod_cast hn)
            (show (d : ℚ) < 0 by exact_mod_cast hd)
          linarith
        · simp
      · simp
  · have hr : (n.tmod d : ℚ) ≤ 0 := by
      have hneg := Int.tmod_nonneg d (a := -n) (by omega)
      rw [Int.neg_tmod] at hneg
      exact_mod_cast (by omega : n.tmod d ≤ 0)
    rcases le_total 0 d with hd | hd
    · rcases hn.lt_or_eq with hn | rfl
      · rcases hd.lt_or_eq with hd | rfl
        · have := div_neg_of_neg_of_pos (show (n : ℚ) < 0 by exact_mod_cast hn)
            (show (0 : ℚ) < d by exact_mod_cast hd)
          linarith
        · simp
      · simp
    · exact div_nonneg_of_nonpos hr (by exact_mod_cast hd)

private theorem tmod_div_nonpos {n d : ℤ} (h : (n : ℚ) / d ≤ 0) : (n.tmod d : ℚ) / d ≤ 0 := by
  have hneg := tmod_div_nonneg (n := -n) (d := d) (by push_cast; rw [neg_div]; linarith)
  rw [Int.neg_tmod] at hneg
  push_cast at hneg
  rw [neg_div] at hneg
  linarith

private theorem abs_tmod_div (n d : ℤ) : |(n.tmod d : ℚ) / d| = (|n.tmod d| : ℤ) / (|d| : ℤ) := by
  rw [abs_div, Int.cast_abs, Int.cast_abs]

private theorem abs_tmod_lt (n : ℤ) {d : ℤ} (hd : d ≠ 0) : |n.tmod d| < |d| := by
  rw [Int.abs_eq_natAbs, Int.abs_eq_natAbs, Int.natAbs_tmod]
  exact_mod_cast Nat.mod_lt _ (Int.natAbs_pos.mpr hd)

/-- Truncating division with the remainder test is rounding half away from zero. -/
theorem halfAway_div (n : ℤ) {d : ℤ} (hd : d ≠ 0) :
    halfAway ((n : ℚ) / d) = roundedQuotient n d := by
  have hx := div_eq_tdiv_add n hd
  have habs := abs_tmod_div n d
  have hpos : (0 : ℚ) < (|d| : ℤ) := by exact_mod_cast abs_pos.mpr hd
  have hlt : |(n.tmod d : ℚ) / d| < 1 := by
    rw [habs, div_lt_one hpos]
    exact_mod_cast abs_tmod_lt n hd
  unfold roundedQuotient
  by_cases hhalf : |n.tmod d| * 2 < |d|
  · rw [if_pos hhalf]
    have hsmall : |(n.tmod d : ℚ) / d| < 1 / 2 := by
      rw [habs, div_lt_iff₀ hpos]
      have : ((|n.tmod d| * 2 : ℤ) : ℚ) < (|d| : ℤ) := by exact_mod_cast hhalf
      push_cast at this ⊢
      linarith
    obtain ⟨h1, h2⟩ := abs_lt.mp hsmall
    by_cases h0 : 0 ≤ (n : ℚ) / d
    · have := tmod_div_nonneg h0
      exact halfAway_of_nonneg h0 (by linarith) (by linarith)
    · have := tmod_div_nonpos (not_le.mp h0).le
      exact halfAway_of_neg (not_le.mp h0) (by linarith) (by linarith)
  · rw [if_neg hhalf]
    have hbig : 1 / 2 ≤ |(n.tmod d : ℚ) / d| := by
      rw [habs, le_div_iff₀ hpos]
      have : ((|d| : ℤ) : ℚ) ≤ ((|n.tmod d| * 2 : ℤ) : ℚ) := by exact_mod_cast not_lt.mp hhalf
      push_cast at this ⊢
      linarith
    have hn : n ≠ 0 := by
      rintro rfl
      exact hhalf (by simpa using hd)
    by_cases hsign : 0 < n ↔ 0 < d
    · have h0 : 0 ≤ (n : ℚ) / d := by
        rcases lt_or_gt_of_ne hd with hdn | hdp
        · have : n ≤ 0 := not_lt.mp fun h => absurd (hsign.mp h) (by omega)
          exact div_nonneg_of_nonpos (by exact_mod_cast this) (by exact_mod_cast hdn.le)
        · exact div_nonneg (by exact_mod_cast (hsign.mpr hdp).le) (by exact_mod_cast hdp.le)
      rw [if_pos (Or.inr hsign)]
      have hr := tmod_div_nonneg h0
      rw [abs_of_nonneg hr] at hbig hlt
      exact halfAway_of_nonneg h0 (by push_cast; linarith) (by push_cast; linarith)
    · have h0 : (n : ℚ) / d < 0 := by
        rcases lt_or_gt_of_ne hd with hdn | hdp
        · have : 0 < n := by
            by_contra h
            exact hsign ⟨fun hp => absurd hp h, fun hp => absurd hp (by omega)⟩
          exact div_neg_of_pos_of_neg (by exact_mod_cast this) (by exact_mod_cast hdn)
        · have : n < 0 := by
            by_contra h
            exact hsign ⟨fun _ => hdp, fun _ => by omega⟩
          exact div_neg_of_neg_of_pos (by exact_mod_cast this) (by exact_mod_cast hdp)
      rw [if_neg (by simp [hn, hsign])]
      have hr := tmod_div_nonpos h0.le
      rw [abs_of_nonpos hr] at hbig hlt
      exact halfAway_of_neg h0 (by push_cast; linarith) (by push_cast; linarith)

/-- Rounding to `k` decimal places. -/
def roundTo (k : ℕ) (x : ℚ) : ℚ := halfAway (x * 10 ^ k) / 10 ^ k

/-- The multiples of `10 ^ -k`. -/
def OnGrid (k : ℕ) (x : ℚ) : Prop := ∃ m : ℤ, x = m / 10 ^ k

theorem onGrid_roundTo (k : ℕ) (x : ℚ) : OnGrid k (roundTo k x) := ⟨_, rfl⟩

theorem OnGrid.add {k : ℕ} {x y : ℚ} (hx : OnGrid k x) (hy : OnGrid k y) : OnGrid k (x + y) := by
  obtain ⟨m, rfl⟩ := hx
  obtain ⟨n, rfl⟩ := hy
  exact ⟨m + n, by push_cast; ring⟩

theorem OnGrid.sub {k : ℕ} {x y : ℚ} (hx : OnGrid k x) (hy : OnGrid k y) : OnGrid k (x - y) := by
  obtain ⟨m, rfl⟩ := hx
  obtain ⟨n, rfl⟩ := hy
  exact ⟨m - n, by push_cast; ring⟩

/-- What is on the grid is left alone. -/
theorem OnGrid.roundTo_eq {k : ℕ} {x : ℚ} (h : OnGrid k x) : roundTo k x = x := by
  obtain ⟨m, rfl⟩ := h
  have hp : (10 : ℚ) ^ k ≠ 0 := pow_ne_zero _ (by norm_num)
  rw [roundTo, div_mul_cancel₀ _ hp, halfAway_intCast]

theorem roundTo_nonneg {k : ℕ} {x : ℚ} (h : 0 ≤ x) : 0 ≤ roundTo k x :=
  div_nonneg (by exact_mod_cast halfAway_nonneg (mul_nonneg h (by positivity))) (by positivity)

theorem roundTo_mono (k : ℕ) : Monotone (roundTo k) := by
  intro x y hxy
  have hscaled : x * 10 ^ k ≤ y * 10 ^ k := mul_le_mul_of_nonneg_right hxy (by positivity)
  exact div_le_div_of_nonneg_right (by exact_mod_cast halfAway_mono hscaled) (by positivity)

theorem OnGrid.le_roundTo {k : ℕ} {x y : ℚ} (h : OnGrid k x) (hxy : x ≤ y) : x ≤ roundTo k y := by
  rw [← h.roundTo_eq]
  exact roundTo_mono k hxy

theorem OnGrid.roundTo_le {k : ℕ} {x y : ℚ} (h : OnGrid k x) (hyx : y ≤ x) : roundTo k y ≤ x := by
  rw [← h.roundTo_eq]
  exact roundTo_mono k hyx

theorem abs_halfAway_sub_le (x : ℚ) : |(halfAway x : ℚ) - x| ≤ 1 / 2 := by
  unfold halfAway
  split
  · rw [abs_sub_comm]
    exact abs_sub_round x
  · have h := abs_sub_round (-x)
    push_cast
    rwa [show -(round (-x) : ℚ) - x = -x - round (-x) by ring]

/-- Rounding moves a number by half a unit of the last place at most. -/
theorem abs_roundTo_sub_le (k : ℕ) (x : ℚ) : |roundTo k x - x| ≤ 1 / 2 / 10 ^ k := by
  have hp : (0 : ℚ) < 10 ^ k := by positivity
  have hsplit : roundTo k x - x = (halfAway (x * 10 ^ k) - x * 10 ^ k) / 10 ^ k := by
    rw [roundTo, sub_div, mul_div_cancel_right₀ _ hp.ne']
  rw [hsplit, abs_div, abs_of_pos hp]
  exact div_le_div_of_nonneg_right (abs_halfAway_sub_le _) hp.le

/-- No integer within half a unit is further from zero. -/
theorem abs_le_abs_halfAway {x : ℚ} {m : ℤ} (h : |(m : ℚ) - x| ≤ 1 / 2) : |m| ≤ |halfAway x| := by
  obtain ⟨hlow, hhigh⟩ := abs_le.mp h
  rcases lt_trichotomy m 0 with hneg | rfl | hpos
  · have hle : halfAway x ≤ m := (halfAway_le_iff_of_neg hneg).mpr (by linarith)
    rw [abs_of_neg hneg, abs_of_neg (by omega)]
    omega
  · exact abs_nonneg _
  · have hle : m ≤ halfAway x := (le_halfAway_iff hpos).mpr (by linarith)
    rw [abs_of_pos hpos, abs_of_pos (by omega)]
    exact hle

theorem abs_halfAway_sub_le_abs (x : ℚ) (m : ℤ) : |(halfAway x : ℚ) - x| ≤ |(m : ℚ) - x| := by
  have hhalf := abs_halfAway_sub_le x
  by_cases hm : m = halfAway x
  · rw [hm]
  · have hone : (1 : ℚ) ≤ |(m : ℚ) - halfAway x| := by
      exact_mod_cast Int.one_le_abs (sub_ne_zero.mpr hm)
    have htriangle := abs_sub_le (m : ℚ) x (halfAway x)
    rw [abs_sub_comm x] at htriangle
    linarith

/-- `y` is the multiple of `10 ^ -k` nearest to `x`, and of two the one further from zero. -/
structure NearestAway (k : ℕ) (x y : ℚ) : Prop where
  onGrid : OnGrid k y
  nearest : ∀ z, OnGrid k z → |y - x| ≤ |z - x|
  away : ∀ z, OnGrid k z → |z - x| = |y - x| → |z| ≤ |y|

theorem nearestAway_roundTo (k : ℕ) (x : ℚ) : NearestAway k x (roundTo k x) := by
  have hp : (0 : ℚ) < 10 ^ k := by positivity
  have hscaled (m : ℤ) : |(m / 10 ^ k : ℚ) - x| = |(m : ℚ) - x * 10 ^ k| / 10 ^ k := by
    rw [← abs_of_pos hp, ← abs_div, abs_of_pos hp, sub_div, mul_div_cancel_right₀ _ hp.ne']
  refine ⟨onGrid_roundTo k x, ?_, ?_⟩
  · rintro z ⟨m, rfl⟩
    rw [roundTo, hscaled, hscaled, div_le_div_iff_of_pos_right hp]
    exact abs_halfAway_sub_le_abs _ m
  · rintro z ⟨m, rfl⟩ htie
    rw [roundTo, hscaled, hscaled, div_left_inj' hp.ne'] at htie
    have habs : |m| ≤ |halfAway (x * 10 ^ k)| := by
      apply abs_le_abs_halfAway
      rw [htie]
      exact abs_halfAway_sub_le _
    rw [roundTo, abs_div, abs_div, abs_of_pos hp, div_le_div_iff_of_pos_right hp]
    exact_mod_cast habs

/-- A number on the grid that is less than a step above a bound on the grid keeps the bound. -/
theorem OnGrid.abs_le {k : ℕ} {x : ℚ} {m : ℤ} (h : OnGrid k x) (hx : |x| < (m + 1) / 10 ^ k) :
    |x| ≤ m / 10 ^ k := by
  obtain ⟨n, rfl⟩ := h
  have hp : (0 : ℚ) < 10 ^ k := by positivity
  rw [abs_div, abs_of_pos hp, div_lt_div_iff_of_pos_right hp] at hx
  rw [abs_div, abs_of_pos hp]
  have hn : |n| ≤ m := Int.lt_add_one_iff.mp (by exact_mod_cast hx)
  exact div_le_div_of_nonneg_right (by exact_mod_cast hn) hp.le

/-- Half a unit of the last place is the least that is not rounded away. -/
theorem roundTo_pos_iff {k : ℕ} {x : ℚ} : 0 < roundTo k x ↔ 1 / 2 / 10 ^ k ≤ x := by
  have hp : (0 : ℚ) < 10 ^ k := by positivity
  rw [roundTo, div_pos_iff_of_pos_right hp, Int.cast_pos, halfAway_pos_iff, ← div_le_iff₀ hp]

theorem roundTo_neg_iff {k : ℕ} {x : ℚ} : roundTo k x < 0 ↔ x ≤ -(1 / 2 / 10 ^ k) := by
  have hp : (0 : ℚ) < 10 ^ k := by positivity
  have hscaled : -(1 / 2 / 10 ^ k) = -(1 / 2 : ℚ) / 10 ^ k := by ring
  rw [roundTo, div_lt_iff₀ hp, zero_mul, Int.cast_lt_zero, halfAway_neg_iff, hscaled,
    le_div_iff₀ hp]

/-- The last place that `x` has a half of. -/
def IsTie (k : ℕ) (x : ℚ) : Prop := ∃ n : ℤ, x * 10 ^ k = n + 1 / 2

theorem roundTo_add_iff {k : ℕ} {x y : ℚ} (hx : 0 ≤ x) (hy : OnGrid k y) :
    roundTo k (x + y) = roundTo k x + y ↔ ¬ (IsTie k x ∧ roundTo k x + y ≤ 0) := by
  obtain ⟨m, rfl⟩ := hy
  have hp : (0 : ℚ) < 10 ^ k := by positivity
  have hsum : roundTo k x + m / 10 ^ k = ((halfAway (x * 10 ^ k) + m : ℤ) : ℚ) / 10 ^ k := by
    rw [roundTo]
    push_cast
    ring
  rw [hsum, roundTo, add_mul, div_mul_cancel₀ _ hp.ne', div_left_inj' hp.ne', Int.cast_inj,
    halfAway_add_intCast_iff (mul_nonneg hx hp.le), div_le_iff₀ hp, zero_mul, Int.cast_nonpos]
  rfl

theorem roundTo_sub_of_le {k : ℕ} {x y : ℚ} (hx : 0 ≤ x) (hy : OnGrid k y) (hle : y ≤ x) :
    roundTo k (x - y) = roundTo k x - y := by
  obtain ⟨m, rfl⟩ := hy
  have hp : (0 : ℚ) < 10 ^ k := by positivity
  have hscaled : (x - m / 10 ^ k) * 10 ^ k = x * 10 ^ k + ((-m : ℤ) : ℚ) := by
    push_cast
    rw [sub_mul, div_mul_cancel₀ _ hp.ne', sub_eq_add_neg]
  have hdiff : 0 ≤ x * 10 ^ k + ((-m : ℤ) : ℚ) := by
    rw [← hscaled]
    exact mul_nonneg (sub_nonneg.mpr hle) hp.le
  rw [roundTo, hscaled, halfAway_add_intCast (mul_nonneg hx hp.le) hdiff, roundTo]
  push_cast
  ring

theorem roundTo_nonpos {k : ℕ} {x : ℚ} (h : x ≤ 0) : roundTo k x ≤ 0 :=
  div_nonpos_of_nonpos_of_nonneg
    (by exact_mod_cast halfAway_nonpos (mul_nonpos_of_nonpos_of_nonneg h (by positivity)))
    (by positivity)

end Cryptox.Library
