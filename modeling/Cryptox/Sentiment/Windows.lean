import Cryptox.Sentiment.Snapshots

/-!
# The windows of a command

Within the years 0000 to 9999 the quotients of `windowEnd` are rounded to no other window: the end
computed is that of the exact arithmetic, or lies behind the range as that one does.
-/
namespace Cryptox.Sentiment

open Cryptox.Library

namespace SnapshotCommand

variable (command : SnapshotCommand)

/-- The length of a window in milliseconds. -/
def window : Int := command.windowSeconds * 1000

/-- The number of the window that an instant falls into. The first one has its start as well. -/
def windowIndex (instant : Int) : Int :=
  max 1 ((instant - command.fromTime.val + command.window - 1) / command.window)

/-- The end of a window of the range. -/
def IsWindowEnd (timestamp : Int) : Prop :=
  ∃ k : Int, 1 ≤ k ∧ timestamp = command.fromTime.val + k * command.window ∧
    timestamp ≤ command.toTime.val

/-- An instant lies in the window that ends at the timestamp. -/
def InWindow (timestamp instant : Int) : Prop :=
  timestamp - command.window < instant ∧ instant ≤ timestamp ∨
    instant = command.fromTime.val ∧ timestamp = command.fromTime.val + command.window

instance (timestamp instant : Int) : Decidable (command.InWindow timestamp instant) := by
  unfold InWindow
  infer_instance

theorem window_pos : 0 < command.window := by
  have hpositive := command.positive
  rw [window]
  omega

variable {command} {instant : Int}

/-- The quotient rounded up, by its bounds. -/
theorem ceil_bounds (elapsed : Int) {window : Int} (hpos : 0 < window) :
    ((elapsed + window - 1) / window - 1) * window < elapsed ∧
      elapsed ≤ (elapsed + window - 1) / window * window := by
  have hle := Int.ediv_mul_le (elapsed + window - 1) hpos.ne'
  have hlt := Int.lt_ediv_add_one_mul_self (elapsed + window - 1) hpos
  rw [add_mul, one_mul] at hlt
  rw [sub_mul, one_mul]
  omega

theorem index_unique {elapsed window j k : Int} (hpos : 0 < window) (hj : (j - 1) * window < elapsed)
    (hj' : elapsed ≤ j * window) (hk : (k - 1) * window < elapsed) (hk' : elapsed ≤ k * window) :
    j = k := by
  have hjk : j - 1 < k := lt_of_mul_lt_mul_right (hj.trans_le hk') hpos.le
  have hkj : k - 1 < j := lt_of_mul_lt_mul_right (hk.trans_le hj') hpos.le
  omega

/-- The quotient of the doubles is rounded up to the same integer. -/
theorem ceil_roundDouble {elapsed window : Int} (hpos : 0 < window) (hwindow : window < 2 ^ 53)
    (hnonneg : 0 ≤ elapsed) (helapsed : elapsed < 2 ^ 53) :
    ⌈roundDouble ((elapsed : ℚ) / window)⌉ = (elapsed + window - 1) / window := by
  obtain ⟨hlow, hhigh⟩ := ceil_bounds elapsed hpos
  generalize (elapsed + window - 1) / window = c at hlow hhigh ⊢
  have hw : (0 : ℚ) < window := by exact_mod_cast hpos
  have hdouble : IsDouble c := by
    refine isDouble_intCast (abs_lt.mpr ⟨?_, ?_⟩)
    · by_contra hneg
      have hle : c * window ≤ -1 * window := mul_le_mul_of_nonneg_right (by omega) hpos.le
      omega
    · by_contra hlarge
      have hle : elapsed * 1 ≤ (c - 1) * window :=
        mul_le_mul (by omega) (by omega) (by omega) (by omega)
      omega
  rw [Int.ceil_eq_iff]
  constructor
  · -- the rounding is smaller than the distance to the integer below
    have herror := abs_roundDouble_sub_le_max ((elapsed : ℚ) / window)
    have hquotient : (0 : ℚ) ≤ elapsed / window := by positivity
    have hmax : max |(elapsed : ℚ) / window| 1 / 2 ^ 53 < 1 / window := by
      rw [div_lt_div_iff₀ (by positivity) hw, abs_of_nonneg hquotient, one_mul, max_mul_of_nonneg _ _
        hw.le, div_mul_cancel₀ _ hw.ne', one_mul]
      exact max_lt (by exact_mod_cast helapsed) (by exact_mod_cast hwindow)
    have hdistance : ((c : ℚ) - 1) + 1 / window ≤ elapsed / window := by
      rw [le_div_iff₀ hw, add_mul, div_mul_cancel₀ _ hw.ne']
      exact_mod_cast hlow
    have hbelow := (abs_le.mp herror).1
    linarith
  · refine roundDouble_le hdouble ?_
    rw [div_le_iff₀ hw]
    exact_mod_cast hhigh

theorem elapsed_bounds (hfrom : command.fromTime.val ≤ instant)
    (hto : instant ≤ command.toTime.val) :
    0 ≤ instant - command.fromTime.val ∧ instant - command.fromTime.val < 2 ^ 50 := by
  have hstart := command.fromTime.property.1
  have hend := command.toTime.property.2
  omega

theorem roundDouble_elapsed (hfrom : command.fromTime.val ≤ instant)
    (hto : instant ≤ command.toTime.val) :
    roundDouble ((instant : ℚ) - command.fromTime.val) =
      ((instant - command.fromTime.val : Int) : ℚ) := by
  have hbounds := elapsed_bounds hfrom hto
  have hcast : (instant : ℚ) - command.fromTime.val =
      ((instant - command.fromTime.val : Int) : ℚ) := by push_cast; ring
  rw [hcast]
  exact roundDouble_of_isDouble (isDouble_intCast (abs_lt.mpr ⟨by omega, by omega⟩))

/-- A length that reaches behind the range is rounded to one that does. -/
theorem toTime_lt_rounded {length : ℚ}
    (h : ((command.toTime.val - command.fromTime.val + 1 : Int) : ℚ) ≤ length) :
    (command.toTime.val : ℚ) < roundDouble (command.fromTime.val + roundDouble length) := by
  have hfrom := command.fromTime.property
  have hto := command.toTime.property
  have hnonempty := command.nonempty
  simp only [IsInstant] at hfrom hto
  have hlength := le_roundDouble
    (isDouble_intCast (abs_lt.mpr ⟨by omega, by omega⟩)) h
  have hsum : ((command.toTime.val + 1 : Int) : ℚ) ≤
      command.fromTime.val + roundDouble length := by
    push_cast at hlength ⊢
    linarith
  have hend := le_roundDouble (isDouble_intCast (abs_lt.mpr ⟨by omega, by omega⟩)) hsum
  push_cast at hend
  linarith

/-- The end computed is the end of the instant's window, unless both lie behind the range. -/
theorem windowEnd_cases (hfrom : command.fromTime.val ≤ instant)
    (hto : instant ≤ command.toTime.val) :
    let endsAt := command.fromTime.val + command.windowIndex instant * command.window
    endsAt ≤ command.toTime.val ∧ command.windowEnd instant = endsAt ∨
      command.toTime.val < endsAt ∧ (command.toTime.val : ℚ) < command.windowEnd instant := by
  intro endsAt
  have hpos := command.window_pos
  have hbounds := elapsed_bounds hfrom hto
  have hrange := elapsed_bounds command.nonempty.le le_rfl
  have hstart := command.fromTime.property
  have hend := command.toTime.property
  simp only [IsInstant] at hstart hend
  have hcast : (command.windowSeconds : ℚ) * 1000 = (command.window : Int) := by
    rw [window]
    push_cast
    ring
  have hlength : command.window ≤ command.windowIndex instant * command.window :=
    le_mul_of_one_le_left hpos.le (le_max_left _ _)
  simp only [windowEnd, roundDouble_elapsed hfrom hto]
  by_cases hwindow : command.window < 2 ^ 53
  · have hms : command.windowMs = (command.window : Int) := by
      rw [windowMs, hcast]
      exact roundDouble_of_isDouble (isDouble_intCast (abs_lt.mpr ⟨by omega, by omega⟩))
    have hindex : max 1 ⌈roundDouble (((instant - command.fromTime.val : Int) : ℚ) /
        command.windowMs)⌉ = command.windowIndex instant := by
      rw [hms, ceil_roundDouble hpos hwindow hbounds.1 (by omega)]
      rfl
    have hproduct : (command.windowIndex instant : ℚ) * (command.window : Int) =
        ((command.windowIndex instant * command.window : Int) : ℚ) := by
      push_cast
      ring
    rw [hindex, hms, hproduct]
    generalize hspan : command.windowIndex instant * command.window = length at hlength
    have hexact : endsAt = command.fromTime.val + length := by rw [← hspan]
    by_cases hin : endsAt ≤ command.toTime.val
    · refine Or.inl ⟨hin, ?_⟩
      have hsum : (command.fromTime.val : ℚ) + (length : Int) = (endsAt : Int) := by
        rw [hexact]
        push_cast
        ring
      rw [roundDouble_of_isDouble (isDouble_intCast (n := length)
        (abs_lt.mpr ⟨by omega, by omega⟩)), hsum]
      exact roundDouble_of_isDouble (isDouble_intCast (abs_lt.mpr ⟨by omega, by omega⟩))
    · refine Or.inr ⟨not_le.mp hin, toTime_lt_rounded ?_⟩
      exact_mod_cast (show command.toTime.val - command.fromTime.val + 1 ≤ length by omega)
  · refine Or.inr ⟨by omega, toTime_lt_rounded ?_⟩
    have hdouble : IsDouble ((2 ^ 53 : Nat) : ℚ) := isDouble_natCast le_rfl
    have hms : ((2 ^ 53 : Nat) : ℚ) ≤ command.windowMs := by
      refine le_roundDouble hdouble ?_
      rw [hcast]
      exact_mod_cast not_lt.mp hwindow
    have hone : (1 : ℚ) ≤ ((max 1 ⌈roundDouble (((instant - command.fromTime.val : Int) : ℚ) /
        command.windowMs)⌉ : Int) : ℚ) := by exact_mod_cast le_max_left _ _
    have hspan : ((command.toTime.val - command.fromTime.val + 1 : Int) : ℚ) ≤
        ((2 ^ 53 : Nat) : ℚ) := by
      exact_mod_cast (show command.toTime.val - command.fromTime.val + 1 ≤ 2 ^ 53 by omega)
    refine hspan.trans (hms.trans ?_)
    exact le_mul_of_one_le_left ((Nat.cast_nonneg _).trans hms) hone

/-- An instant lies in one window of the range, the one of its number. -/
theorem inWindow_iff {k : Int} (hfrom : command.fromTime.val ≤ instant) (hk : 1 ≤ k) :
    command.InWindow (command.fromTime.val + k * command.window) instant ↔
      k = command.windowIndex instant := by
  have hpos := command.window_pos
  have hsplit : k * command.window = (k - 1) * command.window + command.window := by ring
  obtain ⟨hlow, hhigh⟩ := ceil_bounds (instant - command.fromTime.val) hpos
  rw [InWindow, windowIndex]
  rcases hfrom.lt_or_eq with hlt | heq
  · -- after the start the number is the quotient itself
    have hindex : 1 ≤ (instant - command.fromTime.val + command.window - 1) / command.window := by
      by_contra hzero
      have hle : (instant - command.fromTime.val + command.window - 1) / command.window *
          command.window ≤ 0 * command.window := mul_le_mul_of_nonneg_right (by omega) hpos.le
      omega
    rw [max_eq_right hindex]
    constructor
    · rintro (⟨hafter, hbefore⟩ | ⟨hstart, -⟩)
      · exact index_unique hpos (by omega) (by omega) hlow hhigh
      · omega
    · rintro rfl
      exact Or.inl ⟨by omega, by omega⟩
  · subst heq
    have hzero : (command.fromTime.val - command.fromTime.val + command.window - 1) /
        command.window = 0 := by
      rw [sub_self, zero_add]
      exact Int.ediv_eq_zero_of_lt (by omega) (by omega)
    rw [hzero, max_eq_left (by norm_num)]
    constructor
    · rintro (⟨hafter, -⟩ | ⟨-, hend⟩)
      · have hnonneg : 0 ≤ (k - 1) * command.window := mul_nonneg (by omega) hpos.le
        omega
      · have hsame : k * command.window = 1 * command.window := by omega
        exact mul_right_cancel₀ hpos.ne' hsame
    · rintro rfl
      exact Or.inr ⟨rfl, by rw [one_mul]⟩

/-- What is computed for an instant of the range is the end of its window, if that is of the range
too. -/
theorem windowEnd_eq_iff (timestamp : Int) (hfrom : command.fromTime.val ≤ instant)
    (hto : instant ≤ command.toTime.val) :
    command.windowEnd instant ≤ command.toTime.val ∧ command.windowEnd instant = timestamp ↔
      command.IsWindowEnd timestamp ∧ command.InWindow timestamp instant := by
  have hcases := windowEnd_cases hfrom hto
  constructor
  · rintro ⟨hle, heq⟩
    rcases hcases with ⟨hin, hexact⟩ | ⟨-, hout⟩
    · rw [heq] at hexact
      obtain rfl : timestamp = command.fromTime.val +
          command.windowIndex instant * command.window := by exact_mod_cast hexact
      have hindex : 1 ≤ command.windowIndex instant := le_max_left _ _
      exact ⟨⟨_, hindex, rfl, hin⟩, (inWindow_iff hfrom hindex).mpr rfl⟩
    · exact absurd hle hout.not_ge
  · rintro ⟨⟨k, hk, rfl, hle⟩, hwindow⟩
    obtain rfl := (inWindow_iff hfrom hk).mp hwindow
    rcases hcases with ⟨hin, hexact⟩ | ⟨hbehind, -⟩
    · rw [hexact]
      exact ⟨by exact_mod_cast hin, rfl⟩
    · omega

end SnapshotCommand

end Cryptox.Sentiment
