import Cryptox.Search.Mutation
import Cryptox.Strategy.History

/-!
# The legal values of a parameter

A draw lies within its list. The legal values of a number between two bounds are the steps from the
lower one, and each value of a built-in strategy's parameter is one that the strategy accepts.
-/
namespace Cryptox.Search

open Cryptox.Backtesting (JsNumber Decimal IsRandom randomIndex)
open Cryptox.Library

section Draws

variable {random : Nat → ℚ} {position : Nat}

theorem randomIndex_lt {random : ℚ} (h : IsRandom random) {n : Nat} (hn : 0 < n) :
    randomIndex random n < n := by
  have hlt := roundDouble_mul_lt h.double h.nonneg h.lt_one hn
  have hfloor : ⌊roundDouble (random * n)⌋ < n := Int.floor_lt.mpr (by exact_mod_cast hlt)
  rw [randomIndex]
  omega

theorem draw_mem {α : Type} {values : List α} (h : IsRandom (random position)) (hne : values ≠ [])
    (fallback : α) : draw random position values fallback ∈ values := by
  have hlt := randomIndex_lt h (List.length_pos_iff.mpr hne)
  rw [draw, List.getD_eq_getElem?_getD, List.getElem?_eq_getElem hlt]
  exact List.getElem_mem hlt

end Draws

section Collected

variable {descriptor : SearchParameterDescriptor} {current value : JsNumber}
  {values : List JsNumber} {turns index : Nat}

theorem mem_collectValues (h : value ∈ collectValues descriptor current turns index values) :
    value ∈ values ∨ aligned value descriptor = true ∧
      ∃ i, (JsNumber.ofInt (i : Nat)).lt (countOf descriptor current) = true ∧
        value = valueAt descriptor current i := by
  induction turns generalizing index values with
  | zero => exact Or.inl h
  | succ turns ih =>
    rw [collectValues] at h
    by_cases hcount : (JsNumber.ofInt index).lt (countOf descriptor current) = true
    · rw [if_pos hcount] at h
      rcases ih h with hmem | hlater
      · split at hmem
        · rename_i hnew
          rw [Bool.and_eq_true] at hnew
          rcases List.mem_append.mp hmem with hold | hlast
          · exact Or.inl hold
          · rw [List.mem_singleton] at hlast
            exact Or.inr ⟨hlast ▸ hnew.1, index, hcount, hlast⟩
        · exact Or.inl hmem
      · exact Or.inr hlater
    · rw [if_neg hcount] at h
      exact Or.inl h

theorem mem_numericValues (h : value ∈ numericValues descriptor current) :
    aligned value descriptor = true ∧
      ∃ i, (JsNumber.ofInt (i : Nat)).lt (countOf descriptor current) = true ∧
        value = valueAt descriptor current i :=
  (mem_collectValues h).resolve_left (List.not_mem_nil)

theorem mem_collectValues_of_mem (h : value ∈ values) :
    value ∈ collectValues descriptor current turns index values := by
  induction turns generalizing index values with
  | zero => exact h
  | succ turns ih =>
    rw [collectValues]
    split
    · apply ih
      split
      · exact List.mem_append_left _ h
      · exact h
    · exact h

/-- The first value is legal where it is aligned. -/
theorem first_mem_numericValues
    (hcount : (JsNumber.ofInt 0).lt (countOf descriptor current) = true)
    (haligned : aligned (valueAt descriptor current 0) descriptor = true) :
    valueAt descriptor current 0 ∈ numericValues descriptor current := by
  have hturns : ∀ turns, valueAt descriptor current 0 ∈
      collectValues descriptor current (turns + 1) 0 [] := by
    intro turns
    rw [collectValues, Nat.cast_zero, if_pos hcount]
    dsimp only
    rw [haligned]
    exact mem_collectValues_of_mem List.mem_cons_self
  exact hturns 9999

end Collected

/-- A value that a strategy accepts for a number. -/
structure Accepted (descriptor : Strategy.StrategyParameterDescriptor) (number : JsNumber) :
    Prop where
  finite : number.isFinite = true
  integer : descriptor.type = .integer → number.isInteger = true
  minimum : ∀ minimum ∈ descriptor.minimum, number.lt minimum = false
  maximum : ∀ maximum ∈ descriptor.maximum, maximum.lt number = false

/-- A number between two bounds, without a step of its own. -/
structure Bounded (descriptor : SearchParameterDescriptor) (minimum maximum : Decimal) : Prop where
  kind : descriptor.type ≠ .enumerated
  step : descriptor.step = none
  low : descriptor.minimum = some (.finite minimum)
  high : descriptor.maximum = some (.finite maximum)

section Bounds

variable {descriptor : SearchParameterDescriptor} {minimum maximum : Decimal}
  {current number : JsNumber}

namespace Bounded

theorem accepted_iff (h : Bounded descriptor minimum maximum) :
    Accepted descriptor.toStrategyParameterDescriptor number ↔ number.isFinite = true ∧
      (descriptor.type = .integer → number.isInteger = true) ∧
      minimum.toRat ≤ number.toRat ∧ number.toRat ≤ maximum.toRat := by
  constructor
  · intro hok
    exact ⟨hok.finite, hok.integer,
      (JsNumber.lt_eq_false_iff rfl hok.finite).mp (hok.minimum _ h.low),
      (JsNumber.lt_eq_false_iff hok.finite rfl).mp (hok.maximum _ h.high)⟩
  · rintro ⟨hfinite, hinteger, hlow, hhigh⟩
    refine ⟨hfinite, hinteger, fun m hm => ?_, fun m hm => ?_⟩
    · obtain rfl := Option.some.inj (h.low.symm.trans hm)
      exact (JsNumber.lt_eq_false_iff rfl hfinite).mpr hlow
    · obtain rfl := Option.some.inj (h.high.symm.trans hm)
      exact (JsNumber.lt_eq_false_iff hfinite rfl).mpr hhigh

/-- Between two bounds nothing depends on the current value. -/
theorem stepOf_eq (h : Bounded descriptor minimum maximum) :
    stepOf descriptor current = stepOf descriptor (.ofInt 0) := by
  rw [stepOf, stepOf, h.low, h.high]
  rfl

theorem firstOf_eq (h : Bounded descriptor minimum maximum) :
    firstOf descriptor current = .finite minimum := by
  rw [firstOf, h.low]
  rfl

theorem countOf_eq (h : Bounded descriptor minimum maximum) :
    countOf descriptor current = countOf descriptor (.ofInt 0) := by
  unfold countOf
  rw [h.stepOf_eq, h.firstOf_eq, h.firstOf_eq, h.high]
  rfl

theorem valueAt_eq (h : Bounded descriptor minimum maximum) (index : Nat) :
    valueAt descriptor current index = valueAt descriptor (.ofInt 0) index := by
  rw [valueAt, valueAt, h.stepOf_eq, h.firstOf_eq, h.firstOf_eq]

/-- Whether a value is aligned is asked a little beyond the bounds. -/
theorem aligned_eq (h : Bounded descriptor minimum maximum) :
    aligned number descriptor =
      (!number.lt ((JsNumber.finite minimum).subtract (.finite ⟨1, 9⟩)) &&
        !((JsNumber.finite maximum).add (.finite ⟨1, 9⟩)).lt number &&
        !(descriptor.type == .integer && !number.isInteger)) := by
  rw [aligned, h.low, h.high, h.step]
  simp

theorem aligned_of_accepted (h : Bounded descriptor minimum maximum)
    (hlow : ((JsNumber.finite minimum).subtract (.finite ⟨1, 9⟩)).le (.finite minimum) = true)
    (hhigh : (JsNumber.finite maximum).le ((JsNumber.finite maximum).add (.finite ⟨1, 9⟩)) = true)
    (hok : Accepted descriptor.toStrategyParameterDescriptor number) :
    aligned number descriptor = true := by
  obtain ⟨hfinite, hinteger, hmin, hmax⟩ := h.accepted_iff.mp hok
  rw [h.aligned_eq, JsNumber.lt_eq_false_of_le rfl hfinite hlow hmin,
    JsNumber.lt_eq_false_of_ge hfinite rfl hhigh hmax]
  cases htype : descriptor.type <;> simp_all

/-- A whole number that is aligned lies within the bounds. -/
theorem accepted_of_aligned {a b : ℤ}
    (h : Bounded descriptor (Decimal.fromInteger a) (Decimal.fromInteger b))
    (htype : descriptor.type = .integer)
    (hlow : (JsNumber.ofInt (a - 1)).lt ((JsNumber.ofInt a).subtract (.finite ⟨1, 9⟩)) = true)
    (hhigh : ((JsNumber.ofInt b).add (.finite ⟨1, 9⟩)).lt (.ofInt (b + 1)) = true)
    (haligned : aligned number descriptor = true) :
    Accepted descriptor.toStrategyParameterDescriptor number := by
  rw [h.aligned_eq, htype] at haligned
  simp only [Bool.and_eq_true, Bool.not_eq_true', beq_self_eq_true, Bool.true_and,
    Bool.not_eq_false'] at haligned
  obtain ⟨⟨hmin, hmax⟩, hinteger⟩ := haligned
  obtain ⟨shown, rfl, hrat⟩ := Strategy.toRat_of_isInteger hinteger
  have hfinite : ∀ n : ℤ, (JsNumber.ofInt n).isFinite = true := fun _ => rfl
  have habove := JsNumber.toRat_lt_of_below (hfinite (a - 1)) rfl hlow hmin
  have hbelow := JsNumber.toRat_lt_of_above rfl (hfinite (b + 1)) hhigh hmax
  refine h.accepted_iff.mpr ⟨rfl, fun _ => hinteger, ?_, ?_⟩
  · rw [hrat, JsNumber.ofInt, JsNumber.toRat, Decimal.fromInteger_toRat] at habove
    rw [hrat, Decimal.fromInteger_toRat]
    have hint : a - 1 < shown.normalize.units := by exact_mod_cast habove
    exact_mod_cast Int.le_of_sub_one_lt hint
  · rw [hrat, JsNumber.ofInt, JsNumber.toRat, Decimal.fromInteger_toRat] at hbelow
    rw [hrat, Decimal.fromInteger_toRat]
    have hint : shown.normalize.units < b + 1 := by exact_mod_cast hbelow
    exact_mod_cast Int.le_of_lt_add_one hint

/-- The legal values of a number are the steps up to the last index. -/
theorem accepted_of_progression {step : Decimal} {a s : ℤ} {last : Nat}
    (h : Bounded descriptor minimum maximum) (htype : descriptor.type = .number)
    (hstep : stepOf descriptor (.ofInt 0) = .finite step)
    (hcount : countOf descriptor (.ofInt 0) = .ofInt (last + 1 : Nat)) (hlast : last ≤ 100)
    (ha : minimum.toRat = a / 10 ^ 4) (hs : step.toRat = s / 10 ^ 4)
    (hb : maximum.toRat = (a + last * s) / 10 ^ 4) (hsmall : |a| ≤ 10 ^ 6) (hs0 : 0 ≤ s)
    (hs1 : s ≤ 10 ^ 4)
    (hgrid : ∀ i : Nat, i ≤ last → a + i * s = 0 ∨ a + i * s ≤ -2 ∨ 2 ≤ a + i * s)
    (hmem : number ∈ numericValues descriptor current) :
    Accepted descriptor.toStrategyParameterDescriptor number := by
  obtain ⟨-, i, hi, rfl⟩ := mem_numericValues hmem
  rw [h.countOf_eq, hcount, JsNumber.lt_iff rfl rfl, Strategy.toRat_ofInt,
    Strategy.toRat_ofInt] at hi
  have hle : i ≤ last := by
    have hlt : i < last + 1 := by exact_mod_cast hi
    omega
  have hten : (0 : ℚ) < 10 ^ 4 := by norm_num
  have hfirst : |minimum.toRat| ≤ 100 := by
    have hcast : |(a : ℚ)| ≤ 10 ^ 6 := by exact_mod_cast hsmall
    rw [ha, abs_div, abs_of_pos hten, div_le_iff₀ hten]
    linarith
  have hone : |step.toRat| ≤ 1 := by
    have hcast : (0 : ℚ) ≤ s ∧ (s : ℚ) ≤ 10 ^ 4 := ⟨by exact_mod_cast hs0, by exact_mod_cast hs1⟩
    rw [hs, abs_of_nonneg (div_nonneg hcast.1 hten.le), div_le_one hten]
    exact hcast.2
  have hq : minimum.toRat + i * step.toRat = ((a + i * s : ℤ) : ℚ) / 10 ^ 4 := by
    rw [ha, hs]
    push_cast
    ring
  have hdigits : a + i * s = 0 ∨ 2 ≤ |a + i * s| :=
    (hgrid i hle).imp_right fun h => le_abs.mpr (h.symm.imp_right fun hneg => by omega)
  obtain ⟨shown, hshown, hrat⟩ :=
    JsNumber.toFixed_progression hfirst hone (hle.trans hlast) hq hdigits (by norm_num)
  have hvalue : valueAt descriptor current i = .finite shown := by
    rw [h.valueAt_eq, valueAt, h.firstOf_eq, hstep, hshown]
  have hi0 : (0 : ℚ) ≤ i * s := by positivity
  have hil : (i : ℚ) * s ≤ last * s := by
    have hcast : (i : ℚ) ≤ last := by exact_mod_cast hle
    have hs0' : (0 : ℚ) ≤ s := by exact_mod_cast hs0
    gcongr
  rw [hvalue]
  refine h.accepted_iff.mpr ⟨rfl, fun hinteger => ?_, ?_, ?_⟩
  · rw [htype] at hinteger
    cases hinteger
  · rw [JsNumber.toRat, hrat, hq, ha, div_le_div_iff_of_pos_right hten]
    push_cast
    linarith
  · rw [JsNumber.toRat, hrat, hq, hb, div_le_div_iff_of_pos_right hten]
    push_cast
    linarith

end Bounded

end Bounds

/-- A parameter as the search finds it at a definition: none of the built-in strategies has a step. -/
def snapshot (descriptor : Strategy.StrategyParameterDescriptor) : SearchParameterDescriptor where
  toStrategyParameterDescriptor := descriptor
  required := true
  step := none

/-- What is legal and what a strategy accepts are the same. -/
structure Sound (descriptor : SearchParameterDescriptor) : Prop where
  kind : descriptor.type ≠ .enumerated
  aligned : ∀ number, Accepted descriptor.toStrategyParameterDescriptor number →
    aligned number descriptor = true
  legal : ∀ current, ∀ number ∈ numericValues descriptor current,
    Accepted descriptor.toStrategyParameterDescriptor number

section BuiltIn

open Strategy (parameter hundredths tenths builtInFactories)

theorem sound_integer {key : String} {default : JsNumber} {a b : ℤ}
    (hlow : (JsNumber.ofInt (a - 1)).lt ((JsNumber.ofInt a).subtract (.finite ⟨1, 9⟩)) = true)
    (hlow' : ((JsNumber.ofInt a).subtract (.finite ⟨1, 9⟩)).le (.ofInt a) = true)
    (hhigh : ((JsNumber.ofInt b).add (.finite ⟨1, 9⟩)).lt (.ofInt (b + 1)) = true)
    (hhigh' : (JsNumber.ofInt b).le ((JsNumber.ofInt b).add (.finite ⟨1, 9⟩)) = true) :
    Sound (snapshot (parameter key .integer default (.ofInt a) (.ofInt b))) := by
  have hbounded : Bounded (snapshot (parameter key .integer default (.ofInt a) (.ofInt b)))
      (Decimal.fromInteger a) (Decimal.fromInteger b) :=
    ⟨by simp [snapshot, parameter], rfl, rfl, rfl⟩
  refine ⟨hbounded.kind, fun number hok => hbounded.aligned_of_accepted hlow' hhigh' hok, ?_⟩
  intro current number hmem
  exact hbounded.accepted_of_aligned rfl hlow hhigh (mem_numericValues hmem).1

theorem sound_number {key : String} {default : JsNumber} {minimum maximum : Decimal}
    (step : Decimal) (a s : ℤ) (last : Nat)
    (hlow : ((JsNumber.finite minimum).subtract (.finite ⟨1, 9⟩)).le (.finite minimum) = true)
    (hhigh : (JsNumber.finite maximum).le ((JsNumber.finite maximum).add (.finite ⟨1, 9⟩)) = true)
    (hstep : stepOf (snapshot (parameter key .number default (.finite minimum) (.finite maximum)))
      (.ofInt 0) = .finite step)
    (hcount : countOf (snapshot (parameter key .number default (.finite minimum) (.finite maximum)))
      (.ofInt 0) = .ofInt (last + 1 : Nat)) (hlast : last ≤ 100)
    (ha : minimum.toRat = a / 10 ^ 4) (hs : step.toRat = s / 10 ^ 4)
    (hb : maximum.toRat = (a + last * s) / 10 ^ 4) (hsmall : |a| ≤ 10 ^ 6) (hs0 : 0 ≤ s)
    (hs1 : s ≤ 10 ^ 4) (hgrid : ∀ i : Nat, i ≤ last → a + i * s = 0 ∨ a + i * s ≤ -2 ∨ 2 ≤ a + i * s) :
    Sound (snapshot (parameter key .number default (.finite minimum) (.finite maximum))) := by
  have hbounded : Bounded
      (snapshot (parameter key .number default (.finite minimum) (.finite maximum)))
      minimum maximum := ⟨by simp [snapshot, parameter], rfl, rfl, rfl⟩
  refine ⟨hbounded.kind, fun number hok => hbounded.aligned_of_accepted hlow hhigh hok, ?_⟩
  intro current number hmem
  exact hbounded.accepted_of_progression rfl hstep hcount hlast ha hs hb hsmall hs0 hs1 hgrid hmem

theorem builtIn_sound {numbers : Strategy.Numbers} {artifactSha256 : String → String}
    {factory : Strategy.StrategyFactory} (hfactory : factory ∈ builtInFactories numbers artifactSha256)
    {descriptor : Strategy.StrategyParameterDescriptor}
    (hmem : descriptor ∈ factory.descriptor.parameters) : Sound (snapshot descriptor) := by
  simp only [builtInFactories, List.mem_cons, List.not_mem_nil, or_false] at hfactory
  rcases hfactory with rfl | rfl | rfl | rfl | rfl <;>
    simp only [Strategy.bollinger, Strategy.ma, Strategy.rsi, Strategy.sentimentFactory,
      Strategy.supportResistanceFactory, List.mem_cons, List.not_mem_nil, or_false] at hmem
  · rcases hmem with rfl | rfl
    · apply sound_integer <;> decide +kernel
    · apply sound_number ⟨49, 3⟩ 1000 490 100 <;> decide +kernel
  · rcases hmem with rfl | rfl
    · apply sound_integer <;> decide +kernel
    · apply sound_integer <;> decide +kernel
  · rcases hmem with rfl | rfl | rfl
    · apply sound_integer <;> decide +kernel
    · apply sound_number ⟨5, 1⟩ 0 5000 100 <;> decide +kernel
    · apply sound_number ⟨5, 1⟩ 500000 5000 100 <;> decide +kernel
  · rcases hmem with rfl | rfl
    · apply sound_number ⟨1, 2⟩ 100 100 99 <;> decide +kernel
    · apply sound_number ⟨1, 2⟩ (-10000) 100 99 <;> decide +kernel
  · rcases hmem with rfl | rfl
    · apply sound_integer <;> decide +kernel
    · apply sound_number ⟨1999, 4⟩ 100 1999 100 <;> decide +kernel

end BuiltIn

end Cryptox.Search
