import Cryptox.Library.DecimalText
import Cryptox.Library.Json

/-!
# Decimal numerals

A number is kept as the decimal that its text denotes. It is printed as ECMAScript prints those
digits, and read by the grammar of JSON, which takes back every text that was printed.
-/
namespace Cryptox.Library

/-- `units * 10 ^ exponent`, with no zeros at the end of the units. -/
structure DecimalNumber where
  units : ℤ
  exponent : ℤ
  canonical : units % 10 ≠ 0 ∨ units = 0 ∧ exponent = 0
deriving DecidableEq

namespace DecimalNumber

section Scaling

def toRat (number : DecimalNumber) : ℚ := number.units * 10 ^ number.exponent

def dropZeros : Nat → ℤ → ℤ → ℤ × ℤ
  | 0, units, exponent => (units, exponent)
  | fuel + 1, units, exponent =>
    if units % 10 = 0 then dropZeros fuel (units / 10) (exponent + 1) else (units, exponent)

theorem dropZeros_canonical {fuel : Nat} {units exponent : ℤ} (hunits : units ≠ 0)
    (hfuel : units.natAbs ≤ fuel) : (dropZeros fuel units exponent).1 % 10 ≠ 0 := by
  induction fuel generalizing units exponent with
  | zero => omega
  | succ fuel ih =>
    rw [dropZeros]
    split_ifs with hzero
    · exact ih (by omega) (by omega)
    · exact hzero

theorem dropZeros_value (fuel : Nat) (units exponent : ℤ) :
    ((dropZeros fuel units exponent).1 : ℚ) * 10 ^ (dropZeros fuel units exponent).2 =
      units * 10 ^ exponent := by
  induction fuel generalizing units exponent with
  | zero => rfl
  | succ fuel ih =>
    rw [dropZeros]
    split_ifs with hzero
    · have htens : (units : ℚ) = (units / 10 : ℤ) * 10 := by
        exact_mod_cast (Int.ediv_mul_cancel (Int.dvd_of_emod_eq_zero hzero)).symm
      rw [ih, zpow_add₀ (by norm_num), zpow_one, htens]
      ring
    · rfl

def ofScaled (units exponent : ℤ) : DecimalNumber :=
  if h : units = 0 then ⟨0, 0, Or.inr ⟨rfl, rfl⟩⟩
  else ⟨(dropZeros units.natAbs units exponent).1, (dropZeros units.natAbs units exponent).2,
    Or.inl (dropZeros_canonical h le_rfl)⟩

def ofInt (units : ℤ) : DecimalNumber := ofScaled units 0

def isInteger (number : DecimalNumber) : Bool := 0 ≤ number.exponent

/-- The integer that a number is. -/
def toInt (number : DecimalNumber) : ℤ := number.units * 10 ^ number.exponent.toNat

@[simp] theorem toRat_ofScaled (units exponent : ℤ) :
    (ofScaled units exponent).toRat = units * 10 ^ exponent := by
  unfold ofScaled
  split_ifs with hzero
  · rw [toRat, hzero]
    simp
  · exact dropZeros_value _ _ _

/-- Units of one value with a smaller exponent end with a zero. -/
theorem exponent_le_of_toRat_eq {first second : DecimalNumber}
    (h : first.toRat = second.toRat) (hunits : first.units ≠ 0) :
    second.exponent ≤ first.exponent := by
  by_contra hlt
  obtain ⟨n, hn⟩ := Int.eq_ofNat_of_zero_le
    (show 0 ≤ second.exponent - first.exponent - 1 by omega)
  have hexponent : second.exponent = first.exponent + 1 + n := by omega
  have htens : first.units = second.units * 10 ^ n * 10 := by
    have hpos : (10 : ℚ) ^ first.exponent ≠ 0 := by positivity
    have hvalue : (first.units : ℚ) * 10 ^ first.exponent =
        second.units * 10 ^ n * 10 * 10 ^ first.exponent := by
      calc (first.units : ℚ) * 10 ^ first.exponent = second.units * 10 ^ second.exponent := h
        _ = second.units * 10 ^ n * 10 * 10 ^ first.exponent := by
          rw [hexponent, zpow_add₀ (by norm_num), zpow_add₀ (by norm_num), zpow_one, zpow_natCast]
          ring
    exact_mod_cast mul_right_cancel₀ hpos hvalue
  rcases first.canonical with hdigit | ⟨hzero, -⟩
  · apply hdigit
    rw [htens]
    exact Int.mul_emod_left _ _
  · exact hunits hzero

theorem toRat_inj {first second : DecimalNumber} (h : first.toRat = second.toRat) :
    first = second := by
  have hpow : ∀ e : ℤ, (10 : ℚ) ^ e ≠ 0 := fun e => by positivity
  have hzero : ∀ number : DecimalNumber, number.units = 0 → number = ofInt 0 := by
    rintro ⟨units, exponent, hcanonical⟩ rfl
    rcases hcanonical with hdigit | ⟨-, rfl⟩
    · exact absurd rfl hdigit
    · rfl
  have hiff : first.units = 0 ↔ second.units = 0 := by
    have hsides : (first.units : ℚ) = 0 ↔ (second.units : ℚ) = 0 := by
      rw [toRat, toRat] at h
      rw [← mul_eq_zero_iff_right (hpow first.exponent), h,
        mul_eq_zero_iff_right (hpow second.exponent)]
    exact_mod_cast hsides
  by_cases hfirst : first.units = 0
  · rw [hzero first hfirst, hzero second (hiff.mp hfirst)]
  · have hsecond : second.units ≠ 0 := fun hs => hfirst (hiff.mpr hs)
    have hexponent : first.exponent = second.exponent :=
      le_antisymm (exponent_le_of_toRat_eq h.symm hsecond) (exponent_le_of_toRat_eq h hfirst)
    have hunits : first.units = second.units := by
      rw [toRat, toRat, hexponent] at h
      exact_mod_cast mul_right_cancel₀ (hpow _) h
    cases first
    cases second
    cases hexponent
    cases hunits
    rfl

theorem ofScaled_eq {number : DecimalNumber} {units exponent : ℤ}
    (h : (units : ℚ) * 10 ^ exponent = number.toRat) : ofScaled units exponent = number :=
  toRat_inj ((toRat_ofScaled units exponent).trans h)

theorem ofInt_isInteger (units : ℤ) : (ofInt units).isInteger = true := by
  have hgrow : ∀ (fuel : Nat) (u e : ℤ), 0 ≤ e → 0 ≤ (dropZeros fuel u e).2 := by
    intro fuel
    induction fuel with
    | zero => exact fun _ _ he => he
    | succ fuel ih =>
      intro u e he
      rw [dropZeros]
      split_ifs
      · exact ih _ _ (by omega)
      · exact he
  rw [isInteger, decide_eq_true_iff, ofInt, ofScaled]
  split_ifs
  · rfl
  · exact hgrow _ _ _ le_rfl

theorem toRat_of_isInteger {number : DecimalNumber} (h : number.isInteger = true) :
    number.toRat = number.toInt := by
  rw [isInteger, decide_eq_true_iff] at h
  rw [toRat, toInt]
  push_cast
  rw [← zpow_natCast, Int.toNat_of_nonneg h]

@[simp] theorem toInt_ofInt (units : ℤ) : (ofInt units).toInt = units := by
  have hvalue := toRat_of_isInteger (ofInt_isInteger units)
  rw [ofInt, toRat_ofScaled, zpow_zero, mul_one] at hvalue
  exact_mod_cast hvalue.symm

end Scaling

section Texts

/-- The text of a positive number, from its digits and the exponent of the last of them. -/
def positiveNumeral (digits : List Char) (exponent : ℤ) : List Char :=
  let point := exponent + digits.length
  if digits.length ≤ point ∧ point ≤ 21 then
    digits ++ List.replicate (point - digits.length).toNat '0'
  else if 0 < point ∧ point ≤ 21 then
    digits.take point.toNat ++ '.' :: digits.drop point.toNat
  else if -6 < point ∧ point ≤ 0 then
    '0' :: '.' :: (List.replicate (-point).toNat '0' ++ digits)
  else
    significandText digits ++
      'e' :: (if 0 < point - 1 then '+' else '-') :: digitsOf (point - 1).natAbs

def print (number : DecimalNumber) : List Char :=
  if number.units = 0 then ['0']
  else if number.units < 0 then
    '-' :: positiveNumeral (digitsOf number.units.natAbs) number.exponent
  else positiveNumeral (digitsOf number.units.natAbs) number.exponent

def readNatural (digits : List Char) : Option Nat :=
  if digits ≠ [] ∧ digits.all Char.isDigit = true then some (Nat.ofDigitChars 10 digits 0) else none

def readFraction : List Char → Option (List Char × List Char)
  | '.' :: rest =>
    if rest.takeWhile Char.isDigit = [] then none
    else some (rest.takeWhile Char.isDigit, rest.dropWhile Char.isDigit)
  | rest => some ([], rest)

def readSigned : List Char → Option ℤ
  | '+' :: digits => (readNatural digits).map fun n : Nat => (n : ℤ)
  | '-' :: digits => (readNatural digits).map fun n : Nat => -(n : ℤ)
  | digits => (readNatural digits).map fun n : Nat => (n : ℤ)

def readPower : List Char → Option ℤ
  | [] => some 0
  | c :: rest => if c = 'e' ∨ c = 'E' then readSigned rest else none

/-- The units and the exponent of a numeral without a sign. No digit follows a zero it starts
with. -/
def readUnsigned (source : List Char) : Option (Nat × ℤ) := do
  let whole := source.takeWhile Char.isDigit
  if whole = [] ∨ (whole.head? = some '0' ∧ whole.length ≠ 1) then none
  else
    let (fraction, rest) ← readFraction (source.dropWhile Char.isDigit)
    let power ← readPower rest
    return (Nat.ofDigitChars 10 (whole ++ fraction) 0, power - fraction.length)

def read : List Char → Option DecimalNumber
  | '-' :: rest => (readUnsigned rest).map fun scaled => ofScaled (-scaled.1) scaled.2
  | source => (readUnsigned source).map fun scaled => ofScaled scaled.1 scaled.2

end Texts

section RoundTrip

def fractionText : List Char → List Char
  | [] => []
  | digits => '.' :: digits

def powerText (power : ℤ) : List Char :=
  if power = 0 then [] else 'e' :: (if 0 < power then '+' else '-') :: digitsOf power.natAbs

def AllDigits (digits : List Char) : Prop := ∀ c ∈ digits, c.isDigit = true

/-- The first digit of a positive number is not zero. -/
theorem head?_digitsOf {n : Nat} (h : 0 < n) : (digitsOf n).head? ≠ some '0' := by
  induction n using Nat.strong_induction_on with
  | _ n ih =>
    by_cases hsmall : n < 10
    · have hdigit : ∀ d < 10, 0 < d → d.digitChar ≠ '0' := by decide
      rw [digitsOf, Nat.toDigits_of_lt_base hsmall]
      exact fun heq => hdigit n hsmall h (Option.some.inj heq)
    · rw [digitsOf, Nat.toDigits_of_base_le (by norm_num) (by omega),
        List.head?_append_of_ne_nil _ Nat.toDigits_ne_nil]
      exact ih (n / 10) (by omega) (by omega)

theorem span_digits {digits rest : List Char} (hdigits : AllDigits digits)
    (hrest : ∀ c ∈ rest.head?, c.isDigit = false) :
    (digits ++ rest).takeWhile Char.isDigit = digits ∧
      (digits ++ rest).dropWhile Char.isDigit = rest := by
  induction digits with
  | nil =>
    cases rest with
    | nil => exact ⟨rfl, rfl⟩
    | cons c rest =>
      have hc : c.isDigit = false := hrest c rfl
      exact ⟨List.takeWhile_cons_of_neg (by simp [hc]), List.dropWhile_cons_of_neg (by simp [hc])⟩
  | cons c digits ih =>
    have hc := hdigits c List.mem_cons_self
    obtain ⟨htake, hdrop⟩ := ih fun d hd => hdigits d (List.mem_cons_of_mem _ hd)
    rw [List.cons_append, List.takeWhile_cons_of_pos hc, List.dropWhile_cons_of_pos hc, htake]
    exact ⟨rfl, hdrop⟩

theorem readNatural_digitsOf (n : Nat) : readNatural (digitsOf n) = some n := by
  have hdigits : (digitsOf n).all Char.isDigit = true :=
    List.all_eq_true.mpr fun _ hc => isDigit_of_mem_digitsOf hc
  rw [readNatural, if_pos ⟨Nat.toDigits_ne_nil, hdigits⟩, ofDigitChars_digitsOf]

theorem readPower_powerText (power : ℤ) : readPower (powerText power) = some power := by
  unfold powerText
  split_ifs with hzero hpos
  · rw [hzero]
    rfl
  · have hvalue : ((power.natAbs : Nat) : ℤ) = power := by omega
    simp only [readPower, readSigned, true_or, if_pos, readNatural_digitsOf, Option.map_some,
      hvalue]
  · have hvalue : -((power.natAbs : Nat) : ℤ) = power := by omega
    simp only [readPower, readSigned, true_or, if_pos, readNatural_digitsOf, Option.map_some,
      hvalue]

theorem head?_powerText (power : ℤ) : ∀ c ∈ (powerText power).head?, c.isDigit = false := by
  unfold powerText
  split_ifs <;> intro c hc <;> cases hc <;> rfl

theorem readFraction_fractionText {fraction : List Char} (hfraction : AllDigits fraction)
    (power : ℤ) :
    readFraction (fractionText fraction ++ powerText power) = some (fraction, powerText power) := by
  cases fraction with
  | nil =>
    have hpoint : ∀ rest, powerText power ≠ '.' :: rest := by
      unfold powerText
      split_ifs <;> intro rest heq <;> cases heq
    rw [fractionText, List.nil_append]
    unfold readFraction
    split
    · next heq => exact absurd heq (hpoint _)
    · rfl
  | cons c fraction =>
    obtain ⟨htake, hdrop⟩ := span_digits hfraction (head?_powerText power)
    rw [fractionText, List.cons_append]
    · simp only [readFraction, htake, hdrop, if_neg (List.cons_ne_nil c fraction)]
    · exact fun h => nomatch h

/-- A numeral made of its parts is read as what they denote. -/
theorem readUnsigned_parts {whole fraction : List Char} (power : ℤ) (hwhole : AllDigits whole)
    (hfraction : AllDigits fraction) (hnonempty : whole ≠ [])
    (hzero : whole.head? = some '0' → whole.length = 1) :
    readUnsigned (whole ++ (fractionText fraction ++ powerText power)) =
      some (Nat.ofDigitChars 10 (whole ++ fraction) 0, power - fraction.length) := by
  have hrest : ∀ c ∈ (fractionText fraction ++ powerText power).head?, c.isDigit = false := by
    cases fraction with
    | nil => exact head?_powerText power
    | cons d fraction =>
      intro c hc
      cases hc
      rfl
  obtain ⟨htake, hdrop⟩ := span_digits hwhole hrest
  have hstart : ¬ (whole = [] ∨ (whole.head? = some '0' ∧ whole.length ≠ 1)) := by
    rintro (hnil | ⟨hhead, hlength⟩)
    · exact hnonempty hnil
    · exact hlength (hzero hhead)
  simp only [readUnsigned, htake, hdrop, if_neg hstart, readFraction_fractionText hfraction,
    readPower_powerText, Option.bind_eq_bind, Option.bind_some, Option.pure_def]

/-- What the parts of a text denote. -/
structure NumeralParts (text : List Char) (value : ℚ) (whole fraction : List Char) (power : ℤ) :
    Prop where
  text_eq : text = whole ++ (fractionText fraction ++ powerText power)
  whole_digits : AllDigits whole
  fraction_digits : AllDigits fraction
  nonempty : whole ≠ []
  no_leading : whole.head? = some '0' → whole.length = 1
  value_eq : (Nat.ofDigitChars 10 (whole ++ fraction) 0 : ℚ) * 10 ^ (power - fraction.length) = value

theorem significandText_eq (c : Char) (rest : List Char) :
    significandText (c :: rest) = c :: fractionText rest := by
  cases rest <;> rfl

/-- Each of the four forms of a positive number is a numeral of its value. -/
theorem positiveNumeral_parts {n : Nat} (hn : 0 < n) (exponent : ℤ) :
    ∃ whole fraction power,
      NumeralParts (positiveNumeral (digitsOf n) exponent) (n * 10 ^ exponent) whole fraction
        power := by
  have hvalue := ofDigitChars_digitsOf n
  have hhead := head?_digitsOf hn
  have hdigits : AllDigits (digitsOf n) := fun _ hc => isDigit_of_mem_digitsOf hc
  have hnonempty : digitsOf n ≠ [] := Nat.toDigits_ne_nil
  generalize digitsOf n = digits at hvalue hhead hdigits hnonempty ⊢
  have hlength : 0 < digits.length := List.length_pos_of_ne_nil hnonempty
  simp only [positiveNumeral]
  by_cases hwhole : digits.length ≤ exponent + digits.length ∧ exponent + digits.length ≤ 21
  · -- zeros follow the digits
    rw [if_pos hwhole]
    refine ⟨digits ++ List.replicate (exponent + digits.length - digits.length).toNat '0', [], 0,
      by simp [fractionText, powerText], ?_, fun c hc => (nomatch hc), ?_, ?_, ?_⟩
    · intro c hc
      rcases List.mem_append.mp hc with hdigit | hzero
      · exact hdigits c hdigit
      · rw [List.eq_of_mem_replicate hzero]
        rfl
    · exact List.append_ne_nil_of_left_ne_nil hnonempty _
    · rw [List.head?_append_of_ne_nil _ hnonempty]
      exact fun h => absurd h hhead
    · have hexponent : (exponent + digits.length - digits.length).toNat = exponent := by omega
      rw [List.append_nil, Nat.ofDigitChars_append, hvalue, Nat.ofDigitChars_replicate_zero]
      push_cast
      rw [← zpow_natCast, hexponent, List.length_nil, Nat.cast_zero, sub_zero, zpow_zero, mul_one,
        mul_comm]
  rw [if_neg hwhole]
  by_cases hinside : 0 < exponent + digits.length ∧ exponent + digits.length ≤ 21
  · -- the point stands among the digits
    rw [if_pos hinside]
    obtain ⟨point, hpoint⟩ := Int.eq_ofNat_of_zero_le hinside.1.le
    have hlt : point < digits.length := by omega
    have hpos : 0 < point := by omega
    rw [hpoint, Int.toNat_natCast]
    obtain ⟨c, fraction, hdrop⟩ := List.exists_cons_of_length_pos
      (show 0 < (digits.drop point).length by rw [List.length_drop]; omega)
    have htake : digits.take point ≠ [] := by
      rw [Ne, List.take_eq_nil_iff]
      exact fun h => h.elim hpos.ne' hnonempty
    refine ⟨digits.take point, digits.drop point, 0, ?_, ?_, ?_, htake, ?_, ?_⟩
    · rw [hdrop]
      simp [fractionText, powerText]
    · exact fun c hc => hdigits c (List.mem_of_mem_take hc)
    · exact fun c hc => hdigits c (List.mem_of_mem_drop hc)
    · rw [List.head?_take, if_neg hpos.ne']
      exact fun h => absurd h hhead
    · have hexponent : 0 - ((digits.length - point : Nat) : ℤ) = exponent := by omega
      rw [List.take_append_drop, hvalue, List.length_drop, hexponent]
  rw [if_neg hinside]
  by_cases hsmall : -6 < exponent + digits.length ∧ exponent + digits.length ≤ 0
  · -- zeros follow the point
    rw [if_pos hsmall]
    obtain ⟨zeros, hzeros⟩ := Int.eq_ofNat_of_zero_le (show 0 ≤ -(exponent + digits.length) by omega)
    rw [hzeros, Int.toNat_natCast]
    refine ⟨['0'], List.replicate zeros '0' ++ digits, 0, ?_, ?_, ?_, by simp, fun _ => rfl, ?_⟩
    · obtain ⟨c, rest, hcons⟩ := List.exists_cons_of_length_pos
        (show 0 < (List.replicate zeros '0' ++ digits).length by rw [List.length_append]; omega)
      rw [hcons]
      simp [fractionText, powerText]
    · intro c hc
      rw [List.mem_singleton.mp hc]
      rfl
    · intro c hc
      rcases List.mem_append.mp hc with hzero | hdigit
      · rw [List.eq_of_mem_replicate hzero]
        rfl
      · exact hdigits c hdigit
    · rw [← List.append_assoc, Nat.ofDigitChars_append, Nat.ofDigitChars_append,
        Nat.ofDigitChars_replicate_zero]
      have hzero : Nat.ofDigitChars 10 ['0'] 0 = 0 := rfl
      have hexponent : 0 - ((zeros + digits.length : Nat) : ℤ) = exponent := by omega
      rw [hzero, Nat.mul_zero, hvalue, List.length_append, List.length_replicate, hexponent]
  · -- one digit before the point, and a power
    rw [if_neg hsmall]
    obtain ⟨c, rest, hcons⟩ := List.exists_cons_of_length_pos hlength
    subst hcons
    refine ⟨[c], rest, exponent + (c :: rest).length - 1, ?_, ?_, ?_, by simp, fun _ => rfl, ?_⟩
    · have hpower : exponent + (c :: rest).length - 1 ≠ 0 := by omega
      rw [significandText_eq, powerText, if_neg hpower]
      simp only [List.cons_append, List.nil_append]
    · exact fun d hd => hdigits d (by rw [List.mem_singleton.mp hd]; exact List.mem_cons_self)
    · exact fun d hd => hdigits d (List.mem_cons_of_mem _ hd)
    · have hexponent : exponent + (c :: rest).length - 1 - rest.length = exponent := by
        rw [List.length_cons]
        omega
      rw [List.singleton_append, hvalue, hexponent]

theorem readUnsigned_positiveNumeral {n : Nat} (hn : 0 < n) (exponent : ℤ) :
    ∃ scaled, readUnsigned (positiveNumeral (digitsOf n) exponent) = some scaled ∧
      (scaled.1 : ℚ) * 10 ^ scaled.2 = n * 10 ^ exponent := by
  obtain ⟨whole, fraction, power, hparts⟩ := positiveNumeral_parts hn exponent
  refine ⟨(Nat.ofDigitChars 10 (whole ++ fraction) 0, power - fraction.length), ?_,
    hparts.value_eq⟩
  rw [hparts.text_eq]
  exact readUnsigned_parts power hparts.whole_digits hparts.fraction_digits hparts.nonempty
    hparts.no_leading

/-- A text of a positive number starts with a digit. -/
theorem positiveNumeral_start {n : Nat} (hn : 0 < n) (exponent : ℤ) :
    ∃ c rest, positiveNumeral (digitsOf n) exponent = c :: rest ∧ c.isDigit = true := by
  obtain ⟨whole, fraction, power, hparts⟩ := positiveNumeral_parts hn exponent
  obtain ⟨c, rest, hcons⟩ := List.exists_cons_of_ne_nil hparts.nonempty
  refine ⟨c, rest ++ (fractionText fraction ++ powerText power), ?_, ?_⟩
  · rw [hparts.text_eq, hcons, List.cons_append]
  · exact hparts.whole_digits c (by rw [hcons]; exact List.mem_cons_self)

theorem isNumeralChar_of_isDigit {c : Char} (h : c.isDigit = true) : isNumeralChar c = true := by
  rw [isNumeralChar, h]
  rfl

theorem isNumeralChar_positiveNumeral {n : Nat} (hn : 0 < n) (exponent : ℤ) :
    ∀ c ∈ positiveNumeral (digitsOf n) exponent, isNumeralChar c = true := by
  obtain ⟨whole, fraction, power, hparts⟩ := positiveNumeral_parts hn exponent
  have hfraction : ∀ c ∈ fractionText fraction, isNumeralChar c = true := by
    intro c hc
    have hdigits := hparts.fraction_digits
    cases fraction with
    | nil => cases hc
    | cons d fraction =>
      rcases List.mem_cons.mp hc with rfl | hd
      · rfl
      · exact isNumeralChar_of_isDigit (hdigits c hd)
  have hpower : ∀ c ∈ powerText power, isNumeralChar c = true := by
    unfold powerText
    split_ifs <;> intro c hc
    · cases hc
    all_goals
      rcases List.mem_cons.mp hc with rfl | hc
      · rfl
      rcases List.mem_cons.mp hc with rfl | hc
      · rfl
      · exact isNumeralChar_of_isDigit (isDigit_of_mem_digitsOf hc)
  intro c hc
  rw [hparts.text_eq, List.mem_append, List.mem_append] at hc
  rcases hc with hwhole | hc | hc
  · exact isNumeralChar_of_isDigit (hparts.whole_digits c hwhole)
  · exact hfraction c hc
  · exact hpower c hc

theorem read_of_digit {text : List Char} {c : Char} {rest : List Char} (h : text = c :: rest)
    (hc : c.isDigit = true) :
    read text = (readUnsigned text).map fun scaled => ofScaled scaled.1 scaled.2 := by
  have hminus : ∀ others, text ≠ '-' :: others := by
    intro others heq
    rw [h] at heq
    cases heq
    cases hc
  unfold read
  split
  · next others => exact absurd rfl (hminus others)
  · rfl

/-- Reading inverts printing. -/
theorem read_print (number : DecimalNumber) : read (print number) = some number := by
  unfold print
  split_ifs with hzero hneg
  · have hread : read ['0'] = some (ofScaled 0 0) := rfl
    rw [hread]
    exact congrArg some (ofScaled_eq (by rw [toRat, hzero]; simp))
  · obtain ⟨scaled, hread, hvalue⟩ :=
      readUnsigned_positiveNumeral (Int.natAbs_pos.mpr hzero) number.exponent
    have habs : ((number.units.natAbs : Nat) : ℚ) = -number.units := by
      rw [Nat.cast_natAbs, abs_of_neg hneg, Int.cast_neg]
    rw [read, hread, Option.map_some]
    refine congrArg some (ofScaled_eq ?_)
    push_cast
    rw [neg_mul, hvalue, habs, toRat]
    ring
  · obtain ⟨scaled, hread, hvalue⟩ :=
      readUnsigned_positiveNumeral (Int.natAbs_pos.mpr hzero) number.exponent
    obtain ⟨c, rest, hcons, hc⟩ :=
      positiveNumeral_start (Int.natAbs_pos.mpr hzero) number.exponent
    have habs : ((number.units.natAbs : Nat) : ℚ) = number.units := by
      rw [Nat.cast_natAbs, abs_of_nonneg (not_lt.mp hneg)]
    rw [read_of_digit hcons hc, hread, Option.map_some]
    refine congrArg some (ofScaled_eq ?_)
    rw [Int.cast_natCast, hvalue, habs, toRat]

/-- How JavaScript writes and reads its finite numbers. -/
def format : NumberFormat DecimalNumber where
  print := print
  read := read
  read_print := read_print
  numeral := by
    intro number
    unfold print
    split_ifs with hzero hneg
    · exact List.forall_mem_singleton.mpr rfl
    · intro c hc
      rcases List.mem_cons.mp hc with rfl | hc
      · rfl
      · exact isNumeralChar_positiveNumeral (Int.natAbs_pos.mpr hzero) _ c hc
    · exact isNumeralChar_positiveNumeral (Int.natAbs_pos.mpr hzero) _
  start := by
    intro number
    unfold print
    split_ifs with hzero hneg
    · exact ⟨'0', [], rfl, Or.inl rfl⟩
    · exact ⟨'-', _, rfl, Or.inr rfl⟩
    · obtain ⟨c, rest, hcons, hc⟩ :=
        positiveNumeral_start (Int.natAbs_pos.mpr hzero) number.exponent
      exact ⟨c, rest, hcons, Or.inl hc⟩

example : print (ofScaled (-125) (-2)) = ['-', '1', '.', '2', '5'] := by decide

end RoundTrip

end DecimalNumber

end Cryptox.Library
