import Cryptox.Backtesting.Contracts
import Cryptox.Library.IpAddress
import Cryptox.Library.Numeral

/-!
# Numerals of the simulator

A number enters the simulator through its text: an exponent is written out, and the digits without
their point are the units of a decimal.
-/
namespace Cryptox.Backtesting

open Cryptox.Library
open Cryptox.Library.DecimalNumber (AllDigits fractionText)

section Source

/-- The first two pieces of `text.split(separator)`, with an empty one where there is no second. -/
def splitPair (separator : Char) (text : Text) : Text × Text :=
  (text.takeWhile (· ≠ separator),
    ((text.dropWhile (· ≠ separator)).drop 1).takeWhile (· ≠ separator))

/-- Whether a text starts with a minus, and what follows its sign. -/
def splitSign : Text → Bool × Text
  | '-' :: rest => (true, rest)
  | '+' :: rest => (false, rest)
  | text => (false, text)

/-- `text.replace(/^0+(?=\d)/, "")`: a zero goes while a digit follows it. -/
def dropLeadingZeros : Text → Text
  | '0' :: c :: rest =>
    if c.isDigit then dropLeadingZeros (c :: rest) else '0' :: c :: rest
  | text => text

def leadingZeroCount (rawDigits : Text) : Nat :=
  rawDigits.length - (rawDigits.dropWhile (· == '0')).length

def orZero (digits : Text) : Text := if digits = [] then ['0'] else digits

/-- `Number` of a sign and digits, as they stand behind an `e`. -/
def readExponent (rawExponent : Text) : Int :=
  match splitSign rawExponent with
  | (true, digits) => -(Nat.ofDigitChars 10 digits 0 : Int)
  | (false, digits) => Nat.ofDigitChars 10 digits 0

/-- The digits with the point behind `decimalIndex` of them. -/
def placePoint (digits : Text) (decimalIndex : Int) : Text :=
  if decimalIndex ≤ 0 then '0' :: '.' :: (List.replicate (-decimalIndex).toNat '0' ++ digits)
  else if digits.length ≤ decimalIndex then
    digits ++ List.replicate (decimalIndex - digits.length).toNat '0'
  else digits.take decimalIndex.toNat ++ '.' :: digits.drop decimalIndex.toNat

def signText (negative : Bool) : Text := if negative then ['-'] else []

def expandScientificNotation (value : Text) : Text :=
  if !value.any fun c => c == 'e' || c == 'E' then value
  else
    let (coefficient, rawExponent) := splitPair 'e' (value.map Char.toLower)
    let (negative, unsigned) := splitSign coefficient
    let (whole, fraction) := splitPair '.' unsigned
    let rawDigits := whole ++ fraction
    let digits := orZero (dropLeadingZeros rawDigits)
    let decimalIndex := whole.length + readExponent rawExponent - leadingZeroCount rawDigits
    signText negative ++ placePoint digits decimalIndex

/-- What `decimal` makes of the text of a finite number. -/
def decimalOfText (shown : Text) : Decimal :=
  let (negative, unsigned) := splitSign (expandScientificNotation shown)
  let (whole, fraction) := splitPair '.' unsigned
  let digits := orZero (dropLeadingZeros (whole ++ fraction))
  let units : Int := Nat.ofDigitChars 10 digits 0
  Decimal.normalize ⟨if negative then -units else units, fraction.length⟩

end Source

section Numerals

/-- The exponent of a numeral, with the sign that is always written. -/
structure Exponent where
  negative : Bool
  digits : Text
  nonempty : digits ≠ []
  allDigits : AllDigits digits

def Exponent.text (exponent : Exponent) : Text :=
  'e' :: (if exponent.negative then '-' else '+') :: exponent.digits

def Exponent.power (exponent : Exponent) : Int :=
  if exponent.negative then -(Nat.ofDigitChars 10 exponent.digits 0 : Int)
  else Nat.ofDigitChars 10 exponent.digits 0

/-- A numeral of the form that `String` gives to a finite number. -/
structure Numeral where
  negative : Bool
  whole : Text
  fraction : Text
  exponent : Option Exponent
  nonempty : whole ≠ []
  wholeDigits : AllDigits whole
  fractionDigits : AllDigits fraction

namespace Numeral

/-- The numeral without its sign and its exponent. -/
def unsigned (numeral : Numeral) : Text := numeral.whole ++ fractionText numeral.fraction

def text (numeral : Numeral) : Text :=
  signText numeral.negative ++ numeral.unsigned ++ numeral.exponent.elim [] Exponent.text

def digits (numeral : Numeral) : Text := numeral.whole ++ numeral.fraction

def power (numeral : Numeral) : Int := numeral.exponent.elim 0 Exponent.power

/-- The number that a numeral denotes. -/
def value (numeral : Numeral) : ℚ :=
  (if numeral.negative then -1 else 1) *
    (Nat.ofDigitChars 10 numeral.digits 0 * 10 ^ (numeral.power - numeral.fraction.length))

end Numeral

end Numerals

section Digits

variable {digits first second : Text} {separator : Char}

theorem splitPair_append (hfirst : separator ∉ first) (hsecond : separator ∉ second) :
    splitPair separator (first ++ separator :: second) = (first, second) := by
  have htake : (first ++ separator :: second).takeWhile (· ≠ separator) = first := by
    rw [List.takeWhile_append_of_pos fun c hc => decide_eq_true (ne_of_mem_of_not_mem hc hfirst),
      List.takeWhile_cons_of_neg (by simp), List.append_nil]
  have hdrop : (first ++ separator :: second).dropWhile (· ≠ separator) = separator :: second := by
    rw [List.dropWhile_append_of_pos fun c hc => decide_eq_true (ne_of_mem_of_not_mem hc hfirst),
      List.dropWhile_cons_of_neg (by simp)]
  have hrest : second.takeWhile (· ≠ separator) = second :=
    List.takeWhile_eq_self_iff.mpr fun c hc => decide_eq_true (ne_of_mem_of_not_mem hc hsecond)
  rw [splitPair, htake, hdrop, List.drop_one, List.tail_cons, hrest]

theorem splitPair_of_not_mem (h : separator ∉ first) : splitPair separator first = (first, []) := by
  have htake : first.takeWhile (· ≠ separator) = first :=
    List.takeWhile_eq_self_iff.mpr fun c hc => decide_eq_true (ne_of_mem_of_not_mem hc h)
  have hdrop : first.dropWhile (· ≠ separator) = [] :=
    List.dropWhile_eq_nil_iff.mpr fun c hc => decide_eq_true (ne_of_mem_of_not_mem hc h)
  rw [splitPair, htake, hdrop]
  rfl

theorem splitPair_fractionText (hfirst : '.' ∉ first) (hsecond : '.' ∉ second) :
    splitPair '.' (first ++ fractionText second) = (first, second) := by
  cases second with
  | nil =>
    rw [fractionText, List.append_nil]
    exact splitPair_of_not_mem hfirst
  | cons c rest => exact splitPair_append hfirst hsecond

theorem not_mem_of_allDigits (h : AllDigits digits) {c : Char} (hc : c.isDigit = false) :
    c ∉ digits := by
  intro hmem
  rw [h c hmem] at hc
  cases hc

theorem AllDigits.append (hfirst : AllDigits first) (hsecond : AllDigits second) :
    AllDigits (first ++ second) := by
  intro c hc
  rcases List.mem_append.mp hc with hc | hc
  · exact hfirst c hc
  · exact hsecond c hc

theorem allDigits_zeros (count : Nat) : AllDigits (List.replicate count '0') := by
  intro c hc
  rw [List.eq_of_mem_replicate hc]
  rfl

/-- Without its leading zeros a number keeps its value, and one that is not zero loses as many digits
as zeros were counted. -/
theorem dropLeadingZeros_spec (h : AllDigits digits) (hne : digits ≠ []) :
    AllDigits (dropLeadingZeros digits) ∧ dropLeadingZeros digits ≠ [] ∧
      Nat.ofDigitChars 10 (dropLeadingZeros digits) 0 = Nat.ofDigitChars 10 digits 0 ∧
      (Nat.ofDigitChars 10 digits 0 = 0 ∨
        (dropLeadingZeros digits).length + leadingZeroCount digits = digits.length) := by
  fun_induction dropLeadingZeros digits with
  | case1 c rest hc ih =>
    obtain ⟨hdigits, hnonempty, hvalue, hlength⟩ :=
      ih (fun d hd => h d (List.mem_cons_of_mem _ hd)) (List.cons_ne_nil _ _)
    have hzero : Nat.ofDigitChars 10 ('0' :: c :: rest) 0 = Nat.ofDigitChars 10 (c :: rest) 0 := rfl
    refine ⟨hdigits, hnonempty, hvalue.trans hzero.symm, ?_⟩
    rw [hzero]
    refine hlength.imp id fun hlength => ?_
    have hshorter := (List.dropWhile_suffix (l := c :: rest) (· == '0')).length_le
    have hcount : leadingZeroCount ('0' :: c :: rest) = leadingZeroCount (c :: rest) + 1 := by
      rw [leadingZeroCount, leadingZeroCount, List.dropWhile_cons_of_pos (by rfl)]
      rw [List.length_cons (a := '0')]
      omega
    rw [hcount, List.length_cons (a := '0')]
    omega
  | case2 c rest hc => exact absurd (h c (by simp)) hc
  | case3 digits hshort =>
    refine ⟨h, hne, rfl, ?_⟩
    obtain ⟨c, rest, rfl⟩ := List.exists_cons_of_ne_nil hne
    by_cases hc : c = '0'
    · subst hc
      cases rest with
      | nil => exact Or.inl rfl
      | cons d rest => exact absurd rfl (hshort d rest)
    · refine Or.inr ?_
      rw [leadingZeroCount, List.dropWhile_cons_of_neg (by simpa using hc), Nat.sub_self]
      rfl

theorem orZero_of_ne_nil (h : digits ≠ []) : orZero digits = digits := if_neg h

/-- Wherever the point is placed, the digits get whole and fractional ones, and the value that the
point gives them. -/
theorem placePoint_parts (h : AllDigits digits) (hne : digits ≠ []) (decimalIndex : Int) :
    ∃ whole fraction, whole ≠ [] ∧ AllDigits whole ∧ AllDigits fraction ∧
      placePoint digits decimalIndex = whole ++ fractionText fraction ∧
      (Nat.ofDigitChars 10 (whole ++ fraction) 0 : ℚ) * 10 ^ (-(fraction.length : Int)) =
        Nat.ofDigitChars 10 digits 0 * 10 ^ (decimalIndex - digits.length) := by
  have hlength : 0 < digits.length := List.length_pos_of_ne_nil hne
  by_cases hsmall : decimalIndex ≤ 0
  · -- zeros follow the point
    obtain ⟨zeros, hzeros⟩ := Int.eq_ofNat_of_zero_le (show 0 ≤ -decimalIndex by omega)
    refine ⟨['0'], List.replicate zeros '0' ++ digits, List.cons_ne_nil _ _,
      List.forall_mem_singleton.mpr rfl, AllDigits.append (allDigits_zeros zeros) h, ?_, ?_⟩
    · obtain ⟨c, rest, hcons⟩ := List.exists_cons_of_length_pos
        (show 0 < (List.replicate zeros '0' ++ digits).length by rw [List.length_append]; omega)
      rw [placePoint, if_pos hsmall, hzeros, Int.toNat_natCast, hcons]
      rfl
    · have hexponent : -((List.replicate zeros '0' ++ digits).length : Int) =
          decimalIndex - digits.length := by
        rw [List.length_append, List.length_replicate]
        omega
      have hzero : Nat.ofDigitChars 10 ['0'] 0 = 0 := rfl
      rw [hexponent, ← List.append_assoc, Nat.ofDigitChars_append, Nat.ofDigitChars_append,
        Nat.ofDigitChars_replicate_zero, hzero, Nat.mul_zero]
  · by_cases hlarge : (digits.length : Int) ≤ decimalIndex
    · -- zeros follow the digits
      obtain ⟨zeros, hzeros⟩ := Int.eq_ofNat_of_zero_le
        (show 0 ≤ decimalIndex - digits.length by omega)
      refine ⟨digits ++ List.replicate zeros '0', [],
        List.append_ne_nil_of_left_ne_nil hne _, AllDigits.append h (allDigits_zeros zeros),
        List.forall_mem_nil _, ?_, ?_⟩
      · rw [placePoint, if_neg hsmall, if_pos hlarge, hzeros, Int.toNat_natCast, fractionText,
          List.append_nil]
      · rw [List.append_nil, Nat.ofDigitChars_append, Nat.ofDigitChars_replicate_zero, hzeros,
          zpow_natCast]
        push_cast
        rw [List.length_nil, Nat.cast_zero, neg_zero, zpow_zero, mul_one, mul_comm]
    · -- the point stands among the digits
      obtain ⟨point, hpoint⟩ := Int.eq_ofNat_of_zero_le (show 0 ≤ decimalIndex by omega)
      have hpos : 0 < point := by omega
      have hinside : point < digits.length := by omega
      refine ⟨digits.take point, digits.drop point, ?_, fun c hc => h c (List.mem_of_mem_take hc),
        fun c hc => h c (List.mem_of_mem_drop hc), ?_, ?_⟩
      · rw [Ne, List.take_eq_nil_iff]
        exact fun hnil => hnil.elim hpos.ne' hne
      · obtain ⟨c, rest, hdrop⟩ := List.exists_cons_of_length_pos
          (show 0 < (digits.drop point).length by rw [List.length_drop]; omega)
        rw [placePoint, if_neg hsmall, if_neg hlarge, hpoint, Int.toNat_natCast, hdrop]
        rfl
      · have hexponent : -((digits.drop point).length : Int) = decimalIndex - digits.length := by
          rw [List.length_drop]
          omega
        rw [List.take_append_drop, hexponent]

end Digits

section Characters

theorem toLower_of_isDigit {c : Char} (h : c.isDigit = true) : c.toLower = c := by
  have hbound : c.val ≤ '9'.val := by
    rw [Char.isDigit, Bool.and_eq_true, decide_eq_true_iff, decide_eq_true_iff] at h
    exact h.2
  refine dif_neg fun hupper => ?_
  have hlow := UInt32.le_iff_toNat_le.mp hupper.1
  have hhigh := UInt32.le_iff_toNat_le.mp hbound
  exact absurd (hlow.trans hhigh) (by decide)

/-- The characters of a numeral's sign, digits and point. -/
def IsMantissaChar (c : Char) : Prop := c = '-' ∨ c = '+' ∨ c = '.' ∨ c.isDigit = true

theorem IsMantissaChar.plain {c : Char} (h : IsMantissaChar c) :
    c.toLower = c ∧ (c == 'e' || c == 'E') = false := by
  rcases h with rfl | rfl | rfl | hdigit
  · exact ⟨by decide, by decide⟩
  · exact ⟨by decide, by decide⟩
  · exact ⟨by decide, by decide⟩
  · refine ⟨toLower_of_isDigit hdigit, ?_⟩
    rw [Bool.or_eq_false_iff, beq_eq_false_iff_ne, beq_eq_false_iff_ne]
    constructor <;> rintro rfl <;> cases hdigit

theorem lower_of_mantissa {text : Text} (h : ∀ c ∈ text, IsMantissaChar c) :
    text.map Char.toLower = text ∧ text.any (fun c => c == 'e' || c == 'E') = false ∧
      'e' ∉ text := by
  refine ⟨?_, ?_, fun hmem => ?_⟩
  · exact (List.map_congr_left fun c hc => (h c hc).plain.1).trans (List.map_id text)
  · exact List.any_eq_false.mpr fun c hc => by simpa using (h c hc).plain.2
  · have hplain := (h 'e' hmem).plain.2
    cases hplain

end Characters

namespace Numeral

variable (numeral : Numeral)

theorem digits_allDigits : AllDigits numeral.digits :=
  AllDigits.append numeral.wholeDigits numeral.fractionDigits

theorem digits_ne_nil : numeral.digits ≠ [] :=
  List.append_ne_nil_of_left_ne_nil numeral.nonempty _

theorem unsigned_chars : ∀ c ∈ numeral.unsigned, IsMantissaChar c := by
  intro c hc
  rcases List.mem_append.mp hc with hwhole | hfraction
  · exact Or.inr (Or.inr (Or.inr (numeral.wholeDigits c hwhole)))
  · have hdigits := numeral.fractionDigits
    cases hcases : numeral.fraction with
    | nil =>
      rw [hcases] at hfraction
      cases hfraction
    | cons d rest =>
      rw [hcases] at hfraction hdigits
      rcases List.mem_cons.mp hfraction with rfl | hrest
      · exact Or.inr (Or.inr (Or.inl rfl))
      · exact Or.inr (Or.inr (Or.inr (hdigits c hrest)))

theorem signed_chars : ∀ c ∈ signText numeral.negative ++ numeral.unsigned, IsMantissaChar c := by
  intro c hc
  rcases List.mem_append.mp hc with hsign | hunsigned
  · unfold signText at hsign
    split at hsign
    · exact Or.inl (List.mem_singleton.mp hsign)
    · cases hsign
  · exact numeral.unsigned_chars c hunsigned

/-- What starts with a digit carries no sign. -/
theorem splitSign_append (negative : Bool) :
    splitSign (signText negative ++ numeral.unsigned) = (negative, numeral.unsigned) := by
  cases negative with
  | true => rfl
  | false =>
    obtain ⟨c, rest, hcons⟩ := List.exists_cons_of_ne_nil numeral.nonempty
    have hdigit := numeral.wholeDigits c (hcons ▸ List.mem_cons_self)
    have hminus : c ≠ '-' := by
      rintro rfl
      cases hdigit
    have hplus : c ≠ '+' := by
      rintro rfl
      cases hdigit
    rw [signText, if_neg (by simp), List.nil_append, unsigned, hcons, List.cons_append]
    unfold splitSign
    split
    · rename_i heq
      exact absurd (List.cons.inj heq).1 hminus
    · rename_i heq
      exact absurd (List.cons.inj heq).1 hplus
    · rfl

theorem splitPair_unsigned :
    splitPair '.' numeral.unsigned = (numeral.whole, numeral.fraction) :=
  splitPair_fractionText (not_mem_of_allDigits numeral.wholeDigits rfl)
    (not_mem_of_allDigits numeral.fractionDigits rfl)

theorem readExponent_digits (exponent : Exponent) :
    readExponent ((if exponent.negative then '-' else '+') :: exponent.digits) =
      exponent.power := by
  unfold Exponent.power
  cases exponent.negative <;> rfl

theorem expand_of_none (h : numeral.exponent = none) :
    expandScientificNotation numeral.text = numeral.text := by
  have htext : numeral.text = signText numeral.negative ++ numeral.unsigned := by
    rw [text, h]
    exact List.append_nil _
  obtain ⟨-, hany, -⟩ := lower_of_mantissa numeral.signed_chars
  rw [htext, expandScientificNotation, hany]
  rfl

theorem expand_of_some {exponent : Exponent} (h : numeral.exponent = some exponent) :
    expandScientificNotation numeral.text =
      signText numeral.negative ++ placePoint (dropLeadingZeros numeral.digits)
        (numeral.whole.length + exponent.power - leadingZeroCount numeral.digits) := by
  have htext : numeral.text = (signText numeral.negative ++ numeral.unsigned) ++ exponent.text := by
    rw [text, h]
    rfl
  obtain ⟨hlower, -, hcoefficient⟩ := lower_of_mantissa numeral.signed_chars
  have hpower : ∀ c ∈ (if exponent.negative then '-' else '+') :: exponent.digits,
      IsMantissaChar c := by
    intro c hc
    rcases List.mem_cons.mp hc with rfl | hdigit
    · cases exponent.negative
      · exact Or.inr (Or.inl rfl)
      · exact Or.inl rfl
    · exact Or.inr (Or.inr (Or.inr (exponent.allDigits c hdigit)))
  obtain ⟨hlower', -, hrest⟩ := lower_of_mantissa hpower
  have hany : numeral.text.any (fun c => c == 'e' || c == 'E') = true :=
    List.any_eq_true.mpr ⟨'e', by rw [htext]; simp [Exponent.text], rfl⟩
  have hmap : numeral.text.map Char.toLower = numeral.text := by
    have he : 'e'.toLower = 'e' := by decide
    rw [htext, Exponent.text, List.map_append, hlower, List.map_cons, hlower', he]
  have hsplit : splitPair 'e' (numeral.text.map Char.toLower) =
      (signText numeral.negative ++ numeral.unsigned,
        (if exponent.negative then '-' else '+') :: exponent.digits) := by
    rw [hmap, htext]
    exact splitPair_append hcoefficient hrest
  obtain ⟨-, hnonempty, -⟩ := dropLeadingZeros_spec numeral.digits_allDigits numeral.digits_ne_nil
  unfold expandScientificNotation
  simp only [hany, Bool.not_true, Bool.false_eq_true, if_false, hsplit, splitSign_append,
    splitPair_unsigned, readExponent_digits]
  rw [← digits, orZero_of_ne_nil hnonempty]

/-- The point is moved by the exponent and by nothing else. -/
theorem expanded :
    ∃ expanded : Numeral, expanded.exponent = none ∧
      expandScientificNotation numeral.text = expanded.text ∧ expanded.value = numeral.value := by
  cases h : numeral.exponent with
  | none => exact ⟨numeral, h, numeral.expand_of_none h, rfl⟩
  | some exponent =>
    obtain ⟨hdigits, hnonempty, hvalue, hlength⟩ :=
      dropLeadingZeros_spec numeral.digits_allDigits numeral.digits_ne_nil
    obtain ⟨whole, fraction, hwhole, hwholeDigits, hfractionDigits, hplaced, hmoved⟩ :=
      placePoint_parts hdigits hnonempty
        (numeral.whole.length + exponent.power - leadingZeroCount numeral.digits)
    refine ⟨⟨numeral.negative, whole, fraction, none, hwhole, hwholeDigits, hfractionDigits⟩, rfl,
      ?_, ?_⟩
    · rw [expand_of_some numeral h, hplaced, text, unsigned]
      exact (List.append_nil _).symm
    · have hpower : numeral.power = exponent.power := by
        rw [power, h]
        rfl
      have hself : value ⟨numeral.negative, whole, fraction, none, hwhole, hwholeDigits,
          hfractionDigits⟩ = (if numeral.negative then -1 else 1) *
            (Nat.ofDigitChars 10 (whole ++ fraction) 0 * 10 ^ (0 - (fraction.length : Int))) := rfl
      rw [hself, zero_sub, hmoved, hvalue, value, hpower]
      congr 1
      rcases hlength with hnothing | hlength
      · rw [hnothing, Nat.cast_zero, zero_mul, zero_mul]
      · have hcounted : numeral.digits.length = numeral.whole.length + numeral.fraction.length :=
          List.length_append
        have hexponent : (numeral.whole.length + exponent.power - leadingZeroCount numeral.digits -
            (dropLeadingZeros numeral.digits).length : Int) =
              exponent.power - numeral.fraction.length := by omega
        rw [hexponent]

end Numeral

section Normal

namespace Decimal

/-- No zero could be dropped from the decimal places. -/
def Normalized (value : Decimal) : Prop := 0 < value.scale → value.units.tmod 10 ≠ 0

theorem normalized_dropZeros (units : Int) (scale : Nat) : (dropZeros units scale).Normalized := by
  induction scale generalizing units with
  | zero => exact fun hpos => absurd hpos (lt_irrefl 0)
  | succ scale ih =>
    rw [dropZeros]
    split
    · exact ih _
    · rename_i hdigit
      exact fun _ => hdigit

/-- Of two normalized decimals of one value neither has more places. -/
theorem Normalized.scale_le {left right : Decimal} (h : right.Normalized)
    (hvalue : left.toRat = right.toRat) : right.scale ≤ left.scale := by
  by_contra hlt
  obtain ⟨places, hplaces⟩ := Nat.exists_eq_add_of_lt (not_le.mp hlt)
  have hunits : right.units = left.units * 10 ^ (places + 1) := by
    rw [toRat, toRat, hplaces, div_eq_div_iff (by positivity) (by positivity),
      show left.scale + places + 1 = places + 1 + left.scale by omega, pow_add, ← mul_assoc] at hvalue
    have hcancel := mul_right_cancel₀ (pow_ne_zero left.scale (by norm_num : (10 : ℚ) ≠ 0)) hvalue
    exact_mod_cast hcancel.symm
  refine h (by omega) ?_
  rw [hunits, pow_succ, ← mul_assoc]
  exact Int.mul_tmod_left _ _

theorem Normalized.eq_of_toRat_eq {left right : Decimal} (hleft : left.Normalized)
    (hright : right.Normalized) (hvalue : left.toRat = right.toRat) : left = right := by
  have hscale : left.scale = right.scale :=
    le_antisymm (hleft.scale_le hvalue.symm) (hright.scale_le hvalue)
  obtain ⟨leftUnits, leftScale⟩ := left
  obtain ⟨rightUnits, rightScale⟩ := right
  cases hscale
  rw [toRat, toRat, div_left_inj' (by positivity)] at hvalue
  have hunits : leftUnits = rightUnits := by exact_mod_cast hvalue
  rw [hunits]

end Decimal

end Normal

/-- The digits of a numeral without exponent are the units of its decimal. -/
theorem decimalOfText_toRat (numeral : Numeral) :
    (decimalOfText numeral.text).toRat = numeral.value := by
  obtain ⟨expanded, hexponent, htext, hvalue⟩ := numeral.expanded
  have hsigned : expanded.text = signText expanded.negative ++ expanded.unsigned := by
    rw [Numeral.text, hexponent]
    exact List.append_nil _
  obtain ⟨-, hnonempty, hkept, -⟩ :=
    dropLeadingZeros_spec expanded.digits_allDigits expanded.digits_ne_nil
  have hpower : expanded.power = 0 := by
    rw [Numeral.power, hexponent]
    rfl
  rw [← hvalue, decimalOfText, htext, hsigned]
  simp only [Numeral.splitSign_append, Numeral.splitPair_unsigned, Decimal.normalize_toRat]
  rw [← Numeral.digits, orZero_of_ne_nil hnonempty, hkept, Decimal.toRat, Numeral.value, hpower,
    zero_sub, zpow_neg, zpow_natCast]
  cases expanded.negative
  · simp [div_eq_mul_inv]
  · simp [div_eq_mul_inv]

/-- An exponent is written out without changing what the numeral denotes, and the decimal that is
built from it is the normalized one of this value. -/
theorem numeral_expansion_preserves_value (numeral : Numeral) :
    (∃ expanded : Numeral, expanded.exponent = none ∧
      expandScientificNotation numeral.text = expanded.text ∧ expanded.value = numeral.value) ∧
      (decimalOfText numeral.text).toRat = numeral.value ∧
      (decimalOfText numeral.text).Normalized :=
  ⟨numeral.expanded, decimalOfText_toRat numeral, Decimal.normalized_dropZeros _ _⟩

example : expandScientificNotation "-1.25e-7".toList = "-0.000000125".toList := by decide

/-- The decimal of a number is the one that is read from its text. -/
theorem decimal_eq_decimalOfText {numeral : Numeral} {shown : Decimal}
    (h : shown.toRat = numeral.value) :
    decimal (.finite shown) = .ok (decimalOfText numeral.text) := by
  refine congrArg Except.ok (Decimal.Normalized.eq_of_toRat_eq
    (Decimal.normalized_dropZeros _ _) (Decimal.normalized_dropZeros _ _) ?_)
  exact (Decimal.normalize_toRat shown).trans (h.trans (decimalOfText_toRat numeral).symm)

section Printed

/-- The exponent that `String` writes, if there is any. -/
def Exponent.ofPower (power : Int) : Option Exponent :=
  if power = 0 then none
  else some
    { negative := !decide (0 < power)
      digits := digitsOf power.natAbs
      nonempty := Nat.toDigits_ne_nil
      allDigits := fun _ hc => isDigit_of_mem_digitsOf hc }

theorem text_ofPower (power : Int) :
    (Exponent.ofPower power).elim [] Exponent.text = DecimalNumber.powerText power := by
  unfold Exponent.ofPower DecimalNumber.powerText
  split
  · rfl
  · by_cases hpos : 0 < power <;> simp [Exponent.text, hpos]

theorem power_ofPower (power : Int) :
    (Exponent.ofPower power).elim 0 Exponent.power = power := by
  unfold Exponent.ofPower
  split
  · rename_i hzero
    exact hzero.symm
  · simp only [Option.elim_some, Exponent.power, ofDigitChars_digitsOf, Bool.not_eq_true',
      decide_eq_false_iff_not]
    split <;> omega

/-- Every text of a finite number is a numeral of that number. -/
theorem exists_numeral_print (number : DecimalNumber) :
    ∃ numeral : Numeral, numeral.text = number.print ∧ numeral.value = number.toRat := by
  unfold DecimalNumber.print
  by_cases hzero : number.units = 0
  · refine ⟨⟨false, ['0'], [], none, List.cons_ne_nil _ _, List.forall_mem_singleton.mpr rfl,
      List.forall_mem_nil _⟩, ?_, ?_⟩
    · rw [if_pos hzero]
      rfl
    · rw [DecimalNumber.toRat, hzero, Int.cast_zero, zero_mul, Numeral.value]
      have hdigits : Nat.ofDigitChars 10 (['0'] ++ []) 0 = 0 := rfl
      rw [Numeral.digits, hdigits, Nat.cast_zero, zero_mul, mul_zero]
  · have hpos : 0 < number.units.natAbs := Int.natAbs_pos.mpr hzero
    obtain ⟨whole, fraction, power, hparts⟩ :=
      DecimalNumber.positiveNumeral_parts hpos number.exponent
    have htext := hparts.text_eq
    have hvalue := hparts.value_eq
    have hpower := power_ofPower power
    have hrest := text_ofPower power
    refine ⟨⟨decide (number.units < 0), whole, fraction, Exponent.ofPower power, hparts.nonempty,
      hparts.whole_digits, hparts.fraction_digits⟩, ?_, ?_⟩
    · rw [if_neg hzero, Numeral.text, Numeral.unsigned, hrest, List.append_assoc, List.append_assoc,
        ← htext]
      by_cases hneg : number.units < 0 <;> simp [hneg, signText]
    · rw [Numeral.value, Numeral.power, hpower, Numeral.digits, hvalue, DecimalNumber.toRat,
        ← mul_assoc]
      congr 1
      by_cases hneg : number.units < 0
      · have habs : (number.units.natAbs : Int) = -number.units := by omega
        rw [if_pos (by simpa using hneg), ← Int.cast_natCast, habs, Int.cast_neg, neg_one_mul,
          neg_neg]
      · have habs : (number.units.natAbs : Int) = number.units := by omega
        rw [if_neg (by simpa using hneg), ← Int.cast_natCast, habs, one_mul]

end Printed

end Cryptox.Backtesting
