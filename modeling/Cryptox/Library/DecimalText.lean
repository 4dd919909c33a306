import Cryptox.Library.Binary64
import Mathlib.Data.List.DropRight

/-!
# Decimal texts of doubles

The two ways ECMAScript prints a number: `toFixed` with a fixed number of decimals, and the shortest
digits that denote it. What a text still tells of the number is read back with
`Nat.ofDigitChars`.
-/
namespace Cryptox.Library

section Separators

/-- What comes before the first separator and what comes after it are told by the whole. -/
theorem append_cons_inj {α : Type} {c : α} {a a' b b' : List α} (ha : c ∉ a) (ha' : c ∉ a')
    (h : a ++ c :: b = a' ++ c :: b') : a = a' ∧ b = b' := by
  induction a generalizing a' with
  | nil =>
    cases a' with
    | nil =>
      cases h
      exact ⟨rfl, rfl⟩
    | cons d a' =>
      cases h
      exact absurd List.mem_cons_self ha'
  | cons d a ih =>
    cases a' with
    | nil =>
      cases h
      exact absurd List.mem_cons_self ha
    | cons d' a' =>
      obtain ⟨rfl, htail⟩ := List.cons_eq_cons.mp h
      obtain ⟨rfl, rfl⟩ := ih (fun hc => ha (List.mem_cons_of_mem _ hc))
        (fun hc => ha' (List.mem_cons_of_mem _ hc)) htail
      exact ⟨rfl, rfl⟩

/-- A list joined with separators has nothing else in it. -/
theorem mem_of_mem_intercalate {α : Type} {c sep : α} {parts : List (List α)}
    (h : c ∈ [sep].intercalate parts) : c = sep ∨ ∃ part ∈ parts, c ∈ part := by
  induction parts with
  | nil => cases h
  | cons part parts ih =>
    cases parts with
    | nil =>
      rw [List.intercalate_singleton] at h
      exact Or.inr ⟨part, List.mem_cons_self, h⟩
    | cons next parts =>
      rw [List.intercalate_cons_cons, List.mem_append, List.mem_append] at h
      rcases h with (hpart | hsep) | hrest
      · exact Or.inr ⟨part, List.mem_cons_self, hpart⟩
      · exact Or.inl (List.mem_singleton.mp hsep)
      · exact (ih hrest).imp_right fun ⟨other, hother, hc⟩ =>
          ⟨other, List.mem_cons_of_mem _ hother, hc⟩

end Separators

section Zeros

/-- `text.replace(/0+$/, "")` -/
def stripZeros (text : List Char) : List Char := text.rdropWhile (· == '0')

theorem stripZeros_append_zeros (text : List Char) (n : Nat) :
    stripZeros (text ++ List.replicate n '0') = stripZeros text := by
  induction n with
  | zero => rw [List.replicate_zero, List.append_nil]
  | succ n ih =>
    rw [List.replicate_succ', ← List.append_assoc, stripZeros,
      List.rdropWhile_concat_pos _ _ _ (by simp)]
    exact ih

/-- What is stripped is zeros. -/
theorem exists_stripZeros_append (text : List Char) :
    ∃ n, text = stripZeros text ++ List.replicate n '0' := by
  induction text using List.reverseRecOn with
  | nil => exact ⟨0, rfl⟩
  | append_singleton text c ih =>
    by_cases hc : c = '0'
    · obtain ⟨n, hn⟩ := ih
      refine ⟨n + 1, ?_⟩
      rw [stripZeros, List.rdropWhile_concat_pos _ _ _ (by simpa using hc), List.replicate_succ',
        ← List.append_assoc, hc]
      exact congrArg (· ++ ['0']) hn
    · refine ⟨0, ?_⟩
      rw [stripZeros, List.rdropWhile_concat_neg _ _ _ (by simpa using hc), List.replicate_zero,
        List.append_nil]

/-- Nothing is stripped beyond a character that is no zero. -/
theorem stripZeros_append_cons {c : Char} (hc : c ≠ '0') (first rest : List Char) :
    stripZeros (first ++ c :: rest) = first ++ c :: stripZeros rest := by
  induction rest using List.reverseRecOn with
  | nil => exact List.rdropWhile_concat_neg _ _ _ (by simpa using hc)
  | append_singleton rest d ih =>
    have hsplit : first ++ c :: (rest ++ [d]) = (first ++ c :: rest) ++ [d] := by simp
    by_cases hd : d = '0'
    · rw [hsplit, stripZeros, stripZeros, List.rdropWhile_concat_pos _ _ _ (by simpa using hd),
        List.rdropWhile_concat_pos _ _ _ (by simpa using hd)]
      exact ih
    · rw [hsplit, stripZeros, stripZeros, List.rdropWhile_concat_neg _ _ _ (by simpa using hd),
        List.rdropWhile_concat_neg _ _ _ (by simpa using hd)]
      exact hsplit.symm

/-- Of texts of one length nothing is lost with their zeros. -/
theorem stripZeros_inj {first second : List Char} (hlength : first.length = second.length)
    (h : stripZeros first = stripZeros second) : first = second := by
  obtain ⟨n, hn⟩ := exists_stripZeros_append first
  obtain ⟨m, hm⟩ := exists_stripZeros_append second
  have hnm : n = m := by
    have hl := congrArg List.length hn
    have hl' := congrArg List.length hm
    rw [List.length_append, List.length_replicate] at hl hl'
    rw [h] at hl
    omega
  rw [hn, hm, h, hnm]

end Zeros

section Digits

def digitsOf (n : Nat) : List Char := Nat.toDigits 10 n

theorem isDigit_of_mem_digitsOf {n : Nat} {c : Char} (h : c ∈ digitsOf n) : c.isDigit = true :=
  Nat.isDigit_of_mem_toDigits (by decide) (by decide) h

theorem not_mem_digitsOf {n : Nat} {c : Char} (h : c.isDigit = false) : c ∉ digitsOf n := by
  intro hc
  rw [isDigit_of_mem_digitsOf hc] at h
  cases h

@[simp] theorem ofDigitChars_digitsOf (n : Nat) : Nat.ofDigitChars 10 (digitsOf n) 0 = n :=
  Nat.ofDigitChars_ten_toDigits

theorem digitsOf_inj {m n : Nat} (h : digitsOf m = digitsOf n) : m = n := by
  rw [← ofDigitChars_digitsOf m, h, ofDigitChars_digitsOf]

theorem length_digitsOf_bounds {n k : Nat} (hlow : 10 ^ k ≤ n) (hhigh : n ≤ 10 ^ (k + 1)) :
    k + 1 ≤ (digitsOf n).length ∧ (digitsOf n).length ≤ k + 2 := by
  constructor
  · by_contra hshort
    cases k with
    | zero =>
      have hpos : 0 < (digitsOf n).length := Nat.length_toDigits_pos
      omega
    | succ k =>
      have hlt := (Nat.length_toDigits_le_iff (by norm_num) (Nat.succ_pos k)).mp
        (show (digitsOf n).length ≤ k + 1 by omega)
      omega
  · refine (Nat.length_toDigits_le_iff (by norm_num) (Nat.succ_pos _)).mpr ?_
    exact hhigh.trans_lt (Nat.pow_lt_pow_right (by norm_num) (Nat.lt_succ_self _))

/-- A product with a power of ten is printed with that many zeros more. -/
theorem digitsOf_mul_pow {n : Nat} (hn : 0 < n) (i : Nat) :
    digitsOf (n * 10 ^ i) = digitsOf n ++ List.replicate i '0' := by
  induction i with
  | zero => simp
  | succ i ih =>
    have hpos : 0 < n * 10 ^ i := by positivity
    have hstep := Nat.toDigits_append_toDigits (b := 10) (by decide) hpos (d := 0) (by decide)
    rw [digitsOf, pow_succ, ← mul_assoc, mul_comm _ 10, ← Nat.add_zero (10 * _), ← hstep,
      Nat.toDigits_zero, List.replicate_succ', ← List.append_assoc, ← ih]
    rfl

/-- Two numbers are the same but for zeros at their ends. -/
theorem stripZeros_digitsOf_eq_iff {m n : Nat} (hm : 0 < m) (hn : 0 < n) :
    stripZeros (digitsOf m) = stripZeros (digitsOf n) ↔ ∃ i j, m * 10 ^ i = n * 10 ^ j := by
  constructor
  · intro h
    obtain ⟨i, hi⟩ := exists_stripZeros_append (digitsOf m)
    obtain ⟨j, hj⟩ := exists_stripZeros_append (digitsOf n)
    refine ⟨j, i, ?_⟩
    have hmi := congrArg (Nat.ofDigitChars 10 · 0) hi
    have hnj := congrArg (Nat.ofDigitChars 10 · 0) hj
    simp only [Nat.ofDigitChars_append, Nat.ofDigitChars_replicate_zero,
      ofDigitChars_digitsOf] at hmi hnj
    rw [hmi, hnj, h]
    ring
  · rintro ⟨i, j, h⟩
    rw [← stripZeros_append_zeros (digitsOf m) i, ← stripZeros_append_zeros (digitsOf n) j,
      ← digitsOf_mul_pow hm, ← digitsOf_mul_pow hn, h]

end Digits

section Fixed

/-- The nearest multiple of `10 ^ -places`, the larger of two that are equally near. -/
def fixedUnits (places : Nat) (x : ℚ) : Nat := ⌊x * 10 ^ places + 1 / 2⌋.toNat

def padStart (width : Nat) (text : List Char) : List Char :=
  List.replicate (width - text.length) '0' ++ text

/-- `toFixed(places)` of a value from zero to `1e21`. -/
def fixedText (places : Nat) (units : Nat) : List Char :=
  let padded := padStart (places + 1) (digitsOf units)
  padded.take (padded.length - places) ++ '.' :: padded.drop (padded.length - places)

/-- `text.replace(/0+$/, "").replace(/\.$/, "")` -/
def trimFixed (text : List Char) : List Char :=
  let stripped := stripZeros text
  if stripped.getLast? = some '.' then stripped.dropLast else stripped

theorem length_padStart (width : Nat) (text : List Char) :
    (padStart width text).length = max width text.length := by
  rw [padStart, List.length_append, List.length_replicate]
  omega

theorem isDigit_of_mem_padStart {width n : Nat} {c : Char} (h : c ∈ padStart width (digitsOf n)) :
    c.isDigit = true := by
  rcases List.mem_append.mp h with hzero | hdigit
  · rw [List.eq_of_mem_replicate hzero]
    rfl
  · exact isDigit_of_mem_digitsOf hdigit

theorem padStart_inj {width m n : Nat}
    (h : padStart width (digitsOf m) = padStart width (digitsOf n)) : m = n := by
  have hread := congrArg (Nat.ofDigitChars 10 · 0) h
  simpa [padStart, Nat.ofDigitChars_append] using hread

theorem trimFixed_of_not_mem {text first : List Char} {c : Char} {rest : List Char}
    (h : stripZeros text = first ++ c :: rest) (hpoint : '.' ∉ c :: rest) :
    trimFixed text = first ++ c :: rest := by
  have hlast : (first ++ c :: rest).getLast? ≠ some '.' := by
    intro hlast
    rw [List.getLast?_append_cons] at hlast
    exact hpoint (List.mem_of_getLast? hlast)
  simp only [trimFixed, h, hlast, if_false]

theorem trimFixed_append {whole decimals : List Char}
    (h : ∀ c ∈ decimals, c.isDigit = true) :
    trimFixed (whole ++ '.' :: decimals) =
      if stripZeros decimals = [] then whole else whole ++ '.' :: stripZeros decimals := by
  have hstripped : stripZeros (whole ++ '.' :: decimals) = whole ++ '.' :: stripZeros decimals :=
    stripZeros_append_cons (by decide) _ _
  cases hdecimals : stripZeros decimals with
  | nil => simp [trimFixed, hstripped, hdecimals]
  | cons d rest =>
    have hshift : whole ++ '.' :: d :: rest = (whole ++ ['.']) ++ d :: rest := by simp
    rw [if_neg (List.cons_ne_nil _ _), hshift]
    refine trimFixed_of_not_mem (by rw [hstripped, hdecimals, hshift]) fun hpoint => ?_
    rw [← hdecimals] at hpoint
    cases h _ ((List.rdropWhile_prefix _ _).subset hpoint)

/-- The two parts of a fixed text. -/
theorem fixedText_eq (places n : Nat) :
    ∃ whole decimals, fixedText places n = whole ++ '.' :: decimals ∧
      whole ++ decimals = padStart (places + 1) (digitsOf n) ∧ decimals.length = places ∧
      (∀ c ∈ whole, c.isDigit = true) ∧ ∀ c ∈ decimals, c.isDigit = true := by
  have hlength := length_padStart (places + 1) (digitsOf n)
  refine ⟨_, _, rfl, List.take_append_drop _ _, ?_, ?_, ?_⟩
  · rw [List.length_drop]
    omega
  · exact fun c hc => isDigit_of_mem_padStart (List.mem_of_mem_take hc)
  · exact fun c hc => isDigit_of_mem_padStart (List.mem_of_mem_drop hc)

/-- A trimmed text still tells which multiple it was printed from. -/
theorem trimFixed_fixedText_inj {places m n : Nat}
    (h : trimFixed (fixedText places m) = trimFixed (fixedText places n)) : m = n := by
  obtain ⟨whole, decimals, htext, hpadded, hlength, hwhole, hdecimals⟩ := fixedText_eq places m
  obtain ⟨whole', decimals', htext', hpadded', hlength', hwhole', hdecimals'⟩ :=
    fixedText_eq places n
  have hpoint : ∀ text : List Char, (∀ c ∈ text, c.isDigit = true) → '.' ∉ text := by
    intro text hdigits hmem
    cases hdigits _ hmem
  rw [htext, htext', trimFixed_append hdecimals, trimFixed_append hdecimals'] at h
  have hparts : whole = whole' ∧ stripZeros decimals = stripZeros decimals' := by
    split_ifs at h with hnil hnil' hnil'
    · exact ⟨h, hnil.trans hnil'.symm⟩
    · exact absurd (h ▸ List.mem_append_right _ List.mem_cons_self) (hpoint _ hwhole)
    · exact absurd (h ▸ List.mem_append_right _ List.mem_cons_self) (hpoint _ hwhole')
    · exact append_cons_inj (hpoint _ hwhole) (hpoint _ hwhole') h
  have hsame : padStart (places + 1) (digitsOf m) = padStart (places + 1) (digitsOf n) := by
    rw [← hpadded, ← hpadded', hparts.1, stripZeros_inj (hlength.trans hlength'.symm) hparts.2]
  exact padStart_inj hsame

end Fixed

section Shortest

/-- The multiple of `10 ^ scale` nearest to a double among those that denote it, the even one of
two that are equally near. -/
def denotedAt (x : ℚ) (scale : ℤ) : Option Nat :=
  let low := ⌊x / 10 ^ scale⌋.toNat
  let above := x / 10 ^ scale - low
  let highFirst : Bool := 1 / 2 < above || above = 1 / 2 && low % 2 = 1
  if roundDouble (low * 10 ^ scale) = x then
    if highFirst && roundDouble ((low + 1 : Nat) * 10 ^ scale) = x then some (low + 1) else some low
  else if roundDouble ((low + 1 : Nat) * 10 ^ scale) = x then some (low + 1)
  else none

/-- The search for the shortest digits, from the coarsest scale on. -/
def searchDigits (x : ℚ) : Nat → ℤ → Nat × ℤ
  | 0, scale => (⌊x / 10 ^ scale⌋.toNat, scale)
  | turns + 1, scale =>
    match denotedAt x scale with
    | some units => (units, scale)
    | none => searchDigits x turns (scale - 1)

/-- The shortest digits that denote a positive double, and the exponent of the last of them. At
`10 ^ -1074` every double is a multiple. -/
def shortestDigits (x : ℚ) : Nat × ℤ :=
  let found := searchDigits x (Int.log 10 x + 1074).toNat (Int.log 10 x)
  if found.1 % 10 = 0 then (found.1 / 10, found.2 + 1) else found

/-- The first digit, and the point after it if others follow. -/
def significandText : List Char → List Char
  | [] => []
  | [digit] => [digit]
  | digit :: rest => digit :: '.' :: rest

/-- Where the point stands behind the first of the shortest digits. -/
def pointOf (x : ℚ) : ℤ := (shortestDigits x).2 + (digitsOf (shortestDigits x).1).length

/-- `String` of a positive number. -/
def positiveText (x : ℚ) : List Char :=
  let digits := digitsOf (shortestDigits x).1
  let point := pointOf x
  if digits.length ≤ point ∧ point ≤ 21 then
    digits ++ List.replicate (point - digits.length).toNat '0'
  else if 0 < point ∧ point ≤ 21 then
    digits.take point.toNat ++ '.' :: digits.drop point.toNat
  else if -6 < point ∧ point ≤ 0 then
    '0' :: '.' :: (List.replicate (-point).toNat '0' ++ digits)
  else
    significandText digits ++
      'e' :: (if 0 < point - 1 then '+' else '-') :: digitsOf (point - 1).natAbs

/-- `String` of a number. -/
def numberText (x : ℚ) : List Char :=
  if x = 0 then ['0'] else if x < 0 then '-' :: positiveText (-x) else positiveText x

/-- `toFixed(places)` -/
def toFixed (places : Nat) (x : ℚ) : List Char :=
  let unsigned := fun y : ℚ =>
    if y < 10 ^ 21 then fixedText places (fixedUnits places y) else numberText y
  if x < 0 then '-' :: unsigned (-x) else unsigned x

variable {x : ℚ} {scale : ℤ} {units turns : Nat}

theorem denotedAt_eq_some (h : denotedAt x scale = some units) :
    roundDouble (units * 10 ^ scale) = x ∧
      (units = ⌊x / 10 ^ scale⌋.toNat ∨ units = ⌊x / 10 ^ scale⌋.toNat + 1) := by
  simp only [denotedAt] at h
  split_ifs at h with hlow hboth hhigh <;> cases h
  · exact ⟨by simpa using (Bool.and_eq_true_iff.mp hboth).2, Or.inr rfl⟩
  · exact ⟨hlow, Or.inl rfl⟩
  · exact ⟨hhigh, Or.inr rfl⟩

/-- A value that is a multiple at some scale is denoted there. -/
theorem denotedAt_isSome (hd : IsDouble x) {n : Nat} (h : x = n * 10 ^ scale) :
    ∃ units, denotedAt x scale = some units := by
  have hlow : (⌊x / 10 ^ scale⌋.toNat : ℚ) * 10 ^ scale = x := by
    rw [h, mul_div_assoc, div_self (by positivity), mul_one, Int.floor_natCast, Int.toNat_natCast]
  simp only [denotedAt, hlow, roundDouble_of_isDouble hd, if_true]
  split
  · exact ⟨_, rfl⟩
  · exact ⟨_, rfl⟩

/-- Every double is a multiple of `10 ^ -1074` and of the powers of ten below it. -/
theorem exists_multiple (hd : IsDouble x) (hx : 0 < x) (h : scale ≤ -1074) :
    ∃ n : Nat, x = n * 10 ^ scale := by
  obtain ⟨m, e, -, he, -, rfl⟩ := hd
  have hm : 0 < m := by
    have hpos := (pos_iff_pos_of_mul_pos hx).mpr (by positivity : (0 : ℚ) < 2 ^ e)
    exact_mod_cast hpos
  obtain ⟨n, rfl⟩ := Int.eq_ofNat_of_zero_le hm.le
  obtain ⟨a, ha⟩ := Int.eq_ofNat_of_zero_le (show 0 ≤ e - scale by omega)
  obtain ⟨b, hb⟩ := Int.eq_ofNat_of_zero_le (show 0 ≤ -scale by omega)
  refine ⟨n * 2 ^ a * 5 ^ b, ?_⟩
  have htwo : (2 : ℚ) ^ e = 2 ^ a * 2 ^ scale := by
    rw [← zpow_natCast, ← ha, ← zpow_add₀ (by norm_num), sub_add_cancel]
  have hfive : (1 : ℚ) = 5 ^ b * 5 ^ scale := by
    rw [← zpow_natCast, ← hb, ← zpow_add₀ (by norm_num), neg_add_cancel, zpow_zero]
  have hten : (10 : ℚ) ^ scale = 2 ^ scale * 5 ^ scale := by
    rw [← mul_zpow]
    norm_num
  push_cast
  calc (n : ℚ) * 2 ^ e = n * (2 ^ a * 2 ^ scale) * 1 := by rw [htwo, mul_one]
    _ = n * 2 ^ a * 5 ^ b * 10 ^ scale := by
      rw [hfive, hten]
      ring

/-- The search ends with digits that denote the double. -/
theorem roundDouble_searchDigits (hd : IsDouble x) (hx : 0 < x) (h : scale - turns ≤ -1074) :
    roundDouble ((searchDigits x turns scale).1 * 10 ^ (searchDigits x turns scale).2) = x := by
  induction turns generalizing scale with
  | zero =>
    obtain ⟨n, hn⟩ := exists_multiple hd hx (by simpa using h)
    have hexact : (⌊x / 10 ^ scale⌋.toNat : ℚ) * 10 ^ scale = x := by
      rw [hn, mul_div_assoc, div_self (by positivity), mul_one, Int.floor_natCast,
        Int.toNat_natCast]
    rw [searchDigits, hexact, roundDouble_of_isDouble hd]
  | succ turns ih =>
    rw [searchDigits]
    cases hdenoted : denotedAt x scale with
    | some units => exact (denotedAt_eq_some hdenoted).1
    | none => exact ih (by push_cast at h; omega)

theorem floor_bounds (hx : 0 < x) (hscale : scale ≤ Int.log 10 x) :
    10 ^ (Int.log 10 x - scale).toNat ≤ ⌊x / 10 ^ scale⌋.toNat ∧
      ⌊x / 10 ^ scale⌋.toNat + 1 ≤ 10 ^ (Int.log 10 x + 1 - scale).toNat := by
  have hpos : (0 : ℚ) < 10 ^ scale := by positivity
  have hpow : ∀ l : ℤ, scale ≤ l → ((10 ^ (l - scale).toNat : Nat) : ℚ) * 10 ^ scale = 10 ^ l := by
    intro l hl
    push_cast
    rw [← zpow_natCast, Int.toNat_of_nonneg (by omega), ← zpow_add₀ (by norm_num), sub_add_cancel]
  have hfloor : (0 : ℤ) ≤ ⌊x / 10 ^ scale⌋ := Int.floor_nonneg.mpr (by positivity)
  have hlow : ((10 ^ (Int.log 10 x - scale).toNat : Nat) : ℚ) ≤ x / 10 ^ scale := by
    rw [le_div_iff₀ hpos, hpow _ hscale]
    exact_mod_cast Int.zpow_log_le_self (by norm_num) hx
  have hhigh : x / 10 ^ scale < ((10 ^ (Int.log 10 x + 1 - scale).toNat : Nat) : ℚ) := by
    rw [div_lt_iff₀ hpos, hpow _ (by omega)]
    exact_mod_cast Int.lt_zpow_succ_log_self (by norm_num) x
  constructor
  · have := Int.le_floor.mpr (show (((10 ^ (Int.log 10 x - scale).toNat : Nat) : ℤ) : ℚ) ≤ _ by
      exact_mod_cast hlow)
    omega
  · have := Int.floor_lt.mpr (show _ < (((10 ^ (Int.log 10 x + 1 - scale).toNat : Nat) : ℤ) : ℚ) by
      exact_mod_cast hhigh)
    omega

/-- The digits found reach from the first digit of the double to the last. -/
theorem searchDigits_bounds (hx : 0 < x) (hscale : scale ≤ Int.log 10 x) :
    (searchDigits x turns scale).2 ≤ Int.log 10 x ∧
      10 ^ (Int.log 10 x - (searchDigits x turns scale).2).toNat ≤ (searchDigits x turns scale).1 ∧
      (searchDigits x turns scale).1 ≤
        10 ^ (Int.log 10 x + 1 - (searchDigits x turns scale).2).toNat := by
  induction turns generalizing scale with
  | zero =>
    obtain ⟨hlow, hhigh⟩ := floor_bounds hx hscale
    exact ⟨hscale, hlow, (Nat.le_succ _).trans hhigh⟩
  | succ turns ih =>
    rw [searchDigits]
    cases hdenoted : denotedAt x scale with
    | none => exact ih (by omega)
    | some units =>
      obtain ⟨hlow, hhigh⟩ := floor_bounds hx hscale
      rcases (denotedAt_eq_some hdenoted).2 with rfl | rfl
      · exact ⟨hscale, hlow, (Nat.le_succ _).trans hhigh⟩
      · exact ⟨hscale, hlow.trans (Nat.le_succ _), hhigh⟩

theorem roundDouble_shortestDigits (hd : IsDouble x) (hx : 0 < x) :
    roundDouble ((shortestDigits x).1 * 10 ^ (shortestDigits x).2) = x := by
  have hfound := roundDouble_searchDigits hd hx
    (show Int.log 10 x - ((Int.log 10 x + 1074).toNat : ℤ) ≤ -1074 by omega)
  rw [shortestDigits]
  generalize searchDigits x (Int.log 10 x + 1074).toNat (Int.log 10 x) = found at hfound ⊢
  obtain ⟨units, exponent⟩ := found
  by_cases hzero : units % 10 = 0
  · have htens : (units : ℚ) = (units / 10 : Nat) * 10 := by
      exact_mod_cast (Nat.div_mul_cancel (Nat.dvd_of_mod_eq_zero hzero)).symm
    have hsame : ((units / 10 : Nat) : ℚ) * 10 ^ (exponent + 1) = units * 10 ^ exponent := by
      rw [htens, zpow_add₀ (by norm_num), zpow_one]
      ring
    simp only [hzero, if_true]
    rw [hsame]
    exact hfound
  · simp only [hzero, if_false]
    exact hfound

/-- The point stands behind the first digit of the double, or one further on where the digits are
rounded up to the next power of ten. -/
theorem pointOf_bounds (hx : 0 < x) :
    Int.log 10 x + 1 ≤ pointOf x ∧ pointOf x ≤ Int.log 10 x + 2 := by
  have hbounds : (searchDigits x (Int.log 10 x + 1074).toNat (Int.log 10 x)).2 ≤ Int.log 10 x ∧
    _ ∧ _ := searchDigits_bounds hx le_rfl
  rw [pointOf, shortestDigits]
  generalize searchDigits x (Int.log 10 x + 1074).toNat (Int.log 10 x) = found at hbounds ⊢
  obtain ⟨units, exponent⟩ := found
  obtain ⟨hexponent, hlow, hhigh⟩ := hbounds
  obtain ⟨k, hk⟩ := Int.eq_ofNat_of_zero_le (sub_nonneg.mpr hexponent)
  have hk' : (Int.log 10 x + 1 - exponent).toNat = k + 1 := by omega
  simp only [hk, hk', Int.toNat_natCast] at hlow hhigh
  have hlength := length_digitsOf_bounds hlow hhigh
  by_cases hzero : units % 10 = 0
  · have hpositive : 0 < units / 10 := by
      have hone := Nat.one_le_pow k 10 (by norm_num)
      omega
    have hdigits := digitsOf_mul_pow hpositive 1
    rw [pow_one, Nat.div_mul_cancel (Nat.dvd_of_mod_eq_zero hzero)] at hdigits
    rw [hdigits, List.length_append, List.length_replicate] at hlength
    simp only [hzero, if_true]
    omega
  · simp only [hzero, if_false]
    omega

/-- The digits of an integer end no later than at its units. -/
theorem shortestDigits_of_natCast (hd : IsDouble x) {n : Nat} (h : x = n) :
    0 ≤ (shortestDigits x).2 := by
  have hsearch : ∀ (turns : Nat) (scale : ℤ), 0 ≤ scale → scale ≤ turns →
      0 ≤ (searchDigits x turns scale).2 := by
    intro turns
    induction turns with
    | zero =>
      intro scale hscale hturns
      exact hscale
    | succ turns ih =>
      intro scale hscale hturns
      rw [searchDigits]
      cases hdenoted : denotedAt x scale with
      | some units => exact hscale
      | none =>
        have hne : scale ≠ 0 := by
          rintro rfl
          obtain ⟨units, hunits⟩ := denotedAt_isSome hd
            (show x = n * 10 ^ (0 : ℤ) by rw [zpow_zero, mul_one, h])
          rw [hdenoted] at hunits
          cases hunits
        exact ih _ (by omega) (by push_cast at hturns; omega)
  have hlog : 0 ≤ Int.log 10 x := by
    rw [h, Int.log_natCast]
    exact Int.natCast_nonneg _
  have hfound := hsearch (Int.log 10 x + 1074).toNat (Int.log 10 x) hlog (by omega)
  rw [shortestDigits]
  split
  · exact hfound.trans (Int.le_add_one le_rfl)
  · exact hfound

/-- An integer is printed as its shortest digits and zeros. -/
theorem positiveText_of_natCast (hd : IsDouble x) {n : Nat} (hn : 0 < n) (h : x = n)
    (hsmall : n < 10 ^ 20) :
    positiveText x = digitsOf (shortestDigits x).1 ++
      List.replicate (shortestDigits x).2.toNat '0' := by
  have hx : 0 < x := by
    rw [h]
    exact_mod_cast hn
  have hlog : Int.log 10 x < 20 := by
    rw [← Int.lt_zpow_iff_log_lt (by norm_num) hx, h]
    exact_mod_cast hsmall
  have hexponent := shortestDigits_of_natCast hd h
  have hpoint := (pointOf_bounds hx).2
  have hplaces : pointOf x - (digitsOf (shortestDigits x).1).length = (shortestDigits x).2 := by
    rw [pointOf]
    omega
  simp only [positiveText, hplaces]
  exact if_pos ⟨by omega, by omega⟩

/-- The integer read back denotes the same double. -/
theorem roundDouble_ofDigitChars_positiveText (hd : IsDouble x) {n : Nat} (hn : 0 < n) (h : x = n)
    (hsmall : n < 10 ^ 20) :
    roundDouble (Nat.ofDigitChars 10 (positiveText x) 0 : Nat) = x := by
  have hx : 0 < x := by
    rw [h]
    exact_mod_cast hn
  have hvalue : ((Nat.ofDigitChars 10 (positiveText x) 0 : Nat) : ℚ) =
      (shortestDigits x).1 * 10 ^ (shortestDigits x).2 := by
    rw [positiveText_of_natCast hd hn h hsmall, Nat.ofDigitChars_append, ofDigitChars_digitsOf,
      Nat.ofDigitChars_replicate_zero]
    push_cast
    rw [← zpow_natCast, Int.toNat_of_nonneg (shortestDigits_of_natCast hd h), mul_comm]
  rw [hvalue]
  exact roundDouble_shortestDigits hd hx

theorem isDigit_of_mem_positiveText (hd : IsDouble x) {n : Nat} (hn : 0 < n) (h : x = n)
    (hsmall : n < 10 ^ 20) {c : Char} (hc : c ∈ positiveText x) : c.isDigit = true := by
  rw [positiveText_of_natCast hd hn h hsmall] at hc
  rcases List.mem_append.mp hc with hdigit | hzero
  · exact isDigit_of_mem_digitsOf hdigit
  · rw [List.eq_of_mem_replicate hzero]
    rfl

/-- The number that the text of an integer denotes. -/
def readInteger : List Char → ℚ
  | '-' :: digits => -roundDouble (Nat.ofDigitChars 10 digits 0 : Nat)
  | digits => roundDouble (Nat.ofDigitChars 10 digits 0 : Nat)

theorem readInteger_of_isDigit {text : List Char} (h : ∀ c ∈ text, c.isDigit = true) :
    readInteger text = roundDouble (Nat.ofDigitChars 10 text 0 : Nat) := by
  rw [readInteger]
  rintro digits rfl
  cases h _ List.mem_cons_self

/-- An integer double is printed as digits, with a sign if it is negative, and `String` loses
nothing of it. -/
theorem numberText_of_intCast (hd : IsDouble x) {n : ℤ} (h : x = n) (hsmall : |n| < 10 ^ 20) :
    readInteger (numberText x) = x ∧ ∀ c ∈ numberText x, c.isDigit = true ∨ c = '-' := by
  rcases lt_trichotomy n 0 with hneg | rfl | hpos
  · have hx : x < 0 := by
      rw [h]
      exact_mod_cast hneg
    obtain ⟨m, hm⟩ := Int.eq_ofNat_of_zero_le (show 0 ≤ -n by omega)
    have hxm : -x = m := by
      rw [h]
      exact_mod_cast hm
    rw [abs_of_neg hneg] at hsmall
    have hm0 : 0 < m := by omega
    have hm' : m < 10 ^ 20 := by omega
    rw [numberText, if_neg hx.ne, if_pos hx]
    constructor
    · rw [readInteger, roundDouble_ofDigitChars_positiveText hd.neg hm0 hxm hm', neg_neg]
    · intro c hc
      rcases List.mem_cons.mp hc with rfl | hc
      · exact Or.inr rfl
      · exact Or.inl (isDigit_of_mem_positiveText hd.neg hm0 hxm hm' hc)
  · have hzero : Nat.ofDigitChars 10 ['0'] 0 = 0 := rfl
    rw [h, Int.cast_zero] at hd ⊢
    rw [numberText, if_pos rfl]
    refine ⟨?_, List.forall_mem_singleton.mpr (by decide)⟩
    rw [readInteger_of_isDigit (List.forall_mem_singleton.mpr (by decide)), hzero, Nat.cast_zero]
    exact roundDouble_of_isDouble hd
  · have hx : 0 < x := by
      rw [h]
      exact_mod_cast hpos
    obtain ⟨m, rfl⟩ := Int.eq_ofNat_of_zero_le hpos.le
    rw [abs_of_pos hpos] at hsmall
    have hm : 0 < m := by omega
    have hm' : m < 10 ^ 20 := by omega
    have hdigits : ∀ c ∈ positiveText x, c.isDigit = true :=
      fun c hc => isDigit_of_mem_positiveText hd hm h hm' hc
    rw [numberText, if_neg hx.ne', if_neg hx.not_gt, readInteger_of_isDigit hdigits]
    exact ⟨roundDouble_ofDigitChars_positiveText hd hm h hm', fun c hc => Or.inl (hdigits c hc)⟩

/-- A large number is printed with its exponent. -/
theorem positiveText_of_large (hlarge : 10 ^ 21 ≤ x) :
    22 ≤ pointOf x ∧ positiveText x = significandText (digitsOf (shortestDigits x).1) ++
      'e' :: '+' :: digitsOf (pointOf x - 1).natAbs := by
  have hx : 0 < x := lt_of_lt_of_le (by norm_num) hlarge
  have hlog : 21 ≤ Int.log 10 x := by
    rw [← Int.zpow_le_iff_le_log (by norm_num) hx]
    exact_mod_cast hlarge
  have hpoint := (pointOf_bounds hx).1
  refine ⟨by omega, ?_⟩
  simp only [positiveText]
  rw [if_neg (by omega), if_neg (by omega), if_neg (by omega), if_pos (by omega)]

theorem significandText_inj {first second : List Char}
    (h : significandText first = significandText second) : first = second := by
  rcases first with _ | ⟨c, _ | ⟨d, first⟩⟩ <;> rcases second with _ | ⟨c', _ | ⟨d', second⟩⟩ <;>
    simp_all [significandText]

theorem mem_significandText {digits : List Char} {c : Char} (h : c ∈ significandText digits) :
    c ∈ digits ∨ c = '.' := by
  match digits with
  | [] => cases h
  | [_] => exact Or.inl h
  | digit :: next :: rest =>
    rcases List.mem_cons.mp h with rfl | h
    · exact Or.inl List.mem_cons_self
    · exact (List.mem_cons.mp h).symm.imp_left (List.mem_cons_of_mem _)

end Shortest

end Cryptox.Library
