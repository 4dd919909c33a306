import Cryptox.Library.DecimalText
import Cryptox.MarketData.Rules

/-!
# What the text of a snapshot tells

The serialization tells the pair, the timeframe, the range and the timestamps. Of a number below
`1e21` it tells the nearest multiple of `1e-15`; of a larger one the shortest digits, and the
exponent without the zeros at its end.
-/
namespace Cryptox.MarketData

open Cryptox.Backtesting (Timeframe)
open Cryptox.Library

/-- The number is printed with its zeros trimmed, a negative zero without its sign. -/
def canonicalNumber (value : ℚ) : List Char :=
  let fixed := trimFixed (toFixed 15 value)
  if value = 0 ∨ fixed = ['-', '0'] then ['0'] else fixed

def epochMicros (milliseconds : Int) : List Char := numberText (roundDouble (milliseconds * 1000))

def sizedText (text : String) : List Char := digitsOf text.utf8ByteSize ++ ':' :: text.toList

def candleFields (candle : Candle) : List (List Char) :=
  [epochMicros candle.timestamp, canonicalNumber candle.values.openPrice.toRat,
    canonicalNumber candle.values.high.toRat, canonicalNumber candle.values.low.toRat,
    canonicalNumber candle.values.close.toRat, canonicalNumber candle.values.volume.toRat]

def candleLine (candle : Candle) : List Char :=
  "candle=".toList ++ ['|'].intercalate (candleFields candle)

def snapshotLines (pair : Pair) (timeframe : Timeframe) (range : Range) (candles : List Candle) :
    List (List Char) :=
  ["version=market-data-snapshot-v1".toList,
    "pair=".toList ++ sizedText pair.text,
    "timeframe=".toList ++ sizedText (timeframeText timeframe),
    "fromEpochMicros=".toList ++ epochMicros range.fromTime,
    "toEpochMicros=".toList ++ epochMicros range.toTime,
    "candleCount=".toList ++ digitsOf candles.length] ++ candles.map candleLine

def snapshotSerialization (pair : Pair) (timeframe : Timeframe) (range : Range)
    (candles : List Candle) : String :=
  String.ofList (['\n'].intercalate (snapshotLines pair timeframe range candles))

section Numbers

def isNumberChar (c : Char) : Bool :=
  c.isDigit || c == '.' || c == 'e' || c == '+' || c == '-'

/-- Two numbers that the serialization prints alike. -/
def SameRendering (x y : ℚ) : Prop :=
  (x < 10 ^ 21 ∧ y < 10 ^ 21 ∧ fixedUnits 15 x = fixedUnits 15 y) ∨
    (10 ^ 21 ≤ x ∧ 10 ^ 21 ≤ y ∧ (shortestDigits x).1 = (shortestDigits y).1 ∧
      ∃ i j, (pointOf x - 1).natAbs * 10 ^ i = (pointOf y - 1).natAbs * 10 ^ j)

variable {x y : ℚ}

theorem toFixed_of_nonneg (hx : 0 ≤ x) :
    toFixed 15 x = if x < 10 ^ 21 then fixedText 15 (fixedUnits 15 x) else numberText x := by
  rw [toFixed, if_neg hx.not_gt]

/-- A large number without the zeros at the end of its exponent. -/
theorem trimFixed_of_large (hx : 10 ^ 21 ≤ x) :
    trimFixed (toFixed 15 x) = significandText (digitsOf (shortestDigits x).1) ++
      'e' :: '+' :: stripZeros (digitsOf (pointOf x - 1).natAbs) := by
  have hpos : 0 < x := lt_of_lt_of_le (by norm_num) hx
  rw [toFixed_of_nonneg hpos.le, if_neg hx.not_gt, numberText, if_neg hpos.ne', if_neg hpos.not_gt,
    (positiveText_of_large hx).2]
  refine trimFixed_of_not_mem ?_ ?_
  · rw [stripZeros_append_cons (by decide), ← List.nil_append ('+' :: _),
      stripZeros_append_cons (by decide), List.nil_append]
  · intro hpoint
    rcases List.mem_cons.mp hpoint with h | hpoint
    · cases h
    · rcases List.mem_cons.mp hpoint with h | hpoint
      · cases h
      · cases isDigit_of_mem_digitsOf ((List.rdropWhile_prefix _ _).subset hpoint)

theorem isNumberChar_of_isDigit {c : Char} (h : c.isDigit = true) : isNumberChar c = true := by
  simp [isNumberChar, h]

/-- What a number below `1e21` is trimmed to: digits, with or without a point. -/
theorem mem_trimFixed_of_small (hx : 0 ≤ x) (hsmall : x < 10 ^ 21) {c : Char}
    (hc : c ∈ trimFixed (toFixed 15 x)) : c.isDigit = true ∨ c = '.' := by
  obtain ⟨whole, decimals, htext, -, -, hwhole, hdecimals⟩ := fixedText_eq 15 (fixedUnits 15 x)
  rw [toFixed_of_nonneg hx, if_pos hsmall, htext, trimFixed_append hdecimals] at hc
  split at hc
  · exact Or.inl (hwhole c hc)
  · rcases List.mem_append.mp hc with hc | hc
    · exact Or.inl (hwhole c hc)
    · rcases List.mem_cons.mp hc with rfl | hc
      · exact Or.inr rfl
      · exact Or.inl (hdecimals c ((List.rdropWhile_prefix _ _).subset hc))

theorem mem_trimFixed_of_large (hx : 10 ^ 21 ≤ x) {c : Char}
    (hc : c ∈ trimFixed (toFixed 15 x)) :
    c.isDigit = true ∨ c = '.' ∨ c = 'e' ∨ c = '+' := by
  rw [trimFixed_of_large hx] at hc
  rcases List.mem_append.mp hc with hc | hc
  · rcases mem_significandText hc with hc | rfl
    · exact Or.inl (isDigit_of_mem_digitsOf hc)
    · exact Or.inr (Or.inl rfl)
  · rcases List.mem_cons.mp hc with rfl | hc
    · exact Or.inr (Or.inr (Or.inl rfl))
    · rcases List.mem_cons.mp hc with rfl | hc
      · exact Or.inr (Or.inr (Or.inr rfl))
      · exact Or.inl (isDigit_of_mem_digitsOf ((List.rdropWhile_prefix _ _).subset hc))

theorem mem_trimFixed (hx : 0 ≤ x) {c : Char} (hc : c ∈ trimFixed (toFixed 15 x)) :
    c.isDigit = true ∨ c = '.' ∨ c = 'e' ∨ c = '+' := by
  by_cases hsmall : x < 10 ^ 21
  · exact (mem_trimFixed_of_small hx hsmall hc).imp_right Or.inl
  · exact mem_trimFixed_of_large (not_lt.mp hsmall) hc

/-- The two special cases are those of a negative number and of zero. -/
theorem canonicalNumber_of_nonneg (hx : 0 ≤ x) : canonicalNumber x = trimFixed (toFixed 15 x) := by
  have hsign : trimFixed (toFixed 15 x) ≠ ['-', '0'] := by
    intro h
    have hmem := mem_trimFixed (c := '-') hx (by rw [h]; exact List.mem_cons_self)
    revert hmem
    decide
  by_cases hzero : x = 0
  · subst hzero
    decide +kernel
  · simp only [canonicalNumber, hzero, hsign, or_self, if_false]

theorem isNumberChar_canonicalNumber (hx : 0 ≤ x) {c : Char} (hc : c ∈ canonicalNumber x) :
    isNumberChar c = true := by
  rw [canonicalNumber_of_nonneg hx] at hc
  rcases mem_trimFixed hx hc with hdigit | rfl | rfl | rfl
  · exact isNumberChar_of_isDigit hdigit
  · rfl
  · rfl
  · rfl

/-- A text with an exponent is that of a large number. -/
theorem not_small_large (hx : 0 ≤ x) (hsmall : x < 10 ^ 21) (hy : 10 ^ 21 ≤ y) :
    trimFixed (toFixed 15 x) ≠ trimFixed (toFixed 15 y) := by
  intro h
  have hexponent : 'e' ∈ trimFixed (toFixed 15 y) := by
    rw [trimFixed_of_large hy]
    exact List.mem_append_right _ List.mem_cons_self
  rcases mem_trimFixed_of_small hx hsmall (h ▸ hexponent) with hdigit | hpoint
  · cases hdigit
  · cases hpoint

theorem large_eq_iff (hx : 10 ^ 21 ≤ x) (hy : 10 ^ 21 ≤ y) :
    trimFixed (toFixed 15 x) = trimFixed (toFixed 15 y) ↔
      (shortestDigits x).1 = (shortestDigits y).1 ∧
        ∃ i j, (pointOf x - 1).natAbs * 10 ^ i = (pointOf y - 1).natAbs * 10 ^ j := by
  have hpx := (positiveText_of_large hx).1
  have hpy := (positiveText_of_large hy).1
  have hexponent : ∀ z : ℚ, 'e' ∉ significandText (digitsOf (shortestDigits z).1) := by
    intro z hmem
    rcases mem_significandText hmem with hdigit | hpoint
    · cases isDigit_of_mem_digitsOf hdigit
    · cases hpoint
  rw [trimFixed_of_large hx, trimFixed_of_large hy,
    ← stripZeros_digitsOf_eq_iff (by omega) (by omega)]
  constructor
  · intro h
    obtain ⟨hdigits, hrest⟩ := append_cons_inj (hexponent x) (hexponent y) h
    exact ⟨digitsOf_inj (significandText_inj hdigits), (List.cons_eq_cons.mp hrest).2⟩
  · rintro ⟨hdigits, hrest⟩
    rw [hdigits, hrest]

theorem canonicalNumber_eq_iff (hx : 0 ≤ x) (hy : 0 ≤ y) :
    canonicalNumber x = canonicalNumber y ↔ SameRendering x y := by
  rw [canonicalNumber_of_nonneg hx, canonicalNumber_of_nonneg hy, SameRendering]
  by_cases hsx : x < 10 ^ 21
  · by_cases hsy : y < 10 ^ 21
    · have hsmall : trimFixed (toFixed 15 x) = trimFixed (toFixed 15 y) ↔
          fixedUnits 15 x = fixedUnits 15 y := by
        rw [toFixed_of_nonneg hx, toFixed_of_nonneg hy, if_pos hsx, if_pos hsy]
        exact ⟨trimFixed_fixedText_inj, fun h => by rw [h]⟩
      rw [hsmall]
      exact ⟨fun h => Or.inl ⟨hsx, hsy, h⟩,
        fun h => h.elim (·.2.2) fun hlarge => absurd hsx hlarge.1.not_gt⟩
    · refine ⟨fun h => absurd h (not_small_large hx hsx (not_lt.mp hsy)), ?_⟩
      rintro (⟨-, hlt, -⟩ | ⟨hlarge, -⟩)
      · exact absurd hlt hsy
      · exact absurd hsx hlarge.not_gt
  · by_cases hsy : y < 10 ^ 21
    · refine ⟨fun h => absurd h.symm (not_small_large hy hsy (not_lt.mp hsx)), ?_⟩
      rintro (⟨hlt, -⟩ | ⟨-, hlarge, -⟩)
      · exact absurd hlt hsx
      · exact absurd hsy hlarge.not_gt
    · rw [large_eq_iff (not_lt.mp hsx) (not_lt.mp hsy)]
      exact ⟨fun h => Or.inr ⟨not_lt.mp hsx, not_lt.mp hsy, h⟩,
        fun h => h.elim (fun hsmall => absurd hsmall.1 hsx) (·.2.2)⟩

end Numbers

section Timestamps

/-- The number of microseconds is an integer double next to the product. -/
theorem epochMicros_double {milliseconds : Int} (h : milliseconds.natAbs ≤ maxTimeValue) :
    ∃ n : ℤ, roundDouble (milliseconds * 1000) = n ∧ IsDouble n ∧
      |n - milliseconds * 1000| ≤ 512 ∧ |n| < 10 ^ 20 := by
  have hcast : (milliseconds : ℚ) * 1000 = ((milliseconds * 1000 : ℤ) : ℚ) := by push_cast; ring
  rw [hcast]
  generalize hproduct : milliseconds * 1000 = product
  have hle : |product| ≤ 8640000000000000000 := by
    rw [maxTimeValue] at h
    rw [abs_le]
    omega
  have hbound : |(product : ℚ)| < 2 ^ 63 := by
    calc |(product : ℚ)| ≤ 8640000000000000000 := by exact_mod_cast hle
      _ < 2 ^ 63 := by norm_num
  have hbit : lastBit (product : ℚ) ≤ 10 := by
    rw [lastBit, max_le_iff]
    refine ⟨by norm_num, ?_⟩
    by_cases hzero : |(product : ℚ)| = 0
    · rw [hzero, Int.log_zero_right]
      norm_num
    · have hlog := (Int.lt_zpow_iff_log_lt (b := 2) (x := 63) (by norm_num)
        (lt_of_le_of_ne (abs_nonneg _) (Ne.symm hzero))).mp (by exact_mod_cast hbound)
      omega
  obtain ⟨n, hn⟩ := roundDouble_intCast product
  have herror : |(n : ℚ) - product| ≤ 512 := by
    calc |(n : ℚ) - product| ≤ 2 ^ lastBit (product : ℚ) / 2 := by
          rw [← hn]
          exact abs_roundDouble_sub_le _
      _ ≤ 2 ^ (10 : ℤ) / 2 := by
        gcongr
        norm_num
      _ = 512 := by norm_num
  have herror' : |n - product| ≤ 512 := by exact_mod_cast herror
  refine ⟨n, hn, ?_, herror', ?_⟩
  · rw [← hn]
    exact isDouble_roundDouble (hbound.trans (pow_lt_pow_right₀ (by norm_num) (by norm_num)))
  · rw [abs_le] at hle herror'
    rw [abs_lt]
    omega

theorem minute_aligned {timeframe : Timeframe} {t : Int} (h : IsGridTime timeframe t) :
    t % 60000 = 0 := by
  have haligned := h.aligned
  cases timeframe <;> simp only [Timeframe.ms] at haligned <;> omega

/-- The instants of the grids are told apart by their microseconds. -/
theorem epochMicros_inj {timeframe timeframe' : Timeframe} {s t : Int}
    (hs : IsGridTime timeframe s) (ht : IsGridTime timeframe' t)
    (h : epochMicros s = epochMicros t) : s = t := by
  obtain ⟨m, hm, hdm, hem, hsm⟩ := epochMicros_double hs.dated
  obtain ⟨n, hn, hdn, hen, hsn⟩ := epochMicros_double ht.dated
  have hread := (numberText_of_intCast hdm rfl hsm).1
  rw [epochMicros, epochMicros, hm, hn] at h
  rw [h, (numberText_of_intCast hdn rfl hsn).1] at hread
  have hmn : n = m := by exact_mod_cast hread
  have halign := minute_aligned hs
  have halign' := minute_aligned ht
  rw [abs_le] at hem hen
  omega

theorem isNumberChar_epochMicros {t : Int} (ht : t.natAbs ≤ maxTimeValue) {c : Char}
    (hc : c ∈ epochMicros t) : isNumberChar c = true := by
  obtain ⟨n, hn, hd, -, hsmall⟩ := epochMicros_double ht
  rw [epochMicros, hn] at hc
  rcases (numberText_of_intCast hd rfl hsmall).2 c hc with hdigit | rfl
  · exact isNumberChar_of_isDigit hdigit
  · rfl

end Timestamps

section Lines

/-- What is sealed in a snapshot, after validation. -/
structure SnapshotArguments where
  pair : Pair
  timeframe : Timeframe
  range : ValidRange timeframe
  candles : List Candle

def SnapshotArguments.serialization (arguments : SnapshotArguments) : String :=
  snapshotSerialization arguments.pair arguments.timeframe arguments.range.toRange arguments.candles

/-- The same data: of a candle its timestamp and its values. -/
def SnapshotArguments.Same (left right : SnapshotArguments) : Prop :=
  left.pair = right.pair ∧ left.timeframe = right.timeframe ∧
    left.range.toRange = right.range.toRange ∧
    left.candles.map (fun candle => (candle.timestamp, candle.values)) =
      right.candles.map fun candle => (candle.timestamp, candle.values)

def SameValues (left right : CandleValues) : Prop :=
  SameRendering left.openPrice.toRat right.openPrice.toRat ∧
    SameRendering left.high.toRat right.high.toRat ∧ SameRendering left.low.toRat right.low.toRat ∧
    SameRendering left.close.toRat right.close.toRat ∧
    SameRendering left.volume.toRat right.volume.toRat

/-- The same data but for numbers that are printed alike. -/
def SnapshotArguments.Alike (left right : SnapshotArguments) : Prop :=
  left.pair = right.pair ∧ left.timeframe = right.timeframe ∧
    left.range.toRange = right.range.toRange ∧
    List.Forall₂ (fun c d => c.timestamp = d.timestamp ∧ SameValues c.values d.values)
      left.candles right.candles

theorem candleFields_eq_iff {c d : Candle} :
    candleFields c = candleFields d ↔ c.timestamp = d.timestamp ∧ SameValues c.values d.values := by
  have hpc := c.values.positive
  have hpd := d.values.positive
  have htime : epochMicros c.timestamp = epochMicros d.timestamp ↔ c.timestamp = d.timestamp :=
    ⟨epochMicros_inj c.onGrid d.onGrid, congrArg _⟩
  simp only [candleFields, List.cons.injEq, and_true, htime, SameValues,
    canonicalNumber_eq_iff hpc.1.1.le hpd.1.1.le, canonicalNumber_eq_iff hpc.1.2.1.le hpd.1.2.1.le,
    canonicalNumber_eq_iff hpc.1.2.2.1.le hpd.1.2.2.1.le,
    canonicalNumber_eq_iff hpc.1.2.2.2.le hpd.1.2.2.2.le, canonicalNumber_eq_iff hpc.2 hpd.2]

theorem isNumberChar_candleFields {candle : Candle} :
    ∀ field ∈ candleFields candle, ∀ c ∈ field, isNumberChar c = true := by
  have hp := candle.values.positive
  simp only [candleFields, List.forall_mem_cons, List.not_mem_nil, false_imp_iff, implies_true,
    and_true]
  exact ⟨fun _ => isNumberChar_epochMicros candle.onGrid.dated,
    fun _ => isNumberChar_canonicalNumber hp.1.1.le,
    fun _ => isNumberChar_canonicalNumber hp.1.2.1.le,
    fun _ => isNumberChar_canonicalNumber hp.1.2.2.1.le,
    fun _ => isNumberChar_canonicalNumber hp.1.2.2.2.le,
    fun _ => isNumberChar_canonicalNumber hp.2⟩

theorem splitOn_candleFields (candle : Candle) :
    (['|'].intercalate (candleFields candle)).splitOn '|' = candleFields candle := by
  refine List.splitOn_intercalate '|' (fun field hfield hmem => ?_) (List.cons_ne_nil _ _)
  have hnumber := isNumberChar_candleFields field hfield '|' hmem
  revert hnumber
  decide

theorem candleLine_eq_iff {c d : Candle} :
    candleLine c = candleLine d ↔ c.timestamp = d.timestamp ∧ SameValues c.values d.values := by
  rw [← candleFields_eq_iff]
  constructor
  · intro h
    have hfields := List.append_cancel_left h
    rw [← splitOn_candleFields c, hfields, splitOn_candleFields]
  · exact congrArg fun fields => "candle=".toList ++ ['|'].intercalate fields

theorem sizedText_inj {left right : String} (h : sizedText left = sizedText right) :
    left = right :=
  String.ext (append_cons_inj (not_mem_digitsOf rfl) (not_mem_digitsOf rfl) h).2

theorem timeframeText_inj {left right : Timeframe} (h : timeframeText left = timeframeText right) :
    left = right := by
  revert h
  cases left <;> cases right <;> decide

theorem sizedText_eq_iff {left right : String} : sizedText left = sizedText right ↔ left = right :=
  ⟨sizedText_inj, congrArg sizedText⟩

theorem pair_eq_iff {left right : Pair} : left.text = right.text ↔ left = right := by
  cases left
  cases right
  simp

theorem epochMicros_eq_iff {timeframe timeframe' : Timeframe} {s t : Int}
    (hs : IsGridTime timeframe s) (ht : IsGridTime timeframe' t) :
    epochMicros s = epochMicros t ↔ s = t :=
  ⟨epochMicros_inj hs ht, congrArg epochMicros⟩

theorem map_candleLine_eq_iff {left right : List Candle} :
    left.map candleLine = right.map candleLine ↔
      List.Forall₂ (fun c d => c.timestamp = d.timestamp ∧ SameValues c.values d.values)
        left right := by
  rw [← List.forall₂_eq_eq_eq, List.forall₂_map_left_iff, List.forall₂_map_right_iff]
  simp only [candleLine_eq_iff]

/-- The lines tell the arguments but for numbers that are printed alike. -/
theorem snapshotLines_eq_iff {left right : SnapshotArguments} :
    snapshotLines left.pair left.timeframe left.range.toRange left.candles =
      snapshotLines right.pair right.timeframe right.range.toRange right.candles ↔
    left.Alike right := by
  have hrange : left.range.toRange = right.range.toRange ↔
      left.range.fromTime = right.range.fromTime ∧ left.range.toTime = right.range.toTime := by
    rw [Range.ext_iff]
  simp only [snapshotLines, List.cons_append, List.nil_append, List.cons.injEq,
    List.append_cancel_left_eq, true_and, sizedText_eq_iff, pair_eq_iff, map_candleLine_eq_iff,
    epochMicros_eq_iff left.range.fromOnGrid right.range.fromOnGrid,
    epochMicros_eq_iff left.range.toOnGrid right.range.toOnGrid, SnapshotArguments.Alike, hrange]
  constructor
  · rintro ⟨hpair, htimeframe, hfrom, hto, -, hcandles⟩
    exact ⟨hpair, timeframeText_inj htimeframe, ⟨hfrom, hto⟩, hcandles⟩
  · rintro ⟨hpair, htimeframe, ⟨hfrom, hto⟩, hcandles⟩
    exact ⟨hpair, congrArg timeframeText htimeframe, hfrom, hto,
      congrArg digitsOf hcandles.length_eq, hcandles⟩

theorem newline_not_mem_sizedText {text : String} (h : '\n' ∉ text.toList) :
    '\n' ∉ sizedText text := by
  rw [sizedText, List.mem_append, List.mem_cons]
  rintro (hdigit | hcolon | htext)
  · exact not_mem_digitsOf rfl hdigit
  · cases hcolon
  · exact h htext

theorem newline_not_mem_pair (pair : Pair) : '\n' ∉ pair.text.toList := by
  intro hmem
  have hvalid := pair.valid
  rw [isPair] at hvalid
  split at hvalid
  · rename_i hnil
    rw [hnil] at hmem
    cases hmem
  · rename_i first rest hcons
    rw [hcons] at hmem
    simp only [Bool.and_eq_true, List.all_eq_true] at hvalid
    rcases List.mem_cons.mp hmem with rfl | hrest
    · cases hvalid.1
    · cases hvalid.2 _ hrest

theorem newline_not_mem_epochMicros {timeframe : Timeframe} {t : Int}
    (h : IsGridTime timeframe t) : '\n' ∉ epochMicros t := by
  intro hmem
  have hnumber := isNumberChar_epochMicros h.dated hmem
  revert hnumber
  decide

theorem newline_not_mem_candleLine (candle : Candle) : '\n' ∉ candleLine candle := by
  intro hline
  rcases List.mem_append.mp hline with hlabel | hfields
  · revert hlabel
    decide
  · rcases mem_of_mem_intercalate hfields with hsep | ⟨field, hfield, hmem⟩
    · cases hsep
    · have hnumber := isNumberChar_candleFields field hfield _ hmem
      revert hnumber
      decide

/-- No line is broken by what it tells. -/
theorem newline_not_mem {arguments : SnapshotArguments} {line : List Char}
    (h : line ∈ snapshotLines arguments.pair arguments.timeframe arguments.range.toRange
      arguments.candles) : '\n' ∉ line := by
  have hlabelled : ∀ label text : List Char, '\n' ∉ label → '\n' ∉ text → '\n' ∉ label ++ text :=
    fun label text hlabel htext hmem => (List.mem_append.mp hmem).elim hlabel htext
  simp only [snapshotLines, List.cons_append, List.nil_append, List.mem_cons, List.mem_map] at h
  rcases h with rfl | rfl | rfl | rfl | rfl | rfl | ⟨candle, -, rfl⟩
  · decide
  · exact hlabelled _ _ (by decide) (newline_not_mem_sizedText (newline_not_mem_pair _))
  · refine hlabelled _ _ (by decide) (newline_not_mem_sizedText ?_)
    cases arguments.timeframe <;> decide
  · exact hlabelled _ _ (by decide) (newline_not_mem_epochMicros arguments.range.fromOnGrid)
  · exact hlabelled _ _ (by decide) (newline_not_mem_epochMicros arguments.range.toOnGrid)
  · exact hlabelled _ _ (by decide) (not_mem_digitsOf rfl)
  · exact newline_not_mem_candleLine candle

/-- The serialization tells its arguments but for numbers that are printed alike. -/
theorem serialization_eq_iff {left right : SnapshotArguments} :
    left.serialization = right.serialization ↔ left.Alike right := by
  have hseparate : ∀ arguments : SnapshotArguments,
      (['\n'].intercalate (snapshotLines arguments.pair arguments.timeframe
        arguments.range.toRange arguments.candles)).splitOn '\n' =
          snapshotLines arguments.pair arguments.timeframe arguments.range.toRange
            arguments.candles :=
    fun arguments => List.splitOn_intercalate '\n' (fun line => newline_not_mem)
      (List.cons_ne_nil _ _)
  rw [← snapshotLines_eq_iff]
  constructor
  · intro h
    have hlines := String.ofList_injective h
    rw [← hseparate left, hlines, hseparate]
  · exact congrArg (fun lines => String.ofList (['\n'].intercalate lines))

/-- Equal serializations mean equal data just where the data are equal or differ in something that
is told. -/
theorem serialization_injective_at_iff (left right : SnapshotArguments) :
    (left.serialization = right.serialization → left.Same right) ↔
      left.Same right ∨ ¬ left.Alike right := by
  rw [serialization_eq_iff]
  by_cases halike : left.Alike right
  · simp [halike]
  · simp [halike]

end Lines

section Example

/-- One minute whose close is one, or the next double. -/
def minuteWithClose (close : Binary64) (hpos : 1 ≤ close.toRat) (hle : close.toRat ≤ 2) :
    SnapshotArguments where
  pair := btcUsdt
  timeframe := .m1
  range := ⟨⟨0, 60000⟩, isGridTime_zero .m1, ⟨by decide, by decide⟩, by decide⟩
  candles := [
    { pair := btcUsdt
      timeframe := .m1
      timestamp := 0
      onGrid := isGridTime_zero .m1
      values :=
        { openPrice := .ofInt 1 abs_one_lt
          high := .ofInt 2 abs_two_lt
          low := .ofInt 1 abs_one_lt
          close
          volume := .ofInt 0 (by norm_num)
          positive := by
            simp only [Binary64.ofInt]
            exact ⟨⟨by norm_num, by norm_num, by norm_num, by linarith⟩, by norm_num⟩
          consistent := by
            simp only [Binary64.ofInt, max_le_iff, le_min_iff]
            exact ⟨⟨⟨by norm_num, by exact_mod_cast hle⟩, by norm_num⟩,
              ⟨⟨by norm_num, by exact_mod_cast hpos⟩, by norm_num⟩⟩ }
      isClosed := true
      source := none }]

def nextAfterOne : Binary64 :=
  ⟨1 + 1 / 2 ^ 52, 2 ^ 52 + 1, -52, by norm_num, by norm_num, by norm_num, by norm_num⟩

theorem next_double_not_told :
    ¬ ∀ left right : SnapshotArguments,
      left.serialization = right.serialization → left.Same right := by
  intro h
  have hself : ∀ x : ℚ, x < 10 ^ 21 → SameRendering x x := fun x hx => Or.inl ⟨hx, hx, rfl⟩
  have hone : SameRendering 1 1 := hself 1 (by norm_num)
  have hclose : SameRendering 1 nextAfterOne.toRat :=
    Or.inl ⟨by norm_num, by norm_num [nextAfterOne], by decide +kernel⟩
  have halike : (minuteWithClose (.ofInt 1 abs_one_lt) (by norm_num [Binary64.ofInt])
      (by norm_num [Binary64.ofInt])).Alike (minuteWithClose nextAfterOne
        (by norm_num [nextAfterOne]) (by norm_num [nextAfterOne])) :=
    ⟨rfl, rfl, rfl, List.Forall₂.cons
      ⟨rfl, hone, hself 2 (by norm_num), hone, hclose, hself 0 (by norm_num)⟩ List.Forall₂.nil⟩
  obtain ⟨-, -, -, hcandles⟩ := h _ _ (serialization_eq_iff.mpr halike)
  have hvalues := (Prod.ext_iff.mp (List.cons.inj hcandles).1).2
  have hsame : Binary64.ofInt 1 abs_one_lt = nextAfterOne := congrArg CandleValues.close hvalues
  exact absurd (congrArg Binary64.toRat hsame) (by norm_num [Binary64.ofInt, nextAfterOne])

end Example

end Cryptox.MarketData
