import Cryptox.Backtesting.Arithmetic
import Cryptox.Library.Json
import Cryptox.Strategy.Combination

/-!
# Proposals of the model

The answer of the model is checked and made a proposal. Weights that do not add up to one are
divided by their sum and rounded one by one to four places, so that they need not add up to one
afterwards.
-/
namespace Cryptox.Strategy

open Cryptox.Backtesting (JsNumber Decimal CombinationMethod CompositeComponent)
open Cryptox.Library

/-- A value whose shape is not known. -/
abbrev UnknownValue := JsonValue JsNumber

abbrev UnknownRecord := List (List Char × UnknownValue)

def isPlainRecord : UnknownValue → Option UnknownRecord
  | .object fields => some fields
  | _ => none

def schemaInvalid {α : Type} : Except String α := .error "STRATEGY_MODEL_SCHEMA_INVALID"

def field (record : UnknownRecord) (key : String) : UnknownValue :=
  (record.lookup key.toList).getD .null

def hasOwn (record : UnknownRecord) (key : String) : Bool := record.any (·.1 == key.toList)

def keysAre (record : UnknownRecord) (required optional : List String) : Bool :=
  required.all (hasOwn record)
    && record.all fun entry => (required ++ optional).any fun key => key.toList == entry.1

def textOf : UnknownValue → Option String
  | .text value => some (String.ofList value)
  | _ => none

/-- A finite number. -/
def finiteOf : UnknownValue → Option JsNumber
  | .number value => if value.isFinite then some value else none
  | _ => none

def parameterOf (entry : List Char × UnknownValue) : Option (String × ParameterValue) :=
  match entry.2 with
  | .text value => some (String.ofList entry.1, .inr (String.ofList value))
  | value => (finiteOf value).map fun number => (String.ofList entry.1, .inl number)

def parameterRecord : UnknownValue → Option Parameters
  | .object fields => fields.mapM parameterOf
  | _ => none

def methodOf (value : UnknownValue) : Option CombinationMethod :=
  match textOf value with
  | some "MAJORITY_VOTE" => some .majorityVote
  | some "WEIGHTED_SCORE" => some .weightedScore
  | _ => none

/-- The thresholds that are given as finite numbers, the defaults for the others. -/
def readThresholds (value : UnknownValue) : Except String (JsNumber × JsNumber) :=
  match isPlainRecord value with
  | none => .ok StrategyModule.defaultThresholds
  | some thresholds =>
    if keysAre thresholds ["buy", "sell"] [] then
      .ok ((finiteOf (field thresholds "buy")).getD StrategyModule.defaultThresholds.1,
        (finiteOf (field thresholds "sell")).getD StrategyModule.defaultThresholds.2)
    else schemaInvalid

/-- Two thresholds in the wrong order are replaced. -/
def orderThresholds (thresholds : JsNumber × JsNumber) : JsNumber × JsNumber :=
  if thresholds.1.le thresholds.2 then
    if (JsNumber.ofInt 0).lt thresholds.1 && (JsNumber.ofInt 0).lt thresholds.2 then
      (thresholds.1, thresholds.1.negate)
    else StrategyModule.defaultThresholds
  else thresholds

def readComponent (value : UnknownValue) : Except String GeneratedComponent :=
  match isPlainRecord value with
  | none => schemaInvalid
  | some record =>
    if keysAre record ["strategyName", "parameters", "weight"] [] then
      match textOf (field record "strategyName"), parameterRecord (field record "parameters"),
          finiteOf (field record "weight") with
      | some strategyName, some parameters, some weight => .ok ⟨strategyName, parameters, weight⟩
      | _, _, _ => schemaInvalid
    else schemaInvalid

def componentsOf : UnknownValue → List UnknownValue
  | .array items => items
  | _ => []

/-- The components of a composite as they are proposed. -/
def rawComponents (record : UnknownRecord) : Except String (List GeneratedComponent) :=
  (componentsOf (field record "components")).mapM readComponent

/-- `Number((weight / sum).toFixed(4))` of the exact quotient, which is not negative. -/
def roundedShare : JsNumber → JsNumber → JsNumber
  | .finite weight, .finite sum => .finite ⟨⌊weight.toRat / sum.toRat * 10 ^ 4 + 1 / 2⌋, 4⟩
  | _, _ => .nan

section

variable (numbers : Numbers)

def weightSum (components : List GeneratedComponent) : JsNumber :=
  components.foldl (fun sum component => numbers.add sum component.weight) (.ofInt 0)

/-- `Math.abs(sum - 1) > 1e-4` -/
def farFromOne (sum : JsNumber) : Bool :=
  let difference := numbers.subtract sum (.ofInt 1)
  (JsNumber.finite ⟨1, 4⟩).lt difference || difference.lt (.finite ⟨-1, 4⟩)

def normalizeWeights (components : List GeneratedComponent) : List GeneratedComponent :=
  let sum := weightSum numbers components
  if (JsNumber.ofInt 0).lt sum && farFromOne numbers sum
      && components.all (fun component => (JsNumber.ofInt 0).le component.weight) then
    components.map fun component =>
      { component with weight := roundedShare component.weight sum }
  else components

def proposeSingle (record : UnknownRecord) : Except String GeneratedStrategyProposal :=
  if keysAre record ["kind", "strategyName", "parameters"] ["thresholds", "components", "method"] then
    match parameterRecord (field record "parameters"), textOf (field record "strategyName") with
    | some parameters, some strategyName => .ok (.single strategyName parameters)
    | _, _ => schemaInvalid
  else schemaInvalid

def proposeComposite (record : UnknownRecord) : Except String GeneratedStrategyProposal :=
  if keysAre record ["kind", "components", "method"] ["thresholds", "strategyName", "parameters"] then
    match componentsOf (field record "components"), methodOf (field record "method") with
    | [], _ | _, none => schemaInvalid
    | _, some method => do
      let thresholds ← readThresholds (field record "thresholds")
      let components ← rawComponents record
      return .composite
        (if method = .weightedScore then normalizeWeights numbers components else components)
        method (orderThresholds thresholds)
  else schemaInvalid

def proposal (value : UnknownValue) : Except String GeneratedStrategyProposal :=
  match isPlainRecord value with
  | none => schemaInvalid
  | some record =>
    match textOf (field record "kind") with
    | some "SINGLE" => proposeSingle record
    | some "COMPOSITE" => proposeComposite numbers record
    | _ => schemaInvalid

end

/-- Differences of finite numbers are not rounded. -/
structure Numbers.ExactDifference (numbers : Numbers) : Prop where
  subtract_finite : ∀ {left right : JsNumber}, left.isFinite = true → right.isFinite = true →
    (numbers.subtract left right).isFinite = true
  subtract_toRat : ∀ {left right : JsNumber}, left.isFinite = true → right.isFinite = true →
    (numbers.subtract left right).toRat = left.toRat - right.toRat

/-! Sums of rounded values. -/

theorem floor_add_half (x : ℚ) :
    ((⌊x + 1 / 2⌋ : ℤ) : ℚ) = x - Int.fract x + if 1 / 2 ≤ Int.fract x then 1 else 0 := by
  have hself := Int.self_sub_fract x
  have hlow := Int.fract_nonneg x
  have hhigh := Int.fract_lt_one x
  split_ifs with hup
  · have hfloor : ⌊x + 1 / 2⌋ = ⌊x⌋ + 1 := by
      rw [Int.floor_eq_iff]
      push_cast
      constructor <;> linarith
    rw [hfloor, hself]
    push_cast
    ring
  · have hfloor : ⌊x + 1 / 2⌋ = ⌊x⌋ := by
      rw [Int.floor_eq_iff]
      constructor <;> linarith
    rw [hfloor, hself, add_zero]

/-- A sum of rounded values exceeds the sum by how many are rounded up, less all fractions. -/
theorem sum_floor_add_half (values : List ℚ) :
    (values.map fun x => ((⌊x + 1 / 2⌋ : ℤ) : ℚ)).sum =
      values.sum + (values.countP (fun x => 1 / 2 ≤ Int.fract x) - (values.map Int.fract).sum) := by
  induction values with
  | nil => simp
  | cons x values ih =>
    rw [List.map_cons, List.sum_cons, List.sum_cons, List.map_cons, List.sum_cons, ih,
      floor_add_half, List.countP_cons]
    split_ifs with hup hup' hup'
    · push_cast
      ring
    · exact absurd (decide_eq_true hup) hup'
    · exact absurd (of_decide_eq_true hup') hup
    · push_cast
      ring

/-- The shares of the weights, in ten-thousandths. -/
def shares (weights : List ℚ) : List ℚ := weights.map fun weight => weight / weights.sum * 10 ^ 4

/-- Nothing is to be normalized, or as many shares are rounded up as their fractions add up to, give
or take one. -/
def Balanceable (weights : List ℚ) : Prop :=
  |weights.sum - 1| ≤ 1 / 10 ^ 4 ∨
    |((shares weights).countP (fun x => 1 / 2 ≤ Int.fract x) : ℚ)
      - ((shares weights).map Int.fract).sum| ≤ 1

theorem sum_shares {weights : List ℚ} (h : 0 < weights.sum) : (shares weights).sum = 10 ^ 4 := by
  have hmul : ∀ values : List ℚ, (values.map fun weight => weight / weights.sum * 10 ^ 4).sum =
      values.sum / weights.sum * 10 ^ 4 := by
    intro values
    induction values with
    | nil => simp
    | cons value values ih =>
      rw [List.map_cons, List.sum_cons, List.sum_cons, ih]
      ring
  rw [shares, hmul, div_self h.ne', one_mul]

/-- A fraction is at most a half away from what it is rounded to. -/
theorem abs_countP_sub_sum_fract_le (values : List ℚ) :
    |(values.countP (fun x => 1 / 2 ≤ Int.fract x) : ℚ) - (values.map Int.fract).sum| ≤
      values.length / 2 := by
  induction values with
  | nil => simp
  | cons x values ih =>
    have hlow := Int.fract_nonneg x
    have hhigh := Int.fract_lt_one x
    rw [abs_le] at ih
    rw [List.countP_cons, List.map_cons, List.sum_cons, List.length_cons, abs_le]
    by_cases hup : 1 / 2 ≤ Int.fract x
    · rw [if_pos (decide_eq_true hup)]
      push_cast
      constructor <;> linarith
    · rw [if_neg fun h => hup (of_decide_eq_true h)]
      push_cast
      constructor <;> linarith

/-- Up to three weights can always be balanced. -/
theorem balanceable_of_length_le {weights : List ℚ} (hlength : weights.length ≤ 3)
    (hpos : 0 < weights.sum) : Balanceable weights := by
  have hsum := sum_floor_add_half (shares weights)
  have hclose := abs_countP_sub_sum_fract_le (shares weights)
  rw [sum_shares hpos] at hsum
  have hwhole : ∀ values : List ℚ, ∃ total : ℤ,
      (values.map fun x => ((⌊x + 1 / 2⌋ : ℤ) : ℚ)).sum = total := by
    intro values
    induction values with
    | nil => exact ⟨0, by simp⟩
    | cons x values ih =>
      obtain ⟨total, htotal⟩ := ih
      refine ⟨⌊x + 1 / 2⌋ + total, ?_⟩
      rw [List.map_cons, List.sum_cons, htotal, Int.cast_add]
  obtain ⟨total, hcast⟩ := hwhole (shares weights)
  have hthree : ((shares weights).length : ℚ) ≤ 3 := by
    rw [shares, List.length_map]
    exact_mod_cast hlength
  rw [hcast] at hsum
  -- the difference is a whole number of at most one and a half
  have hdifference : ((shares weights).countP (fun x => 1 / 2 ≤ Int.fract x) : ℚ)
      - ((shares weights).map Int.fract).sum = ((total - 10 ^ 4 : ℤ) : ℚ) := by
    push_cast
    linarith
  refine Or.inr ?_
  rw [hdifference] at hclose ⊢
  have hlt : |((total - 10 ^ 4 : ℤ) : ℚ)| < 2 := lt_of_le_of_lt hclose (by linarith)
  have hint : |total - 10 ^ 4| < 2 := by exact_mod_cast hlt
  have hle : |total - 10 ^ 4| ≤ 1 := by omega
  exact_mod_cast hle

section Sums

variable {numbers : Numbers}

theorem foldl_add_toRat (hexact : numbers.Exact) {α : Type} (weight : α → JsNumber)
    {values : List α} (hfinite : ∀ value ∈ values, (weight value).isFinite = true) {s : JsNumber}
    (hs : s.isFinite = true) :
    (values.foldl (fun sum value => numbers.add sum (weight value)) s).isFinite = true ∧
      (values.foldl (fun sum value => numbers.add sum (weight value)) s).toRat =
        s.toRat + (values.map fun value => (weight value).toRat).sum := by
  induction values generalizing s with
  | nil => exact ⟨hs, (add_zero _).symm⟩
  | cons value values ih =>
    have hvalue := hfinite value List.mem_cons_self
    obtain ⟨hsum, hrat⟩ := ih (fun other hother => hfinite other (List.mem_cons_of_mem _ hother))
      (hexact.add_finite hs hvalue)
    refine ⟨hsum, ?_⟩
    rw [List.foldl_cons, hrat, hexact.add_toRat hs hvalue, List.map_cons, List.sum_cons, add_assoc]

theorem foldl_weights_toRat (hexact : numbers.Exact) {α : Type} (weight : α → JsNumber)
    {values : List α} (hfinite : ∀ value ∈ values, (weight value).isFinite = true) :
    (values.foldl (fun sum value => numbers.add sum (weight value)) (.ofInt 0)).isFinite = true ∧
      (values.foldl (fun sum value => numbers.add sum (weight value)) (.ofInt 0)).toRat =
        (values.map fun value => (weight value).toRat).sum := by
  obtain ⟨hsum, hrat⟩ := foldl_add_toRat hexact weight hfinite (s := .ofInt 0) rfl
  refine ⟨hsum, hrat.trans ?_⟩
  simp [JsNumber.ofInt, JsNumber.toRat]

/-- A sum of finite numbers is within a ten-thousandth of one just where it is exactly. -/
theorem farFromOne_eq_false_iff (hdifference : numbers.ExactDifference) {sum : JsNumber}
    (hsum : sum.isFinite = true) :
    farFromOne numbers sum = false ↔ |sum.toRat - 1| ≤ 1 / 10 ^ 4 := by
  have hone : (JsNumber.ofInt 1).toRat = 1 := by simpa using toRat_ofInt 1
  have hfinite : (numbers.subtract sum (.ofInt 1)).isFinite = true :=
    hdifference.subtract_finite hsum rfl
  have hrat : (numbers.subtract sum (.ofInt 1)).toRat = sum.toRat - (JsNumber.ofInt 1).toRat :=
    hdifference.subtract_toRat hsum rfl
  have htolerance : (JsNumber.finite ⟨1, 4⟩).toRat = 1 / 10 ^ 4 := by
    norm_num [JsNumber.toRat, Decimal.toRat]
  have htolerance' : (JsNumber.finite ⟨-1, 4⟩).toRat = -(1 / 10 ^ 4) := by
    norm_num [JsNumber.toRat, Decimal.toRat]
  rw [farFromOne, Bool.or_eq_false_iff, JsNumber.lt_eq_false_iff hfinite rfl,
    JsNumber.lt_eq_false_iff rfl hfinite, hrat, hone, htolerance, htolerance', abs_le, and_comm]

theorem weightSum_toRat (hexact : numbers.Exact) {components : List GeneratedComponent}
    (hfinite : ∀ component ∈ components, component.weight.isFinite = true) :
    (weightSum numbers components).isFinite = true ∧
      (weightSum numbers components).toRat = (components.map (·.weight.toRat)).sum :=
  foldl_weights_toRat hexact GeneratedComponent.weight hfinite

end Sums

/-- The weight checks of a composite on components with some weights. -/
theorem balanced_iff {strategies : StrategyModule} (hexact : strategies.numbers.Exact)
    (hdifference : strategies.numbers.ExactDifference) {components : List CompositeComponent}
    (hfinite : ∀ component ∈ components, component.weight.isFinite = true) :
    strategies.balanced components = true ↔
      |(components.map (·.weight.toRat)).sum - 1| ≤ 1 / 10 ^ 4 := by
  obtain ⟨hsum, hrat⟩ := foldl_weights_toRat hexact CompositeComponent.weight hfinite
  have hbalanced : strategies.balanced components = !farFromOne strategies.numbers
      (components.foldl (fun sum component => strategies.numbers.add sum component.weight)
        (.ofInt 0)) := by
    rw [StrategyModule.balanced, farFromOne, Bool.not_or]
  rw [hbalanced, Bool.not_eq_true', farFromOne_eq_false_iff hdifference hsum, hrat]

section Normalized

variable {numbers : Numbers} {raw : List GeneratedComponent}

theorem readComponent_finite {value : UnknownValue} {component : GeneratedComponent}
    (h : readComponent value = .ok component) : component.weight.isFinite = true := by
  rw [readComponent] at h
  split at h
  · cases h
  · split at h
    · split at h
      · rename_i record _ _ _ _ weight _ _ hweight
        cases h
        unfold finiteOf at hweight
        split at hweight
        · split at hweight
          · rename_i hfinite
            cases hweight
            exact hfinite
          · cases hweight
        · cases hweight
      · cases h
    · cases h

theorem rawComponents_finite {record : UnknownRecord} (h : rawComponents record = .ok raw) :
    ∀ component ∈ raw, component.weight.isFinite = true := by
  rw [rawComponents] at h
  generalize componentsOf (field record "components") = values at h
  induction values generalizing raw with
  | nil =>
    obtain rfl := pure_eq_ok.mp h
    exact fun _ hmem => absurd hmem List.not_mem_nil
  | cons value values ih =>
    rw [List.mapM_cons] at h
    obtain ⟨component, hcomponent, h⟩ := bind_eq_ok.mp h
    obtain ⟨rest, hrest, h⟩ := bind_eq_ok.mp h
    obtain rfl := pure_eq_ok.mp h
    intro other hother
    rcases List.mem_cons.mp hother with rfl | hother
    · exact readComponent_finite hcomponent
    · exact ih hrest other hother

/-- Where the weights are far from one they become their rounded shares, else they stay. -/
theorem normalizeWeights_eq (hexact : numbers.Exact) (hdifference : numbers.ExactDifference)
    (hfinite : ∀ component ∈ raw, component.weight.isFinite = true)
    (hnonneg : ∀ component ∈ raw, 0 ≤ component.weight.toRat)
    (hpos : 0 < (raw.map (·.weight.toRat)).sum) :
    normalizeWeights numbers raw =
      if |(raw.map (·.weight.toRat)).sum - 1| ≤ 1 / 10 ^ 4 then raw
      else raw.map fun component =>
        { component with weight := roundedShare component.weight (weightSum numbers raw) } := by
  obtain ⟨hsum, hrat⟩ := weightSum_toRat hexact hfinite
  have hzero : (JsNumber.ofInt 0).toRat = 0 := by simpa using toRat_ofInt 0
  have hpositive : (JsNumber.ofInt 0).lt (weightSum numbers raw) = true := by
    rw [JsNumber.lt_iff rfl hsum, hrat, hzero]
    exact hpos
  have hall : (raw.all fun component => (JsNumber.ofInt 0).le component.weight) = true := by
    refine List.all_eq_true.mpr fun component hcomponent => ?_
    rw [JsNumber.le_iff rfl (hfinite component hcomponent), hzero]
    exact hnonneg component hcomponent
  have hfar := farFromOne_eq_false_iff hdifference hsum
  rw [hrat] at hfar
  rw [normalizeWeights, hpositive, hall, Bool.true_and, Bool.and_true]
  by_cases hnear : |(raw.map (·.weight.toRat)).sum - 1| ≤ 1 / 10 ^ 4
  · rw [if_pos hnear, hfar.mpr hnear, if_neg Bool.false_ne_true]
  · have htrue : farFromOne numbers (weightSum numbers raw) = true :=
      Bool.not_eq_false _ |>.mp fun hfalse => hnear (hfar.mp hfalse)
    rw [if_neg hnear, htrue, if_pos rfl]

theorem roundedShare_toRat {weight sum : JsNumber} (hweight : weight.isFinite = true)
    (hsum : sum.isFinite = true) : (roundedShare weight sum).isFinite = true ∧
      (roundedShare weight sum).toRat =
        ((⌊weight.toRat / sum.toRat * 10 ^ 4 + 1 / 2⌋ : ℤ) : ℚ) / 10 ^ 4 := by
  cases weight with
  | finite weight =>
    cases sum with
    | finite sum => exact ⟨rfl, rfl⟩
    | nan => cases hsum
    | infinity negative => cases hsum
  | nan => cases hweight
  | infinity negative => cases hweight

/-- The normalized weights are finite and not negative. -/
theorem normalizeWeights_sound (hexact : numbers.Exact) (hdifference : numbers.ExactDifference)
    (hfinite : ∀ component ∈ raw, component.weight.isFinite = true)
    (hnonneg : ∀ component ∈ raw, 0 ≤ component.weight.toRat)
    (hpos : 0 < (raw.map (·.weight.toRat)).sum) :
    ∀ component ∈ normalizeWeights numbers raw, component.weight.isFinite = true ∧
      component.weight.lt (.ofInt 0) = false := by
  obtain ⟨hsum, hrat⟩ := weightSum_toRat hexact hfinite
  have hzero : (JsNumber.ofInt 0).toRat = 0 := by simpa using toRat_ofInt 0
  rw [normalizeWeights_eq hexact hdifference hfinite hnonneg hpos]
  split_ifs with hnear
  · intro component hcomponent
    refine ⟨hfinite component hcomponent, ?_⟩
    rw [JsNumber.lt_eq_false_iff rfl (hfinite component hcomponent), hzero]
    exact hnonneg component hcomponent
  · intro normalized hnormalized
    obtain ⟨component, hcomponent, rfl⟩ := List.mem_map.mp hnormalized
    obtain ⟨hshare, hvalue⟩ := roundedShare_toRat (hfinite component hcomponent) hsum
    refine ⟨hshare, ?_⟩
    have hquotient : 0 ≤ component.weight.toRat / (weightSum numbers raw).toRat * 10 ^ 4 + 1 / 2 := by
      have hweight := hnonneg component hcomponent
      rw [hrat]
      positivity
    have hfloor : (0 : ℚ) ≤ ((⌊component.weight.toRat / (weightSum numbers raw).toRat * 10 ^ 4
        + 1 / 2⌋ : ℤ) : ℚ) := by exact_mod_cast Int.floor_nonneg.mpr hquotient
    rw [JsNumber.lt_eq_false_iff rfl hshare, hzero, hvalue]
    positivity

/-- The sum of the normalized weights, against one. -/
theorem sum_normalized (hexact : numbers.Exact)
    (hfinite : ∀ component ∈ raw, component.weight.isFinite = true)
    (hpos : 0 < (raw.map (·.weight.toRat)).sum) :
    (raw.map fun component =>
        (roundedShare component.weight (weightSum numbers raw)).toRat).sum - 1 =
      (((shares (raw.map (·.weight.toRat))).countP (fun x => 1 / 2 ≤ Int.fract x) : ℚ)
        - ((shares (raw.map (·.weight.toRat))).map Int.fract).sum) / 10 ^ 4 := by
  obtain ⟨hsum, hrat⟩ := weightSum_toRat hexact hfinite
  have hvalues : (raw.map fun component =>
      (roundedShare component.weight (weightSum numbers raw)).toRat) =
      ((shares (raw.map (·.weight.toRat))).map fun x => ((⌊x + 1 / 2⌋ : ℤ) : ℚ)).map
        fun x => x * (1 / 10 ^ 4) := by
    rw [shares, List.map_map, List.map_map, List.map_map]
    refine List.map_congr_left fun component hcomponent => ?_
    rw [(roundedShare_toRat (hfinite component hcomponent) hsum).2, hrat, div_eq_mul_one_div]
    rfl
  rw [hvalues, List.sum_map_mul_right, List.map_id', sum_floor_add_half, sum_shares hpos]
  ring

theorem sum_accepted_iff (hexact : numbers.Exact) (hdifference : numbers.ExactDifference)
    (hfinite : ∀ component ∈ raw, component.weight.isFinite = true)
    (hnonneg : ∀ component ∈ raw, 0 ≤ component.weight.toRat)
    (hpos : 0 < (raw.map (·.weight.toRat)).sum) :
    |((normalizeWeights numbers raw).map (·.weight.toRat)).sum - 1| ≤ 1 / 10 ^ 4 ↔
      Balanceable (raw.map (·.weight.toRat)) := by
  rw [normalizeWeights_eq hexact hdifference hfinite hnonneg hpos, Balanceable]
  split_ifs with hnear
  · exact ⟨fun _ => Or.inl hnear, fun _ => hnear⟩
  · have hten : (0 : ℚ) < 10 ^ 4 := by norm_num
    have hmap : ((raw.map fun component => ({ component with
        weight := roundedShare component.weight (weightSum numbers raw) } :
          GeneratedComponent)).map (·.weight.toRat)) = raw.map fun component =>
        (roundedShare component.weight (weightSum numbers raw)).toRat := by
      rw [List.map_map]
      rfl
    rw [hmap, sum_normalized hexact hfinite hpos, abs_div, abs_of_pos hten,
      div_le_div_iff_of_pos_right hten]
    exact ⟨Or.inr, fun h => h.resolve_left hnear⟩

end Normalized

/-- The components of a weighted proposal are the raw ones with their weights normalized. -/
theorem proposal_eq_weighted {numbers : Numbers} {value : UnknownValue}
    {components : List GeneratedComponent} {thresholds : JsNumber × JsNumber}
    (h : proposal numbers value = .ok (.composite components .weightedScore thresholds)) :
    ∃ record raw, isPlainRecord value = some record ∧ rawComponents record = .ok raw ∧
      components = normalizeWeights numbers raw := by
  rw [proposal] at h
  split at h
  · cases h
  · rename_i record hrecord
    split at h
    · rw [proposeSingle] at h
      split at h
      · split at h
        · cases h
        · cases h
      · cases h
    · rw [proposeComposite] at h
      split at h
      · split at h
        · cases h
        · cases h
        · rename_i method _ _ _
          simp only [bind_eq_ok, pure_eq_ok] at h
          obtain ⟨_, -, raw, hraw, hcomposite⟩ := h
          cases hcomposite
          exact ⟨record, raw, hrecord, hraw, rfl⟩
      · cases h
    · cases h

/-- The weights a weighted proposal is given. -/
def proposedWeights (value : UnknownValue) : List ℚ :=
  match isPlainRecord value with
  | none => []
  | some record =>
    match rawComponents record with
    | .ok raw => raw.map (·.weight.toRat)
    | .error _ => []

/-- The weights of a weighted proposal pass the checks of a composite just where there was nothing to
normalize, or as many shares are rounded up as their fractions add up to, give or take one. -/
theorem normalized_weights_accepted_iff (strategies : StrategyModule)
    (hexact : strategies.numbers.Exact) (hdifference : strategies.numbers.ExactDifference)
    {value : UnknownValue} {components : List GeneratedComponent}
    {thresholds : JsNumber × JsNumber}
    (hproposal : proposal strategies.numbers value =
      .ok (.composite components .weightedScore thresholds))
    (hnonneg : ∀ weight ∈ proposedWeights value, 0 ≤ weight)
    (hpos : 0 < (proposedWeights value).sum) {prepared : List CompositeComponent}
    (hprepared : prepared.map (·.weight) = components.map (·.weight)) :
    ((∀ component ∈ prepared, component.weight.isFinite = true ∧
        component.weight.lt (.ofInt 0) = false) ∧ strategies.balanced prepared = true) ↔
      Balanceable (proposedWeights value) := by
  obtain ⟨record, raw, hrecord, hraw, rfl⟩ := proposal_eq_weighted hproposal
  have hweights : proposedWeights value = raw.map (·.weight.toRat) := by
    rw [proposedWeights, hrecord]
    dsimp only
    rw [hraw]
  rw [hweights] at hnonneg hpos ⊢
  have hfinite := rawComponents_finite hraw
  have hnonneg' : ∀ component ∈ raw, 0 ≤ component.weight.toRat :=
    fun component hcomponent => hnonneg _ (List.mem_map_of_mem hcomponent)
  have hsound := normalizeWeights_sound hexact hdifference hfinite hnonneg' hpos
  have hchecked : ∀ component ∈ prepared, component.weight.isFinite = true ∧
      component.weight.lt (.ofInt 0) = false := by
    intro component hcomponent
    have hmem : component.weight ∈ (normalizeWeights strategies.numbers raw).map (·.weight) := by
      rw [← hprepared]
      exact List.mem_map_of_mem hcomponent
    obtain ⟨other, hother, hsame⟩ := List.mem_map.mp hmem
    rw [← hsame]
    exact hsound other hother
  have hsum : prepared.map (·.weight.toRat) =
      (normalizeWeights strategies.numbers raw).map (·.weight.toRat) := by
    have hmapped := congrArg (List.map JsNumber.toRat) hprepared
    rw [List.map_map, List.map_map] at hmapped
    exact hmapped
  rw [balanced_iff hexact hdifference fun component hcomponent => (hchecked component hcomponent).1,
    hsum, sum_accepted_iff hexact hdifference hfinite hnonneg' hpos]
  exact ⟨fun h => h.2, fun h => ⟨hchecked, h⟩⟩

theorem exactDifference_exampleNumbers : exampleNumbers.ExactDifference := by
  constructor
  all_goals
    intro left right hl hr
    cases left <;> cases right <;> simp_all [exampleNumbers, JsNumber.isFinite, JsNumber.toRat]

/-- Moving averages of default parameters with some weights. -/
def weightedAverages (weights : List JsNumber) : UnknownValue :=
  .object [("kind".toList, .text "COMPOSITE".toList), ("method".toList, .text "WEIGHTED_SCORE".toList),
    ("components".toList, .array (weights.map fun weight => .object [
      ("strategyName".toList, .text "MA".toList), ("parameters".toList, .object []),
      ("weight".toList, .number weight)]))]

def proposedComponents (value : UnknownValue) : List CompositeComponent :=
  match proposal exampleNumbers value with
  | .ok (.composite components .weightedScore _) =>
    components.map fun component => ⟨component.strategyName, component.weight⟩
  | _ => []

/-- Weights of one and three become a quarter and three quarters, which balance. -/
theorem normalized_weights_accepted_iff_two :
    (proposedComponents (weightedAverages [.ofInt 1, .ofInt 3])).map (·.weight) =
        [.finite ⟨2500, 4⟩, .finite ⟨7500, 4⟩] ∧
      (exampleStrategies .inMemory).balanced
        (proposedComponents (weightedAverages [.ofInt 1, .ofInt 3])) = true ∧
      proposedWeights (weightedAverages [.ofInt 1, .ofInt 3]) = [1, 3] ∧ Balanceable [1, 3] := by
  have hproposal : proposal (exampleStrategies .inMemory).numbers
      (weightedAverages [.ofInt 1, .ofInt 3]) = .ok (.composite
        [⟨"MA", [], .finite ⟨2500, 4⟩⟩, ⟨"MA", [], .finite ⟨7500, 4⟩⟩] .weightedScore
        StrategyModule.defaultThresholds) := by decide +kernel
  have hweights : proposedWeights (weightedAverages [.ofInt 1, .ofInt 3]) = [1, 3] := by
    decide +kernel
  have haccepted : ((∀ component ∈ proposedComponents (weightedAverages [.ofInt 1, .ofInt 3]),
        component.weight.isFinite = true ∧ component.weight.lt (.ofInt 0) = false) ∧
      (exampleStrategies .inMemory).balanced
        (proposedComponents (weightedAverages [.ofInt 1, .ofInt 3])) = true) ↔
      Balanceable (proposedWeights (weightedAverages [.ofInt 1, .ofInt 3])) :=
    normalized_weights_accepted_iff (exampleStrategies .inMemory) exact_exampleNumbers
      exactDifference_exampleNumbers hproposal (by decide +kernel) (by decide +kernel)
      (by decide +kernel)
  have hbalanceable : Balanceable [1, 3] := balanceable_of_length_le (by simp) (by norm_num)
  rw [hweights] at haccepted
  exact ⟨by decide +kernel, (haccepted.mpr hbalanceable).2, hweights, hbalanceable⟩

/-- Seven equal weights become seven times 0.1429, which makes 1.0003. -/
theorem seven_equal_weights_rejected :
    proposedWeights (weightedAverages (List.replicate 7 (.ofInt 1))) = List.replicate 7 1 ∧
      (proposedComponents (weightedAverages (List.replicate 7 (.ofInt 1)))).map (·.weight) =
        List.replicate 7 (.finite ⟨1429, 4⟩) ∧
      (exampleStrategies .inMemory).balanced
        (proposedComponents (weightedAverages (List.replicate 7 (.ofInt 1)))) = false := by
  refine ⟨by decide +kernel, by decide +kernel, by decide +kernel⟩

end Cryptox.Strategy
