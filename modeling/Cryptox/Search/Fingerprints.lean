import Cryptox.Library.Numeral
import Cryptox.Library.StableJson
import Cryptox.Search.Space

/-!
# Fingerprints of candidates

What is hashed of a candidate, for the generators of `generators.ts` and for the one of
`genetic.ts`, whose definitions are the same with the type `GENETIC`.
-/
namespace Cryptox.Search

open Cryptox.Backtesting (JsNumber Decimal)
open Cryptox.Library
open Cryptox.Strategy (ParameterValue Parameters)

abbrev Json := JsonValue DecimalNumber

def textJson (text : String) : Json := .text text.toList

/-- `JSON.stringify` writes what is not finite as `null`. -/
def parameterJson : ParameterValue → Json
  | .inl (.finite shown) => .number (DecimalNumber.ofScaled shown.units (-shown.scale))
  | .inl _ => .null
  | .inr text => textJson text

def generatorTypeText : GeneratorType → String
  | .random => "RANDOM"
  | .domainGuided => "DOMAIN_GUIDED"
  | .genetic => "GENETIC"

/-- What a fingerprint tells of a definition. -/
structure FingerprintedDefinition where
  id : String
  strategyName : String
  implementationVersion : String
  implementationSha256 : String
  parameters : Parameters
deriving DecidableEq, Repr

def fingerprinted (definition : SearchStrategyDefinition) : FingerprintedDefinition where
  id := definition.id
  strategyName := definition.strategyName
  implementationVersion := definition.implementationVersion
  implementationSha256 := definition.implementationSha256
  parameters := definition.parameters

def parametersJson (parameters : Parameters) : Json :=
  .object (parameters.map fun entry => (entry.1.toList, parameterJson entry.2))

def definitionJson (definition : FingerprintedDefinition) : Json :=
  .object [("id".toList, textJson definition.id),
    ("strategyName".toList, textJson definition.strategyName),
    ("implementationVersion".toList, textJson definition.implementationVersion),
    ("implementationSha256".toList, textJson definition.implementationSha256),
    ("parameters".toList, parametersJson definition.parameters)]

section Texts

variable (localeCompare : String → String → Ordering)

def compareKeys (left right : List Char) : Ordering :=
  localeCompare (String.ofList left) (String.ofList right)

def compareIds (left right : FingerprintedDefinition) : Ordering := localeCompare left.id right.id

def candidateJson (type : GeneratorType) (owner : String)
    (selected : List SearchStrategyDefinition) : Json :=
  .object [("generatedBy".toList, textJson (generatorTypeText type)),
    ("ownerUserId".toList, textJson owner),
    ("strategyDefinitions".toList,
      .array ((sortWith (compareIds localeCompare) (selected.map fingerprinted)).map definitionJson)),
    ("executionPolicy".toList, textJson "TWO_SIDED_ONE_X_V1"),
    ("method".toList, textJson (if 1 < selected.length then "MAJORITY_VOTE" else "WEIGHTED_SCORE"))]

/-- What `fingerprintFor` hashes. It throws for no definitions. -/
def fingerprintText (type : GeneratorType) : List SearchStrategyDefinition → Option String
  | [] => none
  | first :: rest => some (String.ofList ((candidateJson localeCompare type first.userId
      (first :: rest)).stableText (compareKeys localeCompare) DecimalNumber.format))

end Texts

section Values

/-- The value a parameter has. -/
def parameterValue : ParameterValue → ℚ ⊕ String
  | .inl number => .inl number.toRat
  | .inr text => .inr text

def FiniteParameters (parameters : Parameters) : Prop :=
  ∀ entry ∈ parameters, ∀ number, entry.2 = .inl number → number.isFinite = true

/-- What a selection is of: the definitions, each with its parameters as a map. -/
structure Identity where
  id : String
  strategyName : String
  implementationVersion : String
  implementationSha256 : String
  parameters : String → Option (ℚ ⊕ String)

def identity (definition : SearchStrategyDefinition) : Identity where
  id := definition.id
  strategyName := definition.strategyName
  implementationVersion := definition.implementationVersion
  implementationSha256 := definition.implementationSha256
  parameters := fun key => (definition.parameters.lookup key).map parameterValue

/-- Parameters with one value for a key, all of them finite or texts. -/
structure WellFormed (parameters : Parameters) : Prop where
  keys : (parameters.map (·.1)).Nodup
  finite : FiniteParameters parameters

theorem textJson_inj {first second : String} : textJson first = textJson second ↔ first = second :=
  ⟨fun h => String.toList_injective (JsonValue.text.inj h), fun h => congrArg textJson h⟩

theorem generatorTypeText_inj {first second : GeneratorType} :
    generatorTypeText first = generatorTypeText second ↔ first = second := by
  cases first <;> cases second <;> decide

theorem toRat_scaled (shown : Decimal) :
    (DecimalNumber.ofScaled shown.units (-shown.scale)).toRat = shown.toRat := by
  rw [DecimalNumber.toRat_ofScaled, Decimal.toRat, zpow_neg, zpow_natCast, div_eq_mul_inv]

/-- Finite values are written differently exactly if they are different. -/
theorem parameterJson_eq_iff {first second : ParameterValue}
    (hfirst : ∀ number, first = .inl number → number.isFinite = true)
    (hsecond : ∀ number, second = .inl number → number.isFinite = true) :
    parameterJson first = parameterJson second ↔ parameterValue first = parameterValue second := by
  have hnumber : ∀ number : JsNumber, number.isFinite = true →
      ∃ shown, number = .finite shown := by
    intro number h
    cases number with
    | finite shown => exact ⟨shown, rfl⟩
    | nan => cases h
    | infinity negative => cases h
  cases first with
  | inl first =>
    obtain ⟨shown, rfl⟩ := hnumber first (hfirst _ rfl)
    cases second with
    | inl second =>
      obtain ⟨shown', rfl⟩ := hnumber second (hsecond _ rfl)
      have hvalue : DecimalNumber.ofScaled shown.units (-shown.scale) =
          DecimalNumber.ofScaled shown'.units (-shown'.scale) ↔ shown.toRat = shown'.toRat := by
        rw [← toRat_scaled shown, ← toRat_scaled shown']
        exact ⟨fun h => congrArg DecimalNumber.toRat h, fun h => DecimalNumber.toRat_inj h⟩
      simp only [parameterJson, parameterValue, JsonValue.number.injEq, Sum.inl.injEq,
        JsNumber.toRat, hvalue]
    | inr text => simp [parameterJson, parameterValue, textJson]
  | inr text =>
    cases second with
    | inl second =>
      obtain ⟨shown', rfl⟩ := hnumber second (hsecond _ rfl)
      simp [parameterJson, parameterValue, textJson]
    | inr text' => simp [parameterJson, parameterValue, textJson_inj]

end Values

section Selections

variable {localeCompare : String → String → Ordering}

theorem sortKeys_parameterJson (cmp : List Char → List Char → Ordering) (value : ParameterValue) :
    (parameterJson value).sortKeys cmp = parameterJson value := by
  rcases value with (_ | _ | _) | _ <;> rfl

theorem sortFields_parameters (cmp : List Char → List Char → Ordering) (parameters : Parameters) :
    JsonValue.sortFields cmp (parameters.map fun entry => (entry.1.toList, parameterJson entry.2)) =
      parameters.map fun entry => (entry.1.toList, parameterJson entry.2) := by
  rw [JsonValue.sortFields_eq_map, List.map_map]
  exact List.map_congr_left fun entry _ => by
    simp only [Function.comp_apply, sortKeys_parameterJson]

/-- Maps of parameters are the same if their entries are, in whatever order. -/
theorem lookups_eq_iff {first second : Parameters} (hfirst : WellFormed first)
    (hsecond : WellFormed second) :
    (∀ key, (first.lookup key).map parameterValue = (second.lookup key).map parameterValue) ↔
      (first.map fun entry => (entry.1.toList, parameterJson entry.2)).Perm
        (second.map fun entry => (entry.1.toList, parameterJson entry.2)) := by
  have hkeys : ∀ parameters : Parameters, (parameters.map (·.1)).Nodup →
      ((parameters.map fun entry => (entry.1, parameterValue entry.2)).map (·.1)).Nodup := by
    intro parameters h
    rw [List.map_map]
    exact h
  have hvalues : (∀ key, (first.lookup key).map parameterValue =
        (second.lookup key).map parameterValue) ↔
      (first.map fun entry => (entry.1, parameterValue entry.2)).Perm
        (second.map fun entry => (entry.1, parameterValue entry.2)) := by
    simp only [← lookup_map]
    exact ⟨perm_of_lookup_eq (hkeys _ hfirst.keys) (hkeys _ hsecond.keys),
      fun h key => lookup_eq_of_perm (hkeys _ hfirst.keys) h key⟩
  rw [hvalues]
  constructor
  · intro h
    refine perm_map_of_perm_map h fun a ha b hb heq => ?_
    obtain ⟨hkey, hvalue⟩ := Prod.mk.inj heq
    rw [hkey, (parameterJson_eq_iff (hfirst.finite a ha) (hsecond.finite b hb)).mpr hvalue]
  · intro h
    refine perm_map_of_perm_map h fun a ha b hb heq => ?_
    obtain ⟨hkey, hvalue⟩ := Prod.mk.inj heq
    rw [String.toList_injective hkey,
      (parameterJson_eq_iff (hfirst.finite a ha) (hsecond.finite b hb)).mp hvalue]

/-- Sorted, maps of parameters are written alike exactly if they are the same, provided that the
collation tells their keys apart. -/
theorem parametersJson_eq_iff [Std.TransCmp localeCompare] {first second : Parameters}
    (hfirst : WellFormed first) (hsecond : WellFormed second)
    (hapart : ∀ a ∈ first, ∀ b ∈ first, localeCompare a.1 b.1 = .eq → a.1 = b.1) :
    (parametersJson first).sortKeys (compareKeys localeCompare) =
        (parametersJson second).sortKeys (compareKeys localeCompare) ↔
      ∀ key, (first.lookup key).map parameterValue = (second.lookup key).map parameterValue := by
  rw [lookups_eq_iff hfirst hsecond]
  constructor
  · intro h
    have hperm := JsonValue.perm_of_sortKeys_eq _ h
    rw [sortFields_parameters, sortFields_parameters] at hperm
    exact hperm
  · intro h
    have htrans : Std.TransCmp fun left right : List Char × Json =>
        compareKeys localeCompare left.1 right.1 :=
      transCmp_comap localeCompare fun field : List Char × Json => String.ofList field.1
    rw [parametersJson, parametersJson, JsonValue.sortKeys, JsonValue.sortKeys,
      sortFields_parameters, sortFields_parameters]
    refine congrArg JsonValue.object (sortWith_eq_of_perm _ h ?_)
    intro a ha b hb heq
    obtain ⟨entry, hentry, rfl⟩ := List.mem_map.mp ha
    obtain ⟨other, hother, rfl⟩ := List.mem_map.mp hb
    simp only [compareKeys, String.ofList_toList] at heq
    have hkey := hapart entry hentry other hother heq
    rw [List.inj_on_of_nodup_map hfirst.keys hentry hother hkey]

theorem definitionKeys : (["id".toList, "strategyName".toList, "implementationVersion".toList,
    "implementationSha256".toList, "parameters".toList] : List (List Char)).Nodup := by decide

theorem candidateKeys : (["generatedBy".toList, "ownerUserId".toList, "strategyDefinitions".toList,
    "executionPolicy".toList, "method".toList] : List (List Char)).Nodup := by decide

theorem definitionJson_eq_iff [Std.TransCmp localeCompare]
    {first second : SearchStrategyDefinition}
    (hfirst : WellFormed first.parameters) (hsecond : WellFormed second.parameters)
    (hapart : ∀ a ∈ first.parameters, ∀ b ∈ first.parameters,
      localeCompare a.1 b.1 = .eq → a.1 = b.1) :
    (definitionJson (fingerprinted first)).sortKeys (compareKeys localeCompare) =
        (definitionJson (fingerprinted second)).sortKeys (compareKeys localeCompare) ↔
      identity first = identity second := by
  have hparameters := parametersJson_eq_iff hfirst hsecond hapart
  have htext : ∀ text : String, (textJson text).sortKeys (compareKeys localeCompare) =
      textJson text := fun _ => rfl
  rw [definitionJson, definitionJson]
  refine (JsonValue.sortKeys_object_eq_iff _ ?_ ?_).trans ?_
  · rfl
  · exact definitionKeys
  simp only [JsonValue.sortFields, htext, List.cons.injEq, Prod.mk.injEq, textJson_inj, and_true,
    true_and, fingerprinted, hparameters, identity, Identity.mk.injEq, funext_iff]

/-- Definitions of one owner with different ids. -/
structure Selection (owner : String) (selected : List SearchStrategyDefinition) : Prop where
  nonempty : selected ≠ []
  owned : ∀ definition ∈ selected, definition.userId = owner
  ids : (selected.map (·.id)).Nodup
  wellFormed : ∀ definition ∈ selected, WellFormed definition.parameters

/-- The collation tells the ids of a selection apart, and the keys of each definition. -/
structure ToldApart (localeCompare : String → String → Ordering)
    (selected : List SearchStrategyDefinition) : Prop where
  ids : ∀ a ∈ selected, ∀ b ∈ selected, localeCompare a.id b.id = .eq → a.id = b.id
  keys : ∀ definition ∈ selected, ∀ a ∈ definition.parameters, ∀ b ∈ definition.parameters,
    localeCompare a.1 b.1 = .eq → a.1 = b.1

/-- The definitions of a candidate as they are written, in the order of their ids. -/
def writtenDefinitions (localeCompare : String → String → Ordering)
    (selected : List SearchStrategyDefinition) : List Json :=
  (sortWith (compareIds localeCompare) (selected.map fingerprinted)).map fun definition =>
    (definitionJson definition).sortKeys (compareKeys localeCompare)

theorem candidateJson_eq_iff {type type' : GeneratorType} {owner owner' : String}
    {first second : List SearchStrategyDefinition} :
    (candidateJson localeCompare type owner first).sortKeys (compareKeys localeCompare) =
        (candidateJson localeCompare type' owner' second).sortKeys (compareKeys localeCompare) ↔
      type = type' ∧ owner = owner' ∧
        writtenDefinitions localeCompare first = writtenDefinitions localeCompare second ∧
        (if 1 < first.length then "MAJORITY_VOTE" else "WEIGHTED_SCORE") =
          if 1 < second.length then "MAJORITY_VOTE" else "WEIGHTED_SCORE" := by
  have htext : ∀ text : String, (textJson text).sortKeys (compareKeys localeCompare) =
      textJson text := fun _ => rfl
  have hlist : ∀ selected : List SearchStrategyDefinition,
      (JsonValue.array ((sortWith (compareIds localeCompare) (selected.map fingerprinted)).map
        definitionJson)).sortKeys (compareKeys localeCompare) =
      .array (writtenDefinitions localeCompare selected) := by
    intro selected
    rw [JsonValue.sortKeys, JsonValue.sortItems_eq_map, List.map_map]
    rfl
  rw [candidateJson, candidateJson]
  refine (JsonValue.sortKeys_object_eq_iff _ ?_ ?_).trans ?_
  · rfl
  · exact candidateKeys
  simp only [JsonValue.sortFields, htext, hlist, List.cons.injEq, Prod.mk.injEq, textJson_inj,
    and_true, true_and, generatorTypeText_inj, JsonValue.array.injEq]

theorem mem_writtenDefinitions (localeCompare : String → String → Ordering)
    {selected : List SearchStrategyDefinition} {json : Json} :
    json ∈ writtenDefinitions localeCompare selected ↔ ∃ definition ∈ selected,
      (definitionJson (fingerprinted definition)).sortKeys (compareKeys localeCompare) = json := by
  have hperm := (sortWith_perm (compareIds localeCompare) (selected.map fingerprinted)).map
    fun definition => (definitionJson definition).sortKeys (compareKeys localeCompare)
  rw [writtenDefinitions, hperm.mem_iff, List.map_map, List.mem_map]
  rfl

variable {owner owner' : String} {first second : List SearchStrategyDefinition}

/-- Definitions written alike are the same. -/
theorem same_of_written [Std.TransCmp localeCompare] (hfirst : Selection owner first)
    (hsecond : Selection owner' second) (hapart : ToldApart localeCompare first)
    (h : writtenDefinitions localeCompare first = writtenDefinitions localeCompare second)
    (value : Identity) :
    (∃ definition ∈ first, identity definition = value) ↔
      ∃ definition ∈ second, identity definition = value := by
  constructor
  · rintro ⟨definition, hmem, rfl⟩
    have hwritten := (mem_writtenDefinitions localeCompare).mpr ⟨definition, hmem, rfl⟩
    rw [h] at hwritten
    obtain ⟨other, hother, heq⟩ := (mem_writtenDefinitions localeCompare).mp hwritten
    refine ⟨other, hother, ?_⟩
    exact ((definitionJson_eq_iff (hfirst.wellFormed _ hmem) (hsecond.wellFormed _ hother)
      (hapart.keys _ hmem)).mp heq.symm).symm
  · rintro ⟨definition, hmem, rfl⟩
    have hwritten := (mem_writtenDefinitions localeCompare).mpr ⟨definition, hmem, rfl⟩
    rw [← h] at hwritten
    obtain ⟨other, hother, heq⟩ := (mem_writtenDefinitions localeCompare).mp hwritten
    exact ⟨other, hother, (definitionJson_eq_iff (hfirst.wellFormed _ hother)
      (hsecond.wellFormed _ hmem) (hapart.keys _ hother)).mp heq⟩

theorem nodup_identity (hfirst : Selection owner first) : (first.map identity).Nodup := by
  have hids : ((first.map identity).map (·.id)).Nodup := by
    rw [List.map_map]
    exact hfirst.ids
  exact List.Nodup.of_map _ hids

theorem perm_identity (hfirst : Selection owner first) (hsecond : Selection owner' second)
    (h : ∀ value, (∃ definition ∈ first, identity definition = value) ↔
      ∃ definition ∈ second, identity definition = value) :
    (first.map identity).Perm (second.map identity) := by
  refine (List.perm_ext_iff_of_nodup (nodup_identity hfirst) (nodup_identity hsecond)).mpr ?_
  intro value
  rw [List.mem_map, List.mem_map]
  exact h value

/-- The same definitions are written alike, in whatever order they were selected. -/
theorem written_of_same [Std.TransCmp localeCompare] (hfirst : Selection owner first)
    (hsecond : Selection owner' second) (hapart : ToldApart localeCompare first)
    (h : (first.map identity).Perm (second.map identity)) :
    writtenDefinitions localeCompare first = writtenDefinitions localeCompare second := by
  -- an id beside what is written of its definition, so that the order is one of the pairs
  let written : FingerprintedDefinition → String × Json := fun definition =>
    (definition.id, (definitionJson definition).sortKeys (compareKeys localeCompare))
  have hpairs : ∀ selected : List SearchStrategyDefinition,
      writtenDefinitions localeCompare selected =
        (sortWith (fun a b : String × Json => localeCompare a.1 b.1)
          ((selected.map fingerprinted).map written)).map (·.2) := by
    intro selected
    rw [← map_sortWith written, List.map_map]
    rfl
  have hperm : ((first.map fingerprinted).map written).Perm
      ((second.map fingerprinted).map written) := by
    rw [List.map_map, List.map_map]
    refine perm_map_of_perm_map h fun a ha b hb heq => ?_
    have hid : a.id = b.id := congrArg Identity.id heq
    have hjson := (definitionJson_eq_iff (hfirst.wellFormed a ha) (hsecond.wellFormed b hb)
      (hapart.keys a ha)).mpr heq
    exact Prod.ext hid hjson
  have htrans : Std.TransCmp fun a b : String × Json => localeCompare a.1 b.1 :=
    transCmp_comap localeCompare Prod.fst
  rw [hpairs, hpairs, sortWith_eq_of_perm _ hperm]
  intro a ha b hb heq
  rw [List.map_map] at ha hb
  obtain ⟨definition, hdefinition, rfl⟩ := List.mem_map.mp ha
  obtain ⟨other, hother, rfl⟩ := List.mem_map.mp hb
  have hid := hapart.ids definition hdefinition other hother heq
  rw [List.inj_on_of_nodup_map hfirst.ids hdefinition hother hid]

theorem fingerprintText_eq {type : GeneratorType} (hfirst : Selection owner first) :
    fingerprintText localeCompare type first =
      some (String.ofList ((candidateJson localeCompare type owner first).stableText
        (compareKeys localeCompare) DecimalNumber.format)) := by
  cases first with
  | nil => exact absurd rfl hfirst.nonempty
  | cons definition rest =>
    rw [fingerprintText, hfirst.owned definition List.mem_cons_self]

/-- Two candidates are hashed from one text exactly if they are of one generator and one owner and
select the same definitions, in whatever order these and their parameters stand, provided that the
collation tells the ids and the keys apart. -/
theorem fingerprint_text_eq_iff (localeCompare : String → String → Ordering)
    [Std.TransCmp localeCompare] (type type' : GeneratorType) (owner owner' : String)
    (first second : List SearchStrategyDefinition) (hfirst : Selection owner first)
    (hsecond : Selection owner' second) (hapart : ToldApart localeCompare first) :
    fingerprintText localeCompare type first = fingerprintText localeCompare type' second ↔
      type = type' ∧ owner = owner' ∧
        ∀ value, (∃ definition ∈ first, identity definition = value) ↔
          ∃ definition ∈ second, identity definition = value := by
  have htexts : fingerprintText localeCompare type first =
        fingerprintText localeCompare type' second ↔
      (candidateJson localeCompare type owner first).sortKeys (compareKeys localeCompare) =
        (candidateJson localeCompare type' owner' second).sortKeys (compareKeys localeCompare) := by
    rw [fingerprintText_eq hfirst, fingerprintText_eq hsecond, Option.some.injEq,
      String.ofList_inj, JsonValue.stableText_eq_iff]
  rw [htexts, candidateJson_eq_iff]
  constructor
  · rintro ⟨htype, howner, hwritten, -⟩
    exact ⟨htype, howner, same_of_written hfirst hsecond hapart hwritten⟩
  · rintro ⟨htype, howner, hsame⟩
    have hperm := perm_identity hfirst hsecond hsame
    have hlength : first.length = second.length := by
      rw [← List.length_map (f := identity), hperm.length_eq, List.length_map]
    refine ⟨htype, howner, written_of_same hfirst hsecond hapart hperm, ?_⟩
    rw [hlength]

end Selections

section Examples

def definitionWith (id : String) (parameters : Parameters) : SearchStrategyDefinition where
  id
  strategyName := "MA"
  implementationVersion := "1.0.0"
  implementationSha256 := "sha256-of-MA"
  parameters
  userId := "user-1"
  logicalFamilyKey := "strategy:MA"
  familyName := "MA"
  version := 1
  createdAt := "2025-01-01T00:00:00.000Z"
  category := some "TREND"
  parameterDescriptors := none

def fastSlow : Parameters := [("fastPeriod", .inl (.ofInt 5)), ("slowPeriod", .inl (.ofInt 20))]
def slowFast : Parameters := [("slowPeriod", .inl (.ofInt 20)), ("fastPeriod", .inl (.ofInt 5))]

theorem wellFormed_nil : WellFormed [] := ⟨List.nodup_nil, fun _ h => nomatch h⟩

theorem wellFormed_fastSlow : WellFormed fastSlow ∧ WellFormed slowFast := by
  have hfinite : ∀ n : ℤ, ∀ number : JsNumber,
      (Sum.inl (JsNumber.ofInt n) : ParameterValue) = .inl number → number.isFinite = true := by
    rintro n number h
    cases h
    rfl
  constructor
  · refine ⟨by decide, fun entry hentry => ?_⟩
    rcases List.mem_cons.mp hentry with rfl | hentry
    · exact hfinite 5
    · rw [List.mem_singleton.mp hentry]
      exact hfinite 20
  · refine ⟨by decide, fun entry hentry => ?_⟩
    rcases List.mem_cons.mp hentry with rfl | hentry
    · exact hfinite 20
    · rw [List.mem_singleton.mp hentry]
      exact hfinite 5

theorem selection_pair {id id' : String} {parameters parameters' : Parameters} (hids : id ≠ id')
    (h : WellFormed parameters) (h' : WellFormed parameters') :
    Selection "user-1" [definitionWith id parameters, definitionWith id' parameters'] where
  nonempty := List.cons_ne_nil _ _
  owned := by
    intro definition hmem
    rcases List.mem_cons.mp hmem with rfl | hmem
    · rfl
    · rw [List.mem_singleton.mp hmem]
      rfl
  ids := by simpa [definitionWith] using hids
  wellFormed := by
    intro definition hmem
    rcases List.mem_cons.mp hmem with rfl | hmem
    · exact h
    · rw [List.mem_singleton.mp hmem]
      exact h'

/-- Two definitions in two orders, one of them with its parameters in two orders. -/
theorem fingerprint_text_eq_iff_reordered :
    fingerprintText compare .random
        [definitionWith "definition-1" fastSlow, definitionWith "definition-2" []] =
      fingerprintText compare .random
        [definitionWith "definition-2" [], definitionWith "definition-1" slowFast] := by
  have hapart : ToldApart compare
      [definitionWith "definition-1" fastSlow, definitionWith "definition-2" []] :=
    ⟨fun _ _ _ _ h => Std.LawfulEqCmp.eq_of_compare h,
      fun _ _ _ _ _ _ h => Std.LawfulEqCmp.eq_of_compare h⟩
  have hsame : identity (definitionWith "definition-1" fastSlow) =
      identity (definitionWith "definition-1" slowFast) := by
    have hperm : fastSlow.Perm slowFast := List.Perm.swap _ _ _
    have hlookup := lookup_eq_of_perm wellFormed_fastSlow.1.keys hperm
    simp only [identity, definitionWith, hlookup]
  refine (fingerprint_text_eq_iff compare .random .random "user-1" "user-1" _ _
    (selection_pair (by decide) wellFormed_fastSlow.1 wellFormed_nil)
    (selection_pair (by decide) wellFormed_nil wellFormed_fastSlow.2) hapart).mpr
    ⟨rfl, rfl, fun value => ?_⟩
  simp only [List.mem_cons, List.not_mem_nil, or_false, exists_eq_or_imp, exists_eq_left, hsame]
  exact or_comm

/-- A collation that takes an accented letter for the letter and its accent, as they are
canonically equivalent. -/
def canonicalCompare (left right : String) : Ordering :=
  let canonicalForm : String → String := fun text => if text = "e\u0301" then "\u00e9" else text
  compare (canonicalForm left) (canonicalForm right)

/-- Two ids that such a collation does not tell apart are written as they were selected. -/
theorem equivalent_ids_keep_order :
    Selection "user-1" [definitionWith "\u00e9" [], definitionWith "e\u0301" []] ∧
      Selection "user-1" [definitionWith "e\u0301" [], definitionWith "\u00e9" []] ∧
      (∀ value, (∃ definition ∈ [definitionWith "\u00e9" [], definitionWith "e\u0301" []],
          identity definition = value) ↔
        ∃ definition ∈ [definitionWith "e\u0301" [], definitionWith "\u00e9" []],
          identity definition = value) ∧
      fingerprintText canonicalCompare .random
          [definitionWith "\u00e9" [], definitionWith "e\u0301" []] ≠
        fingerprintText canonicalCompare .random
          [definitionWith "e\u0301" [], definitionWith "\u00e9" []] := by
  have hdifferent : ("\u00e9" : String) ≠ "e\u0301" := by decide
  have hfirst := selection_pair hdifferent wellFormed_nil wellFormed_nil
  have hsecond := selection_pair hdifferent.symm wellFormed_nil wellFormed_nil
  refine ⟨hfirst, hsecond, fun value => ?_, ?_⟩
  · simp only [List.mem_cons, List.not_mem_nil, or_false, exists_eq_or_imp, exists_eq_left]
    exact or_comm
  · rw [fingerprintText_eq hfirst, fingerprintText_eq hsecond, Ne, Option.some.injEq,
      String.ofList_inj, JsonValue.stableText_eq_iff, candidateJson_eq_iff]
    rintro ⟨-, -, hwritten, -⟩
    have htie : sortWith (compareIds canonicalCompare)
          ([definitionWith "\u00e9" [], definitionWith "e\u0301" []].map fingerprinted) =
        [definitionWith "\u00e9" [], definitionWith "e\u0301" []].map fingerprinted := by decide
    have htie' : sortWith (compareIds canonicalCompare)
          ([definitionWith "e\u0301" [], definitionWith "\u00e9" []].map fingerprinted) =
        [definitionWith "e\u0301" [], definitionWith "\u00e9" []].map fingerprinted := by decide
    have htrans : Std.TransCmp canonicalCompare := transCmp_comap compare _
    rw [writtenDefinitions, writtenDefinitions, htie, htie'] at hwritten
    have hsame := (@definitionJson_eq_iff canonicalCompare htrans _ _ wellFormed_nil wellFormed_nil
      fun _ h => absurd h List.not_mem_nil).mp (List.cons.inj hwritten).1
    exact hdifferent (congrArg Identity.id hsame)

end Examples

end Cryptox.Search
