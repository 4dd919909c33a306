import Mathlib.Data.List.Perm.Subperm
import Cryptox.Search.MutationSteps

/-!
# The keys of a mutation

Every step that changes a parameter notes its key. The loops visit a parameter once, so what they
note has another value than the source has. A repair may assign the value of the source again, and
the key stays noted: that is the only way in which the keys come to tell more than what changed.
-/
namespace Cryptox.Search

open Cryptox.Backtesting (JsNumber Decimal IsRandom)
open Cryptox.Library
open Cryptox.Strategy (Parameters ParameterValue sameNumber)

/-- A parameter has another value than in the source. -/
def differs (source mutated : Parameters) (key : String) : Bool :=
  match source.lookup key, mutated.lookup key with
  | some before, some after => !sameValue after before
  | none, none => false
  | _, _ => true

/-- The values that the loops may leave a number with: its own, and the legal ones that differ. -/
def reachableValues (found : SearchParameterDescriptor × JsNumber) : List JsNumber :=
  found.2 :: (numericValues found.1 found.2).filter fun value => !sameNumber value found.2

namespace Relationship

variable (descriptors : List SearchParameterDescriptor) (source : Parameters)
  (relationship : Relationship)

/-- The two numbers that are related, with their descriptors. Other parameters are not repaired. -/
def numbers : Option ((SearchParameterDescriptor × JsNumber) ×
    (SearchParameterDescriptor × JsNumber)) :=
  match numericParameter descriptors source relationship.left,
      numericParameter descriptors source relationship.right with
  | some left, some right => some (left, right)
  | _, _ => none

end Relationship

theorem sameNumber_comm (left right : JsNumber) : sameNumber left right = sameNumber right left :=
  Bool.and_comm _ _

theorem sameNumber_finite {left right : Decimal} :
    sameNumber (.finite left) (.finite right) = true ↔ left.toRat = right.toRat := by
  rw [sameNumber, Bool.and_eq_true, JsNumber.le_iff rfl rfl, JsNumber.le_iff rfl rfl]
  exact le_antisymm_iff.symm

theorem sameNumber_trans {first second third : JsNumber} (h : sameNumber first second = true)
    (h' : sameNumber second third = true) : sameNumber first third = true := by
  cases first with
  | nan => simp [sameNumber, JsNumber.le] at h
  | infinity negative =>
    cases second with
    | nan => simp [sameNumber, JsNumber.le] at h
    | infinity other =>
      have hsame : negative = other := by
        revert h
        cases negative <;> cases other <;> decide
      rw [hsame]
      exact h'
    | finite _ => simp [sameNumber, JsNumber.le] at h
  | finite first =>
    cases second with
    | nan => simp [sameNumber, JsNumber.le] at h
    | infinity _ => simp [sameNumber, JsNumber.le] at h
    | finite second =>
      cases third with
      | nan => simp [sameNumber, JsNumber.le] at h'
      | infinity _ => simp [sameNumber, JsNumber.le] at h'
      | finite third =>
        rw [sameNumber_finite] at h h' ⊢
        exact h.trans h'

theorem sameValue_comm (left right : ParameterValue) :
    sameValue left right = sameValue right left := by
  cases left with
  | inl left =>
    cases right with
    | inl right => exact sameNumber_comm left right
    | inr right => rfl
  | inr left =>
    cases right with
    | inl right => rfl
    | inr right => exact Bool.beq_comm

theorem sameValue_trans {first second third : ParameterValue}
    (h : sameValue first second = true) (h' : sameValue second third = true) :
    sameValue first third = true := by
  cases first with
  | inl first =>
    cases second with
    | inr second => cases h
    | inl second =>
      cases third with
      | inr third => cases h'
      | inl third => exact sameNumber_trans h h'
  | inr first =>
    cases second with
    | inl second => cases h
    | inr second =>
      cases third with
      | inl third => cases h'
      | inr third =>
        have hfirst := beq_iff_eq.mp h
        have hsecond := beq_iff_eq.mp h'
        exact beq_iff_eq.mpr (hfirst.trans hsecond)

/-- Nothing tells two values apart that are the same. -/
theorem sameValue_congr {left right : ParameterValue} (h : sameValue left right = true)
    (value : ParameterValue) : sameValue value left = sameValue value right := by
  rw [Bool.eq_iff_iff]
  constructor
  · exact fun hleft => sameValue_trans hleft h
  · exact fun hright => sameValue_trans hright (sameValue_comm left right ▸ h)

/-- A value is the same as itself. `NaN` is not. -/
abbrev Comparable (source : Parameters) : Prop :=
  ∀ key value, source.lookup key = some value → sameValue value value = true

/-- What was noted is there, and what was not noted is as in the source. -/
structure Tracked (source : Parameters) (mutation : Mutation) : Prop where
  keys_eq : mutation.parameters.map (·.1) = source.map (·.1)
  unchanged : ∀ key, key ∉ mutation.keys → differs source mutation.parameters key = false

/-- A key is noted exactly if its parameter has another value. -/
def NotedAt (source : Parameters) (mutation : Mutation) (key : String) : Prop :=
  key ∈ mutation.keys ↔ differs source mutation.parameters key = true

section Steps

variable {source : Parameters} {mutation next : Mutation} {key : String}

theorem differs_eq {mutated : Parameters} {before after : ParameterValue}
    (hbefore : source.lookup key = some before) (hafter : mutated.lookup key = some after) :
    differs source mutated key = !sameValue after before := by
  rw [differs, hbefore, hafter]

theorem Tracked.source_value (h : Tracked source mutation) {value : ParameterValue}
    (hvalue : mutation.parameters.lookup key = some value) :
    ∃ before, source.lookup key = some before := by
  refine Option.isSome_iff_exists.mp (mem_keys_iff.mp ?_)
  rw [← h.keys_eq, mem_keys_iff, hvalue]
  rfl

/-- Against a parameter that was not noted, a value compares as against the source. -/
theorem Tracked.sameValue_eq (h : Tracked source mutation) (hnot : key ∉ mutation.keys)
    {current before : ParameterValue} (hcurrent : mutation.parameters.lookup key = some current)
    (hbefore : source.lookup key = some before) (value : ParameterValue) :
    sameValue value before = sameValue value current := by
  have hsame := h.unchanged key hnot
  rw [differs_eq hbefore hcurrent, Bool.not_eq_false'] at hsame
  exact (sameValue_congr hsame value).symm

theorem NotedAt.congr (hkeys : key ∈ next.keys ↔ key ∈ mutation.keys)
    (hlookup : next.parameters.lookup key = mutation.parameters.lookup key) :
    NotedAt source next key ↔ NotedAt source mutation key := by
  rw [NotedAt, NotedAt, hkeys, differs, differs, hlookup]

end Steps

section Loops

variable {host : GeneticHost} {source : Parameters} {random : Nat → ℚ} {mutation : Mutation}

/-- Each key is noted exactly if its parameter has another value. -/
structure Noted (source : Parameters) (mutation : Mutation) : Prop extends
    Tracked source mutation where
  noted : ∀ key, NotedAt source mutation key

/-- The first visit of a parameter notes it exactly if it changes. -/
theorem Noted.mutateAt (hrandom : ∀ n, IsRandom (random n)) (h : Noted source mutation)
    {descriptor : SearchParameterDescriptor} (hfirst : descriptor.key ∉ mutation.keys) :
    Noted source (mutateAt host random descriptor mutation) := by
  obtain ⟨hparameters, hkeys⟩ | ⟨current, value, hcurrent, -, hdiffers, hparameters, hkeys⟩ :=
    mutateAt_cases host hrandom descriptor mutation
  · refine ⟨⟨hparameters ▸ h.keys_eq, fun key hkey => ?_⟩, fun key => ?_⟩
    · rw [hkeys] at hkey
      rw [hparameters]
      exact h.unchanged key hkey
    · exact (NotedAt.congr (by rw [hkeys]) (by rw [hparameters])).mpr (h.noted key)
  · have hmem : descriptor.key ∈ mutation.parameters.map (·.1) := by
      rw [mem_keys_iff, hcurrent]
      rfl
    have hother : ∀ key, key ≠ descriptor.key →
        (Search.mutateAt host random descriptor mutation).parameters.lookup key =
          mutation.parameters.lookup key := by
      intro key hne
      rw [hparameters, lookup_assign hmem, if_neg hne]
    refine ⟨⟨?_, fun key hkey => ?_⟩, fun key => ?_⟩
    · rw [hparameters, map_fst_assign hmem, h.keys_eq]
    · rw [hkeys, List.mem_append, List.mem_singleton, not_or] at hkey
      rw [differs, hother key hkey.2, ← differs]
      exact h.unchanged key hkey.1
    · by_cases hkey : key = descriptor.key
      · subst hkey
        obtain ⟨before, hbefore⟩ := h.source_value hcurrent
        have hafter : (assign mutation.parameters descriptor.key value).lookup descriptor.key =
            some value := by
          rw [lookup_assign hmem, if_pos rfl]
        rw [NotedAt, hkeys, hparameters, differs_eq hbefore hafter,
          h.sameValue_eq hfirst hcurrent hbefore, hdiffers]
        simp
      · exact (NotedAt.congr (by rw [hkeys]; simp [hkey]) (hother key hkey)).mpr (h.noted key)

section Visits

variable (P : Mutation → Prop) {descriptors : List SearchParameterDescriptor}
  (hvisit : ∀ descriptor ∈ descriptors, ∀ mutation, P mutation →
    descriptor.key ∉ mutation.keys → P (mutateAt host random descriptor mutation))
include hvisit

end Visits

/-- A parameter that is not noted has the value of the source, and a noted one a legal value that
differs. -/
structure Reached (host : GeneticHost) (descriptors : List SearchParameterDescriptor)
    (source : Parameters) (mutation : Mutation) : Prop where
  kept : ∀ key, key ∉ mutation.keys → mutation.parameters.lookup key = source.lookup key
  drawn : ∀ key ∈ mutation.keys, ∃ descriptor ∈ descriptors, descriptor.key = key ∧
    ∃ before after, source.lookup key = some before ∧
      mutation.parameters.lookup key = some after ∧
      after ∈ legalValues host descriptor before ∧ sameValue after before = false

theorem Reached.mutateAt (hrandom : ∀ n, IsRandom (random n)) (hsource : Comparable source)
    {descriptors : List SearchParameterDescriptor} (h : Reached host descriptors source mutation)
    {descriptor : SearchParameterDescriptor} (hmem : descriptor ∈ descriptors)
    (hfirst : descriptor.key ∉ mutation.keys) :
    Reached host descriptors source (mutateAt host random descriptor mutation) := by
  obtain ⟨hparameters, hkeys⟩ | ⟨current, value, hcurrent, hvalue, hdiffers, hparameters, hkeys⟩ :=
    mutateAt_cases host hrandom descriptor mutation
  · refine ⟨fun key hkey => ?_, fun key hkey => ?_⟩
    · rw [hparameters]
      exact h.kept key (hkeys ▸ hkey)
    · rw [hparameters]
      exact h.drawn key (hkeys ▸ hkey)
  · have hbefore : source.lookup descriptor.key = some current :=
      (h.kept descriptor.key hfirst).symm.trans hcurrent
    have hthere : descriptor.key ∈ mutation.parameters.map (·.1) := by
      rw [mem_keys_iff, hcurrent]
      rfl
    have hlegal : value ∈ legalValues host descriptor current := by
      refine hvalue.resolve_left ?_
      rintro rfl
      rw [hsource _ _ hbefore] at hdiffers
      cases hdiffers
    refine ⟨fun key hkey => ?_, fun key hkey => ?_⟩
    · rw [hkeys, List.mem_append, List.mem_singleton, not_or] at hkey
      rw [hparameters, lookup_assign hthere, if_neg hkey.2]
      exact h.kept key hkey.1
    · rw [hkeys, List.mem_append, List.mem_singleton] at hkey
      by_cases hsame : key = descriptor.key
      · subst hsame
        refine ⟨descriptor, hmem, rfl, current, value, hbefore, ?_, hlegal, hdiffers⟩
        rw [hparameters, lookup_assign hthere, if_pos rfl]
      · obtain ⟨other, hother, hkey', before, after, hbefore', hafter, hrest⟩ :=
          h.drawn key (hkey.resolve_right hsame)
        refine ⟨other, hother, hkey', before, after, hbefore', ?_, hrest⟩
        rw [hparameters, lookup_assign hthere, if_neg hsame]
        exact hafter

end Loops

section Reaching

variable {source parameters : Parameters} {descriptors : List SearchParameterDescriptor}
  {relationship : Relationship} {key : String}

/-- A parameter is a number where the source has one, and then one that the loops may leave. -/
structure Reaches (descriptors : List SearchParameterDescriptor) (source parameters : Parameters)
    (key : String) : Prop where
  number : ∀ before, numericParameter descriptors source key = some before →
    ∃ value ∈ reachableValues before,
      numericParameter descriptors parameters key = some (before.1, value)
  other : numericParameter descriptors source key = none →
    numericParameter descriptors parameters key = none

theorem Reaches.congr {parameters' : Parameters} (h : Reaches descriptors source parameters key)
    (hlookup : parameters'.lookup key = parameters.lookup key) :
    Reaches descriptors source parameters' key := by
  have hsame : numericParameter descriptors parameters' key =
      numericParameter descriptors parameters key := by
    rw [numericParameter, numericParameter, hlookup]
  exact ⟨hsame ▸ h.number, hsame ▸ h.other⟩

namespace Relationship

end Relationship

end Reaching

section Repair

variable {source : Parameters} {random : Nat → ℚ} {descriptors : List SearchParameterDescriptor}
  {relationship : Relationship} {mutation next : Mutation}

/-- The two parameters of a relationship. -/
def Relationship.parameters (relationship : Relationship) : List String :=
  [relationship.left, relationship.right]

theorem Relationship.left_mem (relationship : Relationship) :
    relationship.left ∈ relationship.parameters := List.mem_cons_self

theorem Relationship.right_mem (relationship : Relationship) :
    relationship.right ∈ relationship.parameters := List.mem_cons_of_mem _ List.mem_cons_self

end Repair

section Definition

variable {host : GeneticHost} {random : Nat → ℚ} {definition : SearchStrategyDefinition}
  {parameters : Parameters} {descriptors : List SearchParameterDescriptor}

/-- The parameters of a definition, completed with the defaults. -/
def completed (definition : SearchStrategyDefinition) : Parameters :=
  match normalize definition with
  | .ok (parameters, _) => parameters
  | .error _ => []

end Definition

end Cryptox.Search
